import ScriptLint.Proofs.Script.Lines
import ScriptLint.Rule.TrailingWhitespace

/-!
# White space at the end of lines, by positions

The rule looks at lines; here it is told on the text as it stands. A position is reported if it
holds white space that ends no line and is followed by a character that does, or by nothing
(`IsTrailing`), and the line of the finding counts the line terminators that end before the position
(`terminatorsBefore`). `reported` goes through a text position by position, `reported_cons` says
what one character adds, and `findings_splitLines` that the lines of the text give the same.
-/

namespace ScriptLint

/-! ### Line terminators of a text -/

/-- Whether a line terminator ends at a position. A carriage return before a line feed is only the
first half of one. -/
def EndsTerminator (t : Text) (i : ℕ) : Prop :=
  t[i]? = some '\n' ∨ t[i]? = some '\r' ∧ t[i + 1]? ≠ some '\n'

instance (t : Text) : DecidablePred (EndsTerminator t) := fun i =>
  inferInstanceAs (Decidable (t[i]? = some '\n' ∨ t[i]? = some '\r' ∧ t[i + 1]? ≠ some '\n'))

/-- The number of line terminators before a position. -/
def terminatorsBefore (t : Text) (i : ℕ) : ℕ := (List.range i).countP (EndsTerminator t ·)

/-- The first character of a text is passed before all others. -/
theorem terminatorsBefore_cons_succ (c : Char) (t : Text) (i : ℕ) :
    terminatorsBefore (c :: t) (i + 1)
      = (if EndsTerminator (c :: t) 0 then 1 else 0) + terminatorsBefore t i := by
  -- Whether a terminator ends at a position depends on it and what follows, so positions can shift.
  have hrest : ((fun j => decide (EndsTerminator (c :: t) j)) ∘ Nat.succ)
      = fun j => decide (EndsTerminator t j) := rfl
  rw [terminatorsBefore, List.range_succ_eq_map, List.countP_cons, List.countP_map, hrest,
    Nat.add_comm, terminatorsBefore]
  simp only [decide_eq_true_eq]

/-- No terminator ends at a character that is no line break. -/
theorem not_endsTerminator_cons {c : Char} (hc : ¬ IsBreak c) (t : Text) :
    ¬ EndsTerminator (c :: t) 0 := by
  rintro (h | ⟨h, -⟩)
  · exact hc (.inl (Option.some.inj h))
  · exact hc (.inr (Option.some.inj h))

namespace TrailingWhitespace

/-! ### Positions of trailing white space -/

/-- Whether a position holds white space that ends no line and is followed by a carriage return, by
a line feed or by the end of the text. -/
def IsTrailing (t : Text) (i : ℕ) : Prop :=
  (∃ c ∈ t[i]?, isSpace c = true ∧ ¬ IsBreak c) ∧ ∀ d ∈ t[i + 1]?, IsBreak d

instance (t : Text) : DecidablePred (IsTrailing t) := fun i =>
  decidable_of_iff ((t[i]?.any fun c => isSpace c && !decide (IsBreak c)) = true ∧
    (t[i + 1]?.all fun d => decide (IsBreak d)) = true)
    (by simp [IsTrailing, Option.any_eq_true, Option.all_eq_true])

/-- The positions of a text that are reported, in increasing order. -/
def positions (t : Text) : List ℕ := (List.range t.length).filter (IsTrailing t)

theorem pairwise_positions (t : Text) : (positions t).Pairwise (· < ·) :=
  List.pairwise_lt_range.filter _

theorem mem_positions_iff {t : Text} {i : ℕ} : i ∈ positions t ↔ IsTrailing t i := by
  rw [positions, List.mem_filter, List.mem_range, decide_eq_true_eq, and_iff_right_iff_imp]
  rintro ⟨⟨c, hc, -⟩, -⟩
  exact (List.getElem?_eq_some_iff.mp hc).1

theorem positions_cons (c : Char) (t : Text) :
    positions (c :: t)
      = (if IsTrailing (c :: t) 0 then [0] else []) ++ (positions t).map Nat.succ := by
  have hrest : ((fun i => decide (IsTrailing (c :: t) i)) ∘ Nat.succ)
      = fun i => decide (IsTrailing t i) := rfl
  rw [positions, List.length_cons, List.range_succ_eq_map, List.filter_cons, List.filter_map, hrest,
    positions]
  by_cases h : IsTrailing (c :: t) 0
  · simp [h]
  · simp [h]

theorem not_isTrailing_of_isBreak {c : Char} (hc : IsBreak c) (t : Text) :
    ¬ IsTrailing (c :: t) 0 := by
  rintro ⟨⟨d, hd, -, hbreak⟩, -⟩
  obtain rfl := Option.some.inj hd
  exact hbreak hc

/-! ### Going through a text -/

/-- The findings about the positions of a text whose first line has a number. -/
def reported (s : Script) (number : ℕ) (t : Text) : List Diagnostic :=
  (positions t).map fun i => finding s (number + terminatorsBefore t i)

/-- **One character** adds a finding if it is trailing white space, and counts for the others if a
terminator ends at it. -/
theorem reported_cons (s : Script) (number : ℕ) (c : Char) (t : Text) :
    reported s number (c :: t)
      = (if IsTrailing (c :: t) 0 then [finding s number] else [])
        ++ reported s (number + if EndsTerminator (c :: t) 0 then 1 else 0) t := by
  rw [reported, positions_cons, List.map_append, List.map_map]
  congr 1
  · split_ifs
    · rfl
    · rfl
  · refine List.map_congr_left fun i _ => ?_
    rw [Function.comp_apply, Nat.succ_eq_add_one, terminatorsBefore_cons_succ, Nat.add_assoc]

/-- A line ending reports nothing, and what follows it is on the next line. -/
theorem reported_ending_append (s : Script) (number : ℕ) {e : Ending} {r : Text}
    (he : e ≠ .unterminated) (hr : e.Precedes r) :
    reported s number (e.text ++ r) = reported s (number + 1) r := by
  have hlf (r : Text) (number : ℕ) : reported s number ('\n' :: r) = reported s (number + 1) r := by
    rw [reported_cons, if_neg (not_isTrailing_of_isBreak (.inl rfl) r), if_pos (.inl rfl),
      List.nil_append]
  cases e with
  | lf => exact hlf r number
  | cr =>
    have hends : EndsTerminator ('\r' :: r) 0 := by
      refine .inr ⟨rfl, ?_⟩
      rw [List.getElem?_cons_succ, ← List.head?_eq_getElem?]
      exact hr rfl
    have hcr := reported_cons s number '\r' r
    rwa [if_neg (not_isTrailing_of_isBreak (.inr rfl) r), if_pos hends, List.nil_append] at hcr
  | crlf =>
    -- The terminator is counted at the line feed, not at the carriage return before it.
    have hhalf : ¬ EndsTerminator ('\r' :: '\n' :: r) 0 := by
      rintro (h | ⟨-, h⟩)
      · exact absurd (Option.some.inj h) (by decide)
      · exact h rfl
    have hcr := reported_cons s number '\r' ('\n' :: r)
    rw [if_neg (not_isTrailing_of_isBreak (.inr rfl) _), if_neg hhalf, List.nil_append,
      Nat.add_zero, hlf] at hcr
    exact hcr
  | unterminated => exact absurd rfl he

/-! ### Lines -/

/-- White space that is followed by a line break or by nothing ends its line. -/
theorem isTrailing_cons_iff {c : Char} (hc : ¬ IsBreak c) (r : Text) :
    IsTrailing (c :: r) 0 ↔ isSpace c = true ∧ firstLine r = [] := by
  have hhead : firstLine r = [] ↔ ∀ d ∈ r[0]?, IsBreak d := by
    cases r with
    | nil => simp [firstLine]
    | cons d r =>
      by_cases hd : IsBreak d
      · simp [firstLine, hd]
      · simp [firstLine_cons hd, hd]
  rw [hhead]
  constructor
  · rintro ⟨⟨d, hd, hspace, -⟩, hnext⟩
    obtain rfl := Option.some.inj hd
    exact ⟨hspace, hnext⟩
  · rintro ⟨hspace, hnext⟩
    exact ⟨⟨c, rfl, hspace, hc⟩, hnext⟩

/-- A character in front of a line shows only if it is all of it. -/
theorem isBad_cons (c : Char) (line : Text) :
    isBad (c :: line) = if line = [] then isSpace c else isBad line := by
  cases line with
  | nil => rfl
  | cons d line => rw [if_neg (List.cons_ne_nil d line), isBad, List.getLast?_cons_cons, isBad]

/-- A character in front of the first line. -/
theorem findings_cons (s : Script) (number : ℕ) {c : Char} (hc : ¬ IsBreak c) (r : Text) :
    findings s number (splitLines (c :: r))
      = (if IsTrailing (c :: r) 0 then [finding s number] else [])
        ++ findings s number (splitLines r) := by
  have htrailing := isTrailing_cons_iff hc r
  -- Without a rest the character is a line by itself, else it joins the first line of the rest.
  by_cases hnil : r = []
  · subst hnil
    have hline : splitLines [c] = [[c]] := splitLines_cons hc []
    have halone : firstLine [] = [] := rfl
    have hnone : findings s number (splitLines []) = [] := rfl
    rw [hline, hnone, List.append_nil, findings, findings, isBad_cons, if_pos rfl]
    simp only [htrailing, halone, and_true]
  · rw [splitLines_eq_cons (List.cons_ne_nil c r), firstLine_cons hc, afterFirst_cons hc,
      splitLines_eq_cons hnil, findings, findings, isBad_cons]
    by_cases hfirst : firstLine r = []
    · have hempty : isBad [] = false := rfl
      simp only [htrailing, hfirst, and_true, if_true, hempty, Bool.false_eq_true, if_false]
      split_ifs
      · rfl
      · rfl
    · simp only [htrailing, hfirst, and_false, if_false, List.nil_append]

/-- **Lines and positions give the same findings**, by induction over the endings of the text. -/
theorem findings_splitLines (s : Script) (number : ℕ) (t : Text) :
    findings s number (splitLines t) = reported s number t := by
  induction t using Text.inductionOnEndings generalizing number with
  | nil => rfl
  | ending e r he hr ih =>
    have hempty : isBad [] = false := rfl
    rw [reported_ending_append s number he hr, ← ih, splitLines, cutLines_ending_append he hr,
      List.map_cons, findings, hempty, if_neg (by decide), splitLines]
  | char c r hc ih =>
    rw [findings_cons s number hc, reported_cons, if_neg (not_endsTerminator_cons hc r),
      Nat.add_zero, ih]

/-- **The findings are the trailing white space of the text.** About every text the rule reports,
one by one and in order, the positions that hold white space right before a carriage return, a line
feed or the end of the text, where a line break is no such white space itself. Each finding names
the line that is one more than the number of line terminators before its position; a carriage return
and a line feed behind it are one terminator. -/
theorem check_reports_positions (path : Bytes) (t : Text) :
    ∃ places : List ℕ, places.Pairwise (· < ·) ∧ (∀ i, i ∈ places ↔ IsTrailing t i) ∧
      rule.check ⟨path, t⟩ = places.map fun i =>
        { file := path, line := (1 + terminatorsBefore t i : ℕ), rule := name,
          message := bytes "trailing whitespace" } :=
  ⟨positions t, pairwise_positions t, fun _ => mem_positions_iff, findings_splitLines ⟨path, t⟩ 1 t⟩

/-- A carriage return and a line feed end one line, and U+0085 is white space that ends none. -/
example : (rule.check ⟨[], "x \r\n\ry\u0085".toList⟩).map (·.line) = [1, 3] := by decide

end TrailingWhitespace

end ScriptLint
