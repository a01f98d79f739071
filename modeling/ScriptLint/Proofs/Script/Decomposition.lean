import ScriptLint.Proofs.Script.Lines

/-!
# The decomposition into lines

A text is its lines one behind the other, each with its ending. `IsDecomposition` says which ways to
read a text so are meant: no line holds a line break, a carriage return that ends a line has no line
feed behind it, and only the last line may be open, if it is not empty. A text can be read in one
such way only, which is how `cutLines` reads it (`isDecomposition_iff`), and its last line is ended
if and only if the text ends in a line terminator (`IsDecomposition.endsLine_iff`). The numbers of
lines in findings rest on this.
-/

namespace ScriptLint

/-- Whether lines with their endings are a way to read a text. -/
structure IsDecomposition (t : Text) (ls : List Line) : Prop where
  /-- The lines, each followed by its ending, are the text. -/
  text : ls.flatMap Line.text = t
  /-- No line holds a character that ends lines. -/
  unbroken : ∀ l ∈ ls, ∀ c ∈ l.body, ¬ IsBreak c
  /-- A line that ends in a carriage return has no line feed behind it. -/
  whole : ∀ before l after, ls = before ++ l :: after →
    l.ending.Precedes (after.flatMap Line.text)
  /-- Only the last line may be open, and is then not empty. -/
  closed : ∀ before l after, ls = before ++ l :: after → l.ending = .unterminated →
    after = [] ∧ l.body ≠ []

namespace IsDecomposition

variable {t : Text} {l : Line} {ls : List Line}

theorem nil : IsDecomposition [] [] where
  text := rfl
  unbroken := List.forall_mem_nil _
  whole before l after h := absurd h (by simp)
  closed before l after h := absurd h (by simp)

/-- A line in front of a decomposition. -/
theorem cons (hbody : ∀ c ∈ l.body, ¬ IsBreak c) (hwhole : l.ending.Precedes t)
    (hclosed : l.ending = .unterminated → ls = [] ∧ l.body ≠ []) (h : IsDecomposition t ls) :
    IsDecomposition (l.text ++ t) (l :: ls) where
  text := by rw [List.flatMap_cons, h.text]
  unbroken := List.forall_mem_cons.mpr ⟨hbody, h.unbroken⟩
  whole before l' after hsplit := by
    rcases List.cons_eq_append_iff.mp hsplit with ⟨-, hfirst⟩ | ⟨before', -, hrest⟩
    · obtain ⟨rfl, rfl⟩ := List.cons.inj hfirst
      rwa [h.text]
    · exact h.whole before' l' after hrest
  closed before l' after hsplit hopen := by
    rcases List.cons_eq_append_iff.mp hsplit with ⟨-, hfirst⟩ | ⟨before', -, hrest⟩
    · obtain ⟨rfl, rfl⟩ := List.cons.inj hfirst
      exact hclosed hopen
    · exact h.closed before' l' after hrest hopen

/-- A decomposition behind its first line. -/
theorem tail (h : IsDecomposition t (l :: ls)) : IsDecomposition (ls.flatMap Line.text) ls where
  text := rfl
  unbroken l' hl' := h.unbroken l' (List.mem_cons_of_mem l hl')
  whole before l' after hsplit := h.whole (l :: before) l' after (by rw [hsplit, List.cons_append])
  closed before l' after hsplit :=
    h.closed (l :: before) l' after (by rw [hsplit, List.cons_append])

end IsDecomposition

/-! ### There is one -/

/-- A character in front of the first line, which is a line of its own before an empty text. -/
theorem IsDecomposition.consLine {c : Char} (hc : ¬ IsBreak c) {t : Text} {ls : List Line}
    (h : IsDecomposition t ls) : IsDecomposition (c :: t) (consLine c ls) := by
  cases ls with
  | nil =>
    obtain rfl : t = [] := h.text.symm
    refine IsDecomposition.nil.cons (l := ⟨[c], .unterminated⟩) ?_ ?_ ?_
    · exact List.forall_mem_singleton.mpr hc
    · simp [Ending.Precedes]
    · exact fun _ => ⟨rfl, List.cons_ne_nil c []⟩
  | cons l ls =>
    have hbody : ∀ d ∈ c :: l.body, ¬ IsBreak d :=
      List.forall_mem_cons.mpr ⟨hc, h.unbroken l List.mem_cons_self⟩
    have hlonger := h.tail.cons (l := ⟨c :: l.body, l.ending⟩) hbody (h.whole [] l ls rfl)
      fun hopen => ⟨(h.closed [] l ls rfl hopen).1, List.cons_ne_nil c l.body⟩
    rwa [← h.text]

/-- The lines that a text is cut into are a decomposition of it. -/
theorem isDecomposition_cutLines (t : Text) : IsDecomposition t (cutLines t) := by
  induction t using Text.inductionOnEndings with
  | nil => exact .nil
  | ending e r he hr ih =>
    rw [cutLines_ending_append he hr]
    exact ih.cons (l := ⟨[], e⟩) (List.forall_mem_nil _) hr fun hopen => absurd hopen he
  | char c r hc ih =>
    rw [cutLines_cons hc]
    exact ih.consLine hc

/-! ### There is no other -/

/-- A whole ending closes the line before it. -/
theorem cutLines_append_ending {b : Text} (hb : ∀ c ∈ b, ¬ IsBreak c) {e : Ending}
    (he : e ≠ .unterminated) {r : Text} (hr : e.Precedes r) :
    cutLines (b ++ (e.text ++ r)) = ⟨b, e⟩ :: cutLines r := by
  induction b with
  | nil => exact cutLines_ending_append he hr
  | cons c b ih =>
    obtain ⟨hc, hb⟩ := List.forall_mem_cons.mp hb
    rw [List.cons_append, cutLines_cons hc, ih hb, consLine]

/-- Characters without an ending are one open line. -/
theorem cutLines_of_unbroken {b : Text} (hb : ∀ c ∈ b, ¬ IsBreak c) (hne : b ≠ []) :
    cutLines b = [⟨b, .unterminated⟩] := by
  induction b with
  | nil => exact absurd rfl hne
  | cons c b ih =>
    obtain ⟨hc, hb⟩ := List.forall_mem_cons.mp hb
    rw [cutLines_cons hc]
    by_cases hempty : b = []
    · rw [hempty, cutLines, consLine]
    · rw [ih hb hempty, consLine]

/-- **A text can be read as lines in one way**, which is how it is cut. -/
theorem isDecomposition_iff (t : Text) (ls : List Line) :
    IsDecomposition t ls ↔ ls = cutLines t := by
  constructor
  · intro h
    induction ls generalizing t with
    | nil =>
      obtain rfl : t = [] := h.text.symm
      rfl
    | cons l ls ih =>
      have hbody := h.unbroken l List.mem_cons_self
      have hrest : ls = cutLines (ls.flatMap Line.text) := ih _ h.tail
      obtain ⟨body, ending⟩ := l
      rw [← h.text, List.flatMap_cons, Line.text, List.append_assoc]
      by_cases hopen : ending = .unterminated
      · -- An open line is the last one.
        obtain ⟨rfl, hne⟩ := h.closed [] _ ls rfl hopen
        subst hopen
        simp only [Ending.text, List.flatMap_nil, List.append_nil]
        exact (cutLines_of_unbroken hbody hne).symm
      · rw [cutLines_append_ending hbody hopen (h.whole [] _ ls rfl), ← hrest]
  · rintro rfl
    exact isDecomposition_cutLines t

/-- The text ends in a line terminator exactly if there is a last line and it is ended. -/
theorem IsDecomposition.endsLine_iff {t : Text} {ls : List Line} (h : IsDecomposition t ls) :
    endsLine t = true ↔ ∃ l, ls.getLast? = some l ∧ l.ending ≠ .unterminated := by
  rcases List.eq_nil_or_concat ls with rfl | ⟨before, l, rfl⟩
  · obtain rfl : t = [] := h.text.symm
    exact iff_of_false (by decide) (by simp)
  · rw [List.concat_eq_append] at h ⊢
    have htext : t = before.flatMap Line.text ++ l.body ++ l.ending.text := by
      rw [← h.text, List.flatMap_append, List.flatMap_singleton, Line.text, List.append_assoc]
    simp only [List.getLast?_append, List.getLast?_singleton, Option.some_or, Option.some.injEq,
      exists_eq_left']
    by_cases hopen : l.ending = .unterminated
    · -- The last character is one of the line, and no line holds a break.
      have hne := (h.closed before l [] rfl hopen).2
      have hunbroken := h.unbroken l (by simp) _ (List.getLast_mem hne)
      have hlast : t.getLast? = some (l.body.getLast hne) := by
        rw [htext, hopen, Ending.text, List.append_nil, List.getLast?_append,
          List.getLast?_eq_some_getLast hne, Option.some_or]
      rw [endsLine, hlast]
      simpa [IsBreak, hopen] using hunbroken
    · rw [htext, endsLine_append _ (Ending.text_ne_nil hopen), endsLine_text hopen]
      exact iff_of_true rfl hopen

/-- **The lines of a text are its one decomposition.** There is exactly one list of lines with
endings that a text can be read as; these are the lines that the text is split into, and the text
ends in a line terminator if and only if there is a last line among them and it is ended. -/
theorem splitLines_of_decomposition (t : Text) :
    (∃! ls, IsDecomposition t ls) ∧
    ∀ ls, IsDecomposition t ls → splitLines t = ls.map (·.body) ∧
      (endsLine t = true ↔ ∃ l, ls.getLast? = some l ∧ l.ending ≠ .unterminated) := by
  refine ⟨⟨cutLines t, isDecomposition_cutLines t, fun ls => (isDecomposition_iff t ls).mp⟩, ?_⟩
  intro ls h
  refine ⟨?_, h.endsLine_iff⟩
  rw [(isDecomposition_iff t ls).mp h, splitLines]

/-- A carriage return before a carriage return and a line feed is an ending of its own, and the last
line is open. -/
theorem splitLines_of_decomposition_mixed :
    let t : Text := "a\n\r\r\nb".toList
    let ls : List Line := [⟨['a'], .lf⟩, ⟨[], .cr⟩, ⟨[], .crlf⟩, ⟨['b'], .unterminated⟩]
    IsDecomposition t ls ∧ splitLines t = [['a'], [], [], ['b']] ∧
      (endsLine t = true ↔ ∃ l, ls.getLast? = some l ∧ l.ending ≠ .unterminated) := by
  intro t ls
  have h : IsDecomposition t ls := (isDecomposition_iff t ls).mpr (by decide)
  exact ⟨h, (splitLines_of_decomposition t).2 ls h⟩

end ScriptLint
