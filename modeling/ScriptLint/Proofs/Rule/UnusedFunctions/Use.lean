import ScriptLint.Proofs.Rule.Findings
import ScriptLint.Proofs.Rule.UnusedFunctions.Header
import Mathlib.Data.Nat.Count

/-!
# Uses of functions

A use of a name is a position of the code at which the name stands as a whole word before an opening
parenthesis (`IsUse`), and `uses` is the number of these positions (`uses_eq_count`). Every
definition is a use of its name at the place of its header (`isUse_headerPosition`), so a definition
is reported exactly if this is the only one (`check_reports_sole_uses`). Uses do not overlap, so a
search from left to right that goes on behind each use and stops after the second decides the same
(`mem_check_iff_search`). Uses inside some lines remain uses among more lines, so a definition that
is used stays used whatever surrounds it (`reported_alone_of_reported_within`).
-/

namespace ScriptLint.UnusedFunctions

/-! ### Uses as positions -/

/-- Whether a name is used at a position of a text: it stands there, not behind a word character,
with blanks and an opening parenthesis behind it. -/
structure IsUse (ident t : Text) (p : ℕ) : Prop where
  alone : ∀ c ∈ (t.take p).getLast?, isWordChar c = false
  called : ∃ blanks rest, t.drop p = ident ++ (blanks ++ '(' :: rest) ∧
    ∀ c ∈ blanks, isAsciiBlank c = true

/-- Whether a name is used at one position of a text or at none. -/
def IsUsedOnceAtMost (ident t : Text) : Prop := ∀ p q, IsUse ident t p → IsUse ident t q → p = q

/-- Whether a text ends in a word character. -/
def endsInWord (t : Text) : Bool := t.getLast?.any isWordChar

section

variable {ident t : Text} {p : ℕ}

theorem strip?_eq_some_iff {pattern t r : Text} : strip? pattern t = some r ↔ t = pattern ++ r := by
  induction pattern generalizing t with
  | nil => simp [strip?]
  | cons c pattern ih =>
    cases t with
    | nil => simp [strip?]
    | cons d t =>
      by_cases h : c = d
      · simp [strip?, h, ih]
      · simp [strip?, h, Ne.symm h]

theorem calledAt_eq_true_iff : calledAt ident t = true ↔
    ∃ blanks rest, t = ident ++ (blanks ++ '(' :: rest) ∧ ∀ c ∈ blanks, isAsciiBlank c = true := by
  unfold calledAt
  constructor
  · intro h
    split at h
    · rename_i r hr
      rw [beq_iff_eq, List.head?_eq_some_iff] at h
      obtain ⟨rest, hrest⟩ := h
      refine ⟨r.takeWhile isAsciiBlank, rest, ?_, fun c hc => List.mem_takeWhile_imp hc⟩
      rw [← hrest, List.takeWhile_append_dropWhile]
      exact strip?_eq_some_iff.mp hr
    · exact absurd h (by simp)
  · rintro ⟨blanks, rest, ht, hblanks⟩
    rw [strip?_eq_some_iff.mpr ht]
    dsimp only
    rw [(span_append_cons hblanks (by decide) rest).2, List.head?_cons, beq_self_eq_true]

theorem isUse_iff : IsUse ident t p ↔
    endsInWord (t.take p) = false ∧ calledAt ident (t.drop p) = true := by
  have halone : endsInWord (t.take p) = false ↔
      ∀ c ∈ (t.take p).getLast?, isWordChar c = false := by
    unfold endsInWord
    cases (t.take p).getLast? with
    | none => simp
    | some c => simp
  rw [halone, calledAt_eq_true_iff]
  exact ⟨fun h => ⟨h.alone, h.called⟩, fun h => ⟨h.1, h.2⟩⟩

instance (ident t : Text) : DecidablePred (IsUse ident t) :=
  fun _ => decidable_of_iff _ isUse_iff.symm

/-- Something stands at the position of a use. -/
theorem IsUse.lt_length (h : IsUse ident t p) : p < t.length := by
  by_contra hle
  obtain ⟨blanks, rest, hdrop, -⟩ := h.called
  rw [List.drop_eq_nil_of_le (Nat.le_of_not_lt hle)] at hdrop
  simp at hdrop

/-- **Uses do not overlap**: the next one starts behind the opening parenthesis. -/
theorem IsUse.end_le {q : ℕ} (hname : IsName ident) {blanks rest : Text}
    (hdrop : t.drop p = ident ++ (blanks ++ '(' :: rest))
    (hblanks : ∀ c ∈ blanks, isAsciiBlank c = true) (hq : IsUse ident t q) (hlt : p < q) :
    p + (ident.length + blanks.length + 1) ≤ q := by
  by_contra hle
  obtain ⟨m, rfl⟩ : ∃ m, q = p + (m + 1) := ⟨q - p - 1, by omega⟩
  have hget (i : ℕ) : t[p + i]? = (ident ++ (blanks ++ ['('] ++ rest))[i]? := by
    rw [← List.getElem?_drop, hdrop, List.append_assoc, List.singleton_append]
  by_cases hinside : m < ident.length
  · -- A use inside the name or right behind it follows a word character.
    have hbefore : (t.take (p + (m + 1))).getLast? = some ident[m] := by
      rw [List.getLast?_take, if_neg (by omega), Nat.add_sub_assoc (by omega), Nat.add_sub_cancel,
        hget, List.getElem?_append_left hinside, List.getElem?_eq_getElem hinside, Option.some_or]
    have halone := hq.alone _ hbefore
    rw [hname.isWordChar _ (List.getElem_mem hinside)] at halone
    exact absurd halone (by decide)
  · -- A use among the blanks or at the parenthesis would start with one of these.
    obtain ⟨c, cs, hident, hstart, -⟩ := hname
    obtain ⟨blanks', rest', hdrop', -⟩ := hq.called
    have hfirst : t[p + (m + 1)]? = some c := by
      rw [← Nat.add_zero (p + (m + 1)), ← List.getElem?_drop, hdrop', hident]
      rfl
    have hword := isWordChar_of_isIdentStart hstart
    rw [hget, List.getElem?_append_right (by omega), List.getElem?_append_left
      (by rw [List.length_append, List.length_singleton]; omega)] at hfirst
    rcases List.mem_append.mp (List.mem_of_getElem? hfirst) with hblank | hparen
    · rw [isWordChar_eq_false_of_isAsciiBlank (hblanks c hblank)] at hword
      exact absurd hword (by decide)
    · rw [List.mem_singleton.mp hparen] at hword
      exact absurd hword (by decide)

/-- The uses behind a text are counted one position after the other. -/
theorem uses_endsInWord (ident before t : Text) : uses ident (endsInWord before) t
    = Nat.count (fun p => IsUse ident (before ++ t) (before.length + p)) t.length := by
  induction t generalizing before with
  | nil => rfl
  | cons c r ih =>
    have hword : isWordChar c = endsInWord (before ++ [c]) := by simp [endsInWord]
    have hrest : uses ident (isWordChar c) r
        = Nat.count (fun p => IsUse ident (before ++ c :: r) (before.length + (p + 1)))
            r.length := by
      rw [hword, ih (before ++ [c])]
      simp only [List.append_assoc, List.singleton_append, List.length_append,
        List.length_singleton, Nat.add_assoc, Nat.add_comm 1]
    have hfirst : IsUse ident (before ++ c :: r) (before.length + 0) ↔
        (!endsInWord before && calledAt ident (c :: r)) = true := by
      simp [isUse_iff]
    rw [uses, hrest, List.length_cons, Nat.count_succ', Nat.add_comm]
    simp only [hfirst]

/-- **`uses` is the number of positions at which a name is used.** -/
theorem uses_eq_count (ident t : Text) :
    uses ident false t = Nat.count (IsUse ident t) t.length := by
  have h := uses_endsInWord ident [] t
  simpa [endsInWord] using h

theorem uses_le_one_iff : uses ident false t ≤ 1 ↔ IsUsedOnceAtMost ident t := by
  rw [uses_eq_count, Nat.count_eq_card_filter_range, Finset.card_le_one]
  have hmem (p : ℕ) : p ∈ (Finset.range t.length).filter (IsUse ident t) ↔ IsUse ident t p := by
    rw [Finset.mem_filter, Finset.mem_range]
    exact ⟨And.right, fun h => ⟨h.lt_length, h⟩⟩
  simp only [hmem]
  exact ⟨fun h p q hp hq => h p hp q hq, fun h p hp q hq => h p q hp hq⟩

/-! ### Searching for uses -/

/-- What a search from left to right finds that is to find so many uses and starts at a position:
the first use from there on, and then it goes on behind the opening parenthesis. -/
inductive Search (ident t : Text) : (limit start : ℕ) → List ℕ → Prop where
  | full {start : ℕ} : Search ident t 0 start []
  | none {limit start : ℕ} (h : ∀ p, start ≤ p → ¬ IsUse ident t p) :
    Search ident t (limit + 1) start []
  | next {limit start p : ℕ} {blanks rest : Text} {ps : List ℕ} (le : start ≤ p)
    (use : IsUse ident t p) (first : ∀ q, start ≤ q → q < p → ¬ IsUse ident t q)
    (drop : t.drop p = ident ++ (blanks ++ '(' :: rest))
    (blank : ∀ c ∈ blanks, isAsciiBlank c = true)
    (later : Search ident t limit (p + (ident.length + blanks.length + 1)) ps) :
    Search ident t (limit + 1) start (p :: ps)

theorem exists_search (ident t : Text) (limit start : ℕ) : ∃ ps, Search ident t limit start ps := by
  induction limit generalizing start with
  | zero => exact ⟨[], .full⟩
  | succ limit ih =>
    by_cases h : ∃ p, start ≤ p ∧ IsUse ident t p
    · obtain ⟨hle, huse⟩ := Nat.find_spec h
      obtain ⟨blanks, rest, hdrop, hblanks⟩ := huse.called
      obtain ⟨ps, hps⟩ := ih (Nat.find h + (ident.length + blanks.length + 1))
      have hfirst (q : ℕ) (hq : start ≤ q) (hlt : q < Nat.find h) : ¬ IsUse ident t q :=
        fun huse' => Nat.find_min h hlt ⟨hq, huse'⟩
      exact ⟨_, .next hle huse hfirst hdrop hblanks hps⟩
    · exact ⟨[], .none fun p hle huse => h ⟨p, hle, huse⟩⟩

/-- The positions from a start on at which a name is used. -/
def usesFrom (ident t : Text) (start : ℕ) : Finset ℕ :=
  (Finset.range t.length).filter fun p => start ≤ p ∧ IsUse ident t p

theorem mem_usesFrom {start : ℕ} : p ∈ usesFrom ident t start ↔ start ≤ p ∧ IsUse ident t p := by
  rw [usesFrom, Finset.mem_filter, Finset.mem_range]
  exact ⟨And.right, fun h => ⟨h.2.lt_length, h⟩⟩

/-- **A search misses no use**: it finds as many as it is to find, or else all of them. -/
theorem Search.length_eq (hname : IsName ident) {limit start : ℕ} {ps : List ℕ}
    (h : Search ident t limit start ps) : ps.length = min limit (usesFrom ident t start).card := by
  induction h with
  | full => rw [Nat.zero_min, List.length_nil]
  | none h =>
    have hempty : usesFrom ident t _ = ∅ :=
      Finset.eq_empty_of_forall_notMem fun p hp => h p (mem_usesFrom.mp hp).1 (mem_usesFrom.mp hp).2
    rw [hempty, Finset.card_empty, Nat.min_zero, List.length_nil]
  | @next limit start p blanks rest ps le use first drop blank later ih =>
    -- Behind the use that is found the next one starts where the search goes on.
    have hsplit : usesFrom ident t start
        = insert p (usesFrom ident t (p + (ident.length + blanks.length + 1))) := by
      ext q
      rw [Finset.mem_insert, mem_usesFrom, mem_usesFrom]
      constructor
      · rintro ⟨hq, huse⟩
        rcases Nat.lt_trichotomy q p with hlt | rfl | hgt
        · exact absurd huse (first q hq hlt)
        · exact .inl rfl
        · exact .inr ⟨IsUse.end_le hname drop blank huse hgt, huse⟩
      · rintro (rfl | ⟨hq, huse⟩)
        · exact ⟨le, use⟩
        · exact ⟨by omega, huse⟩
    have hout : p ∉ usesFrom ident t (p + (ident.length + blanks.length + 1)) := fun hp => by
      have hle := (mem_usesFrom.mp hp).1
      omega
    rw [hsplit, Finset.card_insert_of_notMem hout, List.length_cons, ih]
    omega

/-- A search for two uses finds out whether there is a second one. -/
theorem Search.length_le_one_iff (hname : IsName ident) {ps : List ℕ}
    (h : Search ident t 2 0 ps) : ps.length ≤ 1 ↔ uses ident false t ≤ 1 := by
  have hall : (usesFrom ident t 0).card = uses ident false t := by
    rw [uses_eq_count, Nat.count_eq_card_filter_range]
    refine congrArg Finset.card (Finset.ext fun p => ?_)
    simp only [usesFrom, Finset.mem_filter, Nat.zero_le, true_and]
  rw [h.length_eq hname, hall]
  omega

end

/-! ### Uses in longer texts -/

section

variable {ident t u : Text} {p : ℕ}

/-- A use is one with more text behind. -/
theorem IsUse.append (h : IsUse ident t p) (u : Text) : IsUse ident (t ++ u) p := by
  have hle := h.lt_length.le
  obtain ⟨blanks, rest, hdrop, hblanks⟩ := h.called
  constructor
  · rw [List.take_append_of_le_length hle]
    exact h.alone
  · refine ⟨blanks, rest ++ u, ?_, hblanks⟩
    rw [List.drop_append_of_le_length hle, hdrop]
    simp

/-- A use is one behind a text that does not end in a word. -/
theorem IsUse.behind (h : IsUse ident t p) (hu : ∀ c ∈ u.getLast?, isWordChar c = false) :
    IsUse ident (u ++ t) (u.length + p) where
  alone := by
    rw [List.take_length_add_append, List.getLast?_append]
    cases hlast : (t.take p).getLast? with
    | none => exact hu
    | some c => exact fun d hd => h.alone d (by rwa [hlast])
  called := by
    rw [List.drop_length_add_append]
    exact h.called

/-- A name with blanks and an opening parenthesis behind it is a use where it stands. -/
theorem isUse_length (hu : ∀ c ∈ u.getLast?, isWordChar c = false) {gap : Text}
    (hgap : ∀ c ∈ gap, isAsciiBlank c = true) (rest : Text) :
    IsUse ident (u ++ (ident ++ (gap ++ '(' :: rest))) u.length := by
  have hfront : IsUse ident (ident ++ (gap ++ '(' :: rest)) 0 :=
    ⟨fun c hc => absurd hc (by simp), gap, rest, rfl, hgap⟩
  exact hfront.behind hu

end

/-! ### The code of a script -/

/-- The code of lines that other lines follow. -/
def codeBefore (lines : List Text) : Text := lines.flatMap fun line => code line ++ ['\n']

theorem body_cons (line : Text) {lines : List Text} (h : lines ≠ []) :
    body (line :: lines) = code line ++ '\n' :: body lines := by
  cases lines with
  | nil => exact absurd rfl h
  | cons l ls => rfl

/-- **The code of some lines stands as it is in the code of all.** -/
theorem exists_body_append {lines : List Text} (h : lines ≠ []) (before after : List Text) :
    ∃ rest, body (before ++ (lines ++ after)) = codeBefore before ++ (body lines ++ rest) := by
  -- The last line has no line break behind it unless other lines follow, so the lines before are
  -- taken off one by one, and then the lines themselves.
  induction before with
  | nil =>
    induction lines with
    | nil => exact absurd rfl h
    | cons line lines ih =>
      by_cases hlines : lines = []
      · subst hlines
        cases after with
        | nil => exact ⟨[], by simp [codeBefore]⟩
        | cons l ls => exact ⟨'\n' :: body (l :: ls), rfl⟩
      · obtain ⟨rest, hrest⟩ := ih hlines
        refine ⟨rest, ?_⟩
        have hne : lines ++ after ≠ [] := by simp [hlines]
        rw [List.nil_append] at hrest ⊢
        rw [List.cons_append, body_cons line hne, body_cons line hlines, hrest]
        simp [codeBefore]
  | cons line before ih =>
    obtain ⟨rest, hrest⟩ := ih
    have hne : before ++ (lines ++ after) ≠ [] := by simp [h]
    refine ⟨rest, ?_⟩
    rw [List.cons_append, body_cons line hne, hrest]
    simp [codeBefore]

theorem getLast?_codeBefore (lines : List Text) :
    ∀ c ∈ (codeBefore lines).getLast?, isWordChar c = false := by
  rcases List.eq_nil_or_concat lines with rfl | ⟨before, line, rfl⟩
  · simp [codeBefore]
  · rintro c hc
    obtain rfl : '\n' = c := by simpa [codeBefore, List.getLast?_append] using hc
    decide

/-- The position at which the name in the header of a line stands, lines counting from zero. -/
def headerPosition (lines : List Text) (k : ℕ) : ℕ :=
  (codeBefore (lines.take k)).length + ((lines.getD k []).takeWhile isAsciiBlank).length

section

variable {lines : List Text} {k : ℕ} {line ident : Text}

theorem eq_take_append_cons_drop (hline : lines[k]? = some line) :
    lines = lines.take k ++ ([line] ++ lines.drop (k + 1)) := by
  obtain ⟨hk, rfl⟩ := List.getElem?_eq_some_iff.mp hline
  rw [List.singleton_append, ← List.drop_eq_getElem_cons hk, List.take_append_drop]

theorem Header.headerPosition_eq {h : Header} (hline : lines[k]? = some line)
    (hheader : h.text <+: line) :
    headerPosition lines k = (codeBefore (lines.take k) ++ h.indent).length := by
  obtain ⟨r, rfl⟩ := hheader
  have hindent : (h.text ++ r).takeWhile isAsciiBlank = h.indent := by
    rw [Header.text, Header.opening]
    simp only [List.append_assoc]
    exact (h.span_indent _).1
  have hget : lines.getD k [] = h.text ++ r := by rw [List.getD_eq_getElem?_getD, hline]; rfl
  rw [headerPosition, hget, hindent, List.length_append]

/-- **A definition is a use of its name** at the place of its header. -/
theorem isUse_headerPosition (hline : lines[k]? = some line) (hdefines : Defines line ident) :
    IsUse ident (body lines) (headerPosition lines k) := by
  obtain ⟨⟨h, rfl, hheader⟩, -⟩ := hdefines
  obtain ⟨r, hcode⟩ := h.opening_prefix_code hheader
  obtain ⟨rest, hbody⟩ :=
    exists_body_append (List.cons_ne_nil line []) (lines.take k) (lines.drop (k + 1))
  rw [← eq_take_append_cons_drop hline, body, ← hcode] at hbody
  have hsplit : body lines = (codeBefore (lines.take k) ++ h.indent) ++
      (h.name ++ (h.gap ++ '(' :: (r ++ rest))) := by
    rw [hbody]
    simp [Header.opening]
  rw [hsplit, h.headerPosition_eq hline hheader]
  refine isUse_length ?_ h.gap_blank (r ++ rest)
  rw [List.getLast?_append]
  cases hlast : h.indent.getLast? with
  | none => exact getLast?_codeBefore _
  | some c =>
    rintro d hd
    obtain rfl := Option.some.inj hd
    exact isWordChar_eq_false_of_isAsciiBlank (h.indent_blank c (List.mem_of_getLast? hlast))

/-- Headers on later lines stand further behind. -/
theorem headerPosition_lt (hline : lines[k]? = some line) (hdefines : Defines line ident) {k' : ℕ}
    (hk : k < k') : headerPosition lines k < headerPosition lines k' := by
  obtain ⟨⟨h, -, hheader⟩, -⟩ := hdefines
  -- The header is part of the code of its line, all of which stands before the later lines.
  have hindent : h.indent.length ≤ (code line).length := by
    have hprefix : h.indent <+: code line :=
      (List.prefix_append _ _).trans (h.opening_prefix_code hheader)
    exact hprefix.length_le
  have hlater : (codeBefore (lines.take k)).length + (code line).length
      < (codeBefore (lines.take k')).length := by
    obtain ⟨m, rfl⟩ := Nat.exists_eq_add_of_lt hk
    obtain ⟨hlt, rfl⟩ := List.getElem?_eq_some_iff.mp hline
    rw [Nat.add_assoc, List.take_add, List.drop_eq_getElem_cons hlt, List.take_succ_cons,
      codeBefore, codeBefore, List.flatMap_append, List.flatMap_cons]
    simp only [List.length_append, List.length_singleton]
    omega
  rw [h.headerPosition_eq hline hheader, List.length_append]
  unfold headerPosition
  omega

end

/-! ### What is reported -/

/-- The definitions on lines whose names are used at most once in their code, with their line
numbers. -/
def unused (lines : List Text) : List (Text × ℕ) :=
  (definitions 1 lines).filter fun d => uses d.1 false (body lines) ≤ 1

theorem check_eq_map_unused (s : Script) : check s = (unused s.lines).map (finding s) := rfl

theorem mem_unused_iff {lines : List Text} {ident : Text} {number : ℕ} :
    (ident, number) ∈ unused lines ↔ ∃ k line, number = k + 1 ∧ lines[k]? = some line ∧
      Defines line ident ∧ IsUsedOnceAtMost ident (body lines) := by
  rw [unused, List.mem_filter, decide_eq_true_eq, uses_le_one_iff, definitions_eq,
    List.mem_filterMap]
  constructor
  · rintro ⟨⟨⟨line, n⟩, hline, hident⟩, honce⟩
    obtain ⟨found, hfound, heq⟩ := Option.map_eq_some_iff.mp hident
    obtain ⟨rfl, rfl⟩ := Prod.mk.inj heq
    obtain ⟨hle, hget⟩ := List.mk_mem_zipIdx_iff_le_and_getElem?_sub.mp hline
    exact ⟨n - 1, line, by omega, hget, definedName?_eq_some_iff.mp hfound, honce⟩
  · rintro ⟨k, line, rfl, hline, hdefines, honce⟩
    refine ⟨⟨(line, k + 1), ?_, ?_⟩, honce⟩
    · exact List.mk_mem_zipIdx_iff_le_and_getElem?_sub.mpr ⟨Nat.le_add_left 1 k, hline⟩
    · rw [definedName?_eq_some_iff.mpr hdefines, Option.map_some]

theorem mem_check_iff {s : Script} {d : Diagnostic} : d ∈ check s ↔
    ∃ k line ident, s.lines[k]? = some line ∧ Defines line ident ∧
      IsUsedOnceAtMost ident (body s.lines) ∧ d = finding s (ident, k + 1) := by
  rw [check_eq_map_unused, List.mem_map]
  constructor
  · rintro ⟨⟨ident, number⟩, hunused, rfl⟩
    obtain ⟨k, line, rfl, hline, hdefines, honce⟩ := mem_unused_iff.mp hunused
    exact ⟨k, line, ident, hline, hdefines, honce, rfl⟩
  · rintro ⟨k, line, ident, hline, hdefines, honce, rfl⟩
    exact ⟨(ident, k + 1), mem_unused_iff.mpr ⟨k, line, rfl, hline, hdefines, honce⟩, rfl⟩

/-- **A search for two uses decides**: a definition is reported exactly if such a search through the
code finds at most one use of its name. -/
theorem mem_check_iff_search {s : Script} {d : Diagnostic} : d ∈ check s ↔
    ∃ k line ident ps, s.lines[k]? = some line ∧ Defines line ident ∧
      Search ident (body s.lines) 2 0 ps ∧ ps.length ≤ 1 ∧ d = finding s (ident, k + 1) := by
  rw [mem_check_iff]
  constructor
  · rintro ⟨k, line, ident, hline, hdefines, honce, rfl⟩
    obtain ⟨ps, hps⟩ := exists_search ident (body s.lines) 2 0
    have hle := (hps.length_le_one_iff hdefines.isName).mpr (uses_le_one_iff.mpr honce)
    exact ⟨k, line, ident, ps, hline, hdefines, hps, hle, rfl⟩
  · rintro ⟨k, line, ident, ps, hline, hdefines, hps, hle, rfl⟩
    have honce := uses_le_one_iff.mp ((hps.length_le_one_iff hdefines.isName).mp hle)
    exact ⟨k, line, ident, hline, hdefines, honce, rfl⟩

/-- The message of a finding tells the name. -/
theorem name_eq_of_message_eq {s s' : Script} {d d' : Text × ℕ}
    (h : (finding s d).message = (finding s' d').message) : d.1 = d'.1 := by
  simp only [finding, List.append_assoc] at h
  have hencoded := List.append_cancel_right (List.append_cancel_left h)
  exact Function.LeftInverse.injective Utf8.lossy_encode hencoded

/-- **Exactly the definitions whose header is the only use of their name are reported**, each once
and in line order. Every definition is a use of its name at the position of its header; what is
reported are the definitions for which there is no other one, so no name is reported twice. -/
theorem check_reports_sole_uses (s : Script) :
    (∀ k line ident, s.lines[k]? = some line → Defines line ident →
      IsUse ident (body s.lines) (headerPosition s.lines k)) ∧
    (check s).Pairwise (fun d d' => d.line < d'.line) ∧
    (∀ d, d ∈ check s ↔ ∃ k line ident, s.lines[k]? = some line ∧ Defines line ident ∧
      (∀ p, IsUse ident (body s.lines) p → p = headerPosition s.lines k) ∧
      d = finding s (ident, k + 1)) ∧
    (check s).Pairwise fun d d' => d.message ≠ d'.message := by
  have hincreasing := (reports s).increasing
  refine ⟨fun k line ident => isUse_headerPosition, hincreasing, fun d => ?_, ?_⟩
  · rw [mem_check_iff]
    refine exists_congr fun k => exists_congr fun line => exists_congr fun ident => ?_
    refine and_congr_right fun hline => and_congr_right fun hdefines => and_congr_left fun _ => ?_
    have hheader := isUse_headerPosition hline hdefines
    exact ⟨fun h p hp => h p _ hp hheader, fun h p q hp hq => (h p hp).trans (h q hq).symm⟩
  · refine hincreasing.imp_of_mem fun {d d'} hd hd' hlt hmessage => ?_
    obtain ⟨k, line, ident, hline, hdefines, honce, rfl⟩ := mem_check_iff.mp hd
    obtain ⟨k', line', ident', hline', hdefines', -, rfl⟩ := mem_check_iff.mp hd'
    obtain rfl : ident = ident' := name_eq_of_message_eq hmessage
    -- One name in two headers is used in two places.
    have hk : k < k' := by simpa [finding] using hlt
    have hne := (headerPosition_lt hline hdefines hk).ne
    exact hne (honce _ _ (isUse_headerPosition hline hdefines)
      (isUse_headerPosition hline' hdefines'))

/-- A call that is split over lines counts and one in a comment does not. -/
theorem check_reports_sole_uses_split :
    let s : Script := ⟨bytes "a.ahk", "F() \x7b\nG (x) \x7b ; G()\nF\n()".toList⟩
    s.lines[0]? = some "F() \x7b".toList ∧ Defines "F() \x7b".toList ['F'] ∧
      IsUse ['F'] (body s.lines) (headerPosition s.lines 0) ∧ IsUse ['F'] (body s.lines) 15 ∧
      s.lines[1]? = some "G (x) \x7b ; G()".toList ∧ Defines "G (x) \x7b ; G()".toList ['G'] ∧
      finding s (['G'], 2) ∈ check s := by
  intro s
  have hF : Defines "F() \x7b".toList ['F'] := definedName?_eq_some_iff.mp (by decide)
  have hG : Defines "G (x) \x7b ; G()".toList ['G'] := definedName?_eq_some_iff.mp (by decide)
  obtain ⟨huse, -, hmem, -⟩ := check_reports_sole_uses s
  refine ⟨by decide, hF, huse 0 _ _ (by decide) hF, by decide, by decide, hG, ?_⟩
  refine (hmem _).mpr ⟨1, _, _, by decide, hG, fun p hp => ?_, rfl⟩
  have hall : ∀ p < (body s.lines).length, IsUse ['G'] (body s.lines) p →
      p = headerPosition s.lines 1 := by decide
  exact hall p hp.lt_length hp

/-! ### More lines around -/

/-- A name that is used at most once in the code of some lines and others is so in theirs alone. -/
theorem IsUsedOnceAtMost.of_append {ident : Text} {lines before after : List Text} (h : lines ≠ [])
    (honce : IsUsedOnceAtMost ident (body (before ++ lines ++ after))) :
    IsUsedOnceAtMost ident (body lines) := by
  obtain ⟨rest, hbody⟩ := exists_body_append h before after
  rw [List.append_assoc, hbody] at honce
  intro p q hp hq
  have hshift {p : ℕ} (hp : IsUse ident (body lines) p) :=
    (hp.append rest).behind (getLast?_codeBefore before)
  exact Nat.add_left_cancel (honce _ _ (hshift hp) (hshift hq))

/-- **More lines around some never make a function unused.** A definition on one of some lines that
is unused among these and other lines, before and after them, is unused among these lines alone; and
a script that has them all is reported for it only if a script that has these lines alone is, with
the same finding on the line that it has there. -/
theorem reported_alone_of_reported_within (pre xs post : List Text) :
    (∀ ident k, 1 ≤ k → k ≤ xs.length → (ident, pre.length + k) ∈ unused (pre ++ xs ++ post) →
      (ident, k) ∈ unused xs) ∧
    ∀ whole part : Script, whole.lines = pre ++ xs ++ post → part.lines = xs →
      ∀ d ∈ check whole, ∀ k : ℕ, 1 ≤ k → k ≤ xs.length → d.line = (pre.length + k : ℕ) →
        { d with file := part.path, line := k } ∈ check part := by
  have halone (ident : Text) (k : ℕ) (hpos : 1 ≤ k) (hle : k ≤ xs.length)
      (h : (ident, pre.length + k) ∈ unused (pre ++ xs ++ post)) : (ident, k) ∈ unused xs := by
    obtain ⟨i, line, hi, hline, hdefines, honce⟩ := mem_unused_iff.mp h
    obtain ⟨j, rfl⟩ := Nat.exists_eq_add_of_le' hpos
    obtain rfl : i = pre.length + j := by omega
    have hxs : xs ≠ [] := List.ne_nil_of_length_pos (by omega)
    refine mem_unused_iff.mpr ⟨j, line, rfl, ?_, hdefines, honce.of_append hxs⟩
    rwa [List.append_assoc, List.getElem?_append_right (Nat.le_add_right _ _),
      Nat.add_sub_cancel_left, List.getElem?_append_left (by omega)] at hline
  refine ⟨halone, fun whole part hwhole hpart d hd k hpos hle hnumber => ?_⟩
  rw [check_eq_map_unused, List.mem_map] at hd
  obtain ⟨⟨ident, n⟩, hunused, rfl⟩ := hd
  obtain rfl : n = pre.length + k := Int.ofNat_inj.mp hnumber
  rw [hwhole] at hunused
  rw [check_eq_map_unused, hpart, List.mem_map]
  exact ⟨(ident, k), halone ident k hpos hle hunused, rfl⟩

/-- A function that is reported between a comment and a call of another one is reported alone. -/
theorem reported_alone_of_reported_within_comment :
    let whole : Script := ⟨bytes "a.ahk", "; F()\nF() \x7b\n\x7d\nG()".toList⟩
    let part : Script := ⟨bytes "b.ahk", "F() \x7b\n\x7d".toList⟩
    let xs := ["F() \x7b".toList, "\x7d".toList]
    whole.lines = ["; F()".toList] ++ xs ++ ["G()".toList] ∧ part.lines = xs ∧
      finding whole (['F'], 2) ∈ check whole ∧ finding part (['F'], 1) ∈ check part := by
  intro whole part xs
  have hwhole : whole.lines = ["; F()".toList] ++ xs ++ ["G()".toList] := by decide
  have hpart : part.lines = xs := by decide
  have hd : finding whole (['F'], 2) ∈ check whole := by decide
  have h := (reported_alone_of_reported_within ["; F()".toList] xs ["G()".toList]).2 whole part
    hwhole hpart _ hd 1 (by decide) (by decide) rfl
  exact ⟨hwhole, hpart, hd, h⟩

end ScriptLint.UnusedFunctions
