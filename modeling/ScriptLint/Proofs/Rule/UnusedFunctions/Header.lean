import ScriptLint.Proofs.Text.Class
import ScriptLint.Rule.UnusedFunctions
import Mathlib.Tactic.Set

/-!
# Function headers

A header is indentation, a name, blanks, parentheses around anything but a closing one, blanks and
an opening brace. The parts of a header are a `Header`, and a line defines a name (`Defines`) if it
starts with a header of that name and the name is no keyword. `headerName?` and `definedName?`,
which read a line from left to right, find exactly these names (`headerName?_eq_some_iff`,
`definedName?_eq_some_iff`).

Everything up to the opening parenthesis is free of semicolons, so that the code of a line keeps at
least the opening of its header (`Header.opening_prefix_code`).
-/

namespace ScriptLint.UnusedFunctions

/-! ### The parts of a header -/

/-- A name: letters, digits and underscores, of which the first is no digit. -/
def IsName (ident : Text) : Prop :=
  ∃ c r, ident = c :: r ∧ isIdentStart c = true ∧ ∀ d ∈ r, isWordChar d = true

theorem IsName.isWordChar {ident : Text} (h : IsName ident) : ∀ c ∈ ident, isWordChar c = true := by
  obtain ⟨c, r, rfl, hstart, hrest⟩ := h
  exact List.forall_mem_cons.mpr ⟨isWordChar_of_isIdentStart hstart, hrest⟩

/-- The header of a function on one line, in its parts. -/
structure Header where
  /-- What stands before the name. -/
  indent : Text
  /-- The name of the function. -/
  name : Text
  /-- What stands between the name and the opening parenthesis. -/
  gap : Text
  /-- What stands between the parentheses. -/
  parameters : Text
  /-- What stands between the closing parenthesis and the brace. -/
  space : Text
  indent_blank : ∀ c ∈ indent, isAsciiBlank c = true
  isName : IsName name
  gap_blank : ∀ c ∈ gap, isAsciiBlank c = true
  parameters_open : ∀ c ∈ parameters, c ≠ ')'
  space_blank : ∀ c ∈ space, isAsciiBlank c = true

namespace Header

/-- A header up to its opening parenthesis. -/
def opening (h : Header) : Text := h.indent ++ (h.name ++ (h.gap ++ ['(']))

/-- A header from its closing parenthesis on. -/
def closing (h : Header) : Text := ')' :: (h.space ++ ['{'])

/-- A header as it stands on its line. -/
def text (h : Header) : Text := h.opening ++ (h.parameters ++ h.closing)

theorem mem_opening {h : Header} {c : Char} (hc : c ∈ h.opening) :
    isAsciiBlank c = true ∨ isWordChar c = true ∨ c = '(' := by
  simp only [opening, List.mem_append, List.mem_singleton] at hc
  rcases hc with hc | hc | hc | hc
  · exact .inl (h.indent_blank c hc)
  · exact .inr (.inl (h.isName.isWordChar c hc))
  · exact .inl (h.gap_blank c hc)
  · exact .inr (.inr hc)

/-- The opening of a header holds neither a semicolon nor a closing parenthesis. -/
theorem ne_of_mem_opening {h : Header} {c : Char} (hc : c ∈ h.opening) : c ≠ ';' ∧ c ≠ ')' := by
  have hkinds := mem_opening hc
  constructor
  all_goals rintro rfl; exact absurd hkinds (by decide)

theorem mem_closing {h : Header} {c : Char} (hc : c ∈ h.closing) :
    isAsciiBlank c = true ∨ c = ')' ∨ c = '{' := by
  simp only [closing, List.mem_cons, List.mem_append, List.not_mem_nil, or_false] at hc
  rcases hc with hc | hc | hc
  · exact .inr (.inl hc)
  · exact .inl (h.space_blank c hc)
  · exact .inr (.inr hc)

end Header

/-! ### Reading a header -/

theorem expect?_eq_some_iff {c : Char} {t r : Text} : expect? c t = some r ↔ t = c :: r := by
  cases t with
  | nil => simp [expect?]
  | cons d t =>
    by_cases h : d = c
    · simp [expect?, h]
    · simp [expect?, h]

/-- A name ends before blanks and a parenthesis. -/
theorem span_name {name gap : Text} (hname : ∀ c ∈ name, isWordChar c = true)
    (hgap : ∀ c ∈ gap, isAsciiBlank c = true) (r : Text) :
    (name ++ (gap ++ '(' :: r)).takeWhile isWordChar = name ∧
      (name ++ (gap ++ '(' :: r)).dropWhile isWordChar = gap ++ '(' :: r := by
  cases gap with
  | nil => exact span_append_cons hname (by decide) r
  | cons c gap =>
    have hc := isWordChar_eq_false_of_isAsciiBlank (hgap c List.mem_cons_self)
    exact span_append_cons hname hc (gap ++ '(' :: r)

/-- Indentation ends where the name starts. -/
theorem Header.span_indent (h : Header) (r : Text) :
    (h.indent ++ (h.name ++ r)).takeWhile isAsciiBlank = h.indent ∧
      (h.indent ++ (h.name ++ r)).dropWhile isAsciiBlank = h.name ++ r := by
  obtain ⟨c, cs, hname, hstart, -⟩ := h.isName
  have hblank := isAsciiBlank_eq_false_of_isWordChar (isWordChar_of_isIdentStart hstart)
  rw [hname, List.cons_append]
  exact span_append_cons h.indent_blank hblank (cs ++ r)

/-- A header is read as what it is in front of any text. -/
theorem Header.headerName?_append (h : Header) (r : Text) :
    headerName? (h.text ++ r) = some h.name := by
  set afterClosing := h.space ++ '{' :: r with hafterClosing
  set afterOpening := h.parameters ++ ')' :: afterClosing with hafterOpening
  have hsplit : h.text ++ r = h.indent ++ (h.name ++ (h.gap ++ '(' :: afterOpening)) := by
    simp [text, opening, closing, hafterOpening, hafterClosing]
  obtain ⟨c, hhead, hstart⟩ : ∃ c, (h.name ++ (h.gap ++ '(' :: afterOpening)).head? = some c ∧
      isIdentStart c = true := by
    obtain ⟨c, cs, hname, hstart, -⟩ := h.isName
    exact ⟨c, by rw [hname, List.cons_append, List.head?_cons], hstart⟩
  obtain ⟨hname, hgap⟩ := span_name h.isName.isWordChar h.gap_blank afterOpening
  -- Behind the name each blank or parameter is passed over up to the expected character.
  have hopening : expect? '(' ((h.gap ++ '(' :: afterOpening).dropWhile isAsciiBlank)
      = some afterOpening :=
    expect?_eq_some_iff.mpr (span_append_cons h.gap_blank (by decide) afterOpening).2
  have hclosing : expect? ')' (afterOpening.dropWhile (· != ')')) = some afterClosing :=
    expect?_eq_some_iff.mpr (span_append_cons
      (fun d hd => bne_iff_ne.mpr (h.parameters_open d hd)) (by decide) afterClosing).2
  have hbrace : expect? '{' (afterClosing.dropWhile isAsciiBlank) = some r :=
    expect?_eq_some_iff.mpr (span_append_cons h.space_blank (by decide) r).2
  rw [hsplit]
  simp only [headerName?, (h.span_indent _).2, hhead, hstart, hname, hgap, hopening, hclosing,
    hbrace, Option.bind_eq_bind, Option.bind_some, Bool.not_true, Bool.false_eq_true, if_false]
  rfl

/-- What is read as a header starts with one. -/
theorem exists_header {line ident : Text} (h : headerName? line = some ident) :
    ∃ header : Header, header.name = ident ∧ header.text <+: line := by
  rw [headerName?] at h
  obtain ⟨c, hc, h⟩ := Option.bind_eq_some_iff.mp h
  dsimp only at h
  split_ifs at h with hstart
  · exact absurd h (by simp)
  · obtain ⟨afterOpening, hopening, h⟩ := Option.bind_eq_some_iff.mp h
    obtain ⟨afterClosing, hclosing, h⟩ := Option.bind_eq_some_iff.mp h
    obtain ⟨rest, hbrace, h⟩ := Option.bind_eq_some_iff.mp h
    obtain rfl := Option.some.inj h
    rw [expect?_eq_some_iff] at hopening hclosing hbrace
    -- What is passed over is in the class, and what stops the reading is the expected character.
    have hsplit (p : Char → Bool) (t : Text) : t.takeWhile p ++ t.dropWhile p = t :=
      List.takeWhile_append_dropWhile
    have hpassed (p : Char → Bool) (t : Text) : ∀ d ∈ t.takeWhile p, p d = true :=
      fun d hd => List.mem_takeWhile_imp hd
    set t := line.dropWhile isAsciiBlank with ht
    have hname : IsName (t.takeWhile isWordChar) := by
      obtain ⟨r, hr⟩ := List.head?_eq_some_iff.mp hc
      have hident : isIdentStart c = true := by simpa using hstart
      refine ⟨c, r.takeWhile isWordChar, ?_, hident, hpassed isWordChar r⟩
      rw [hr, List.takeWhile_cons_of_pos (isWordChar_of_isIdentStart hident)]
    have hopen : ∀ d ∈ afterOpening.takeWhile (· != ')'), d ≠ ')' :=
      fun d hd => bne_iff_ne.mp (hpassed (· != ')') afterOpening d hd)
    refine ⟨⟨line.takeWhile isAsciiBlank, t.takeWhile isWordChar,
      (t.dropWhile isWordChar).takeWhile isAsciiBlank, afterOpening.takeWhile (· != ')'),
      afterClosing.takeWhile isAsciiBlank, hpassed _ _, hname, hpassed _ _, hopen, hpassed _ _⟩,
      rfl, rest, ?_⟩
    calc
      _ = line.takeWhile isAsciiBlank ++ (t.takeWhile isWordChar ++
            ((t.dropWhile isWordChar).takeWhile isAsciiBlank ++
              '(' :: (afterOpening.takeWhile (· != ')') ++
                ')' :: (afterClosing.takeWhile isAsciiBlank ++ '{' :: rest)))) := by
          simp [Header.text, Header.opening, Header.closing]
      _ = line := by
          rw [← hbrace, hsplit, ← hclosing, hsplit, ← hopening, hsplit, hsplit, ht, hsplit]

/-- **The name of a header is found on exactly the lines that start with one.** -/
theorem headerName?_eq_some_iff {line ident : Text} :
    headerName? line = some ident ↔ ∃ h : Header, h.name = ident ∧ h.text <+: line := by
  constructor
  · exact exists_header
  · rintro ⟨h, rfl, r, rfl⟩
    exact h.headerName?_append r

/-- Whether a line defines a name: it starts with a header of the name, which is no keyword. -/
def Defines (line ident : Text) : Prop :=
  (∃ h : Header, h.name = ident ∧ h.text <+: line) ∧ ident.map Char.toLower ∉ keywords

theorem definedName?_eq_some_iff {line ident : Text} :
    definedName? line = some ident ↔ Defines line ident := by
  unfold Defines
  rw [← headerName?_eq_some_iff, definedName?]
  constructor
  · intro h
    obtain ⟨found, hfound, h⟩ := Option.bind_eq_some_iff.mp h
    split_ifs at h with hkeyword
    obtain rfl := Option.some.inj h
    exact ⟨hfound, by simpa using hkeyword⟩
  · rintro ⟨hfound, hkeyword⟩
    rw [hfound]
    simpa using hkeyword

/-- A defined name is a name. -/
theorem Defines.isName {line ident : Text} (h : Defines line ident) : IsName ident := by
  obtain ⟨⟨header, rfl, -⟩, -⟩ := h
  exact header.isName

theorem isName_of_definedName? {line ident : Text} (h : definedName? line = some ident) :
    IsName ident := (definedName?_eq_some_iff.mp h).isName

/-! ### Definitions -/

/-- Definitions are found line by line. -/
theorem definitions_eq (number : ℕ) (lines : List Text) :
    definitions number lines = (lines.zipIdx number).filterMap fun l =>
      (definedName? l.1).map (·, l.2) := by
  induction lines generalizing number with
  | nil => rfl
  | cons line lines ih =>
    rw [definitions, List.zipIdx_cons, List.filterMap_cons, ih]
    cases definedName? line with
    | none => rfl
    | some ident => rfl

theorem exists_definedName?_of_mem {number : ℕ} {lines : List Text} {d : Text × ℕ}
    (h : d ∈ definitions number lines) : ∃ line, definedName? line = some d.1 := by
  rw [definitions_eq] at h
  obtain ⟨⟨line, k⟩, -, h⟩ := List.mem_filterMap.mp h
  obtain ⟨ident, hident, rfl⟩ := Option.map_eq_some_iff.mp h
  exact ⟨line, hident⟩

/-! ### Headers and comments -/

/-- A start without semicolons is part of the code. -/
theorem prefix_code {a line : Text} (h : a <+: line) (ha : ∀ c ∈ a, c ≠ ';') : a <+: code line := by
  obtain ⟨r, rfl⟩ := h
  have hpos : ∀ c ∈ a, (c != ';') = true := fun c hc => bne_iff_ne.mpr (ha c hc)
  rw [code, List.takeWhile_append_of_pos hpos]
  exact List.prefix_append a _

/-- **The code of a line keeps the opening of its header.** -/
theorem Header.opening_prefix_code {h : Header} {line : Text} (hline : h.text <+: line) :
    h.opening <+: code line :=
  prefix_code ((List.prefix_append _ _).trans hline) fun _ hc => (ne_of_mem_opening hc).1

end ScriptLint.UnusedFunctions
