import ScriptLint.Proofs.Rule.UnusedFunctions.Use

/-!
# Comments and functions

A comment starts at the first semicolon of its line. Uses of names are looked for in the code before
it, but headers on the whole line, so that a header may be completed by a comment: it opens a
parenthesis in the code that is closed in the comment only (`IsCompletedByComment`). The code of
such a line holds no header (`IsCompletedByComment.not_defines_code`). Comments show nowhere else:
two scripts with the same code are reported alike unless a header is completed on one of them only,
and its name is used once at most (`check_eq_iff_of_code_eq`).
-/

namespace ScriptLint.UnusedFunctions

variable {line ident : Text}

/-! ### Headers that need a comment -/

/-- Whether a line defines a name by a header with a semicolon between its parentheses. -/
def IsCompletedByComment (line ident : Text) : Prop :=
  (∃ h : Header, h.name = ident ∧ h.text <+: line ∧ ';' ∈ h.parameters) ∧
    ident.map Char.toLower ∉ keywords

theorem isPrefix_code (line : Text) : code line <+: line := List.takeWhile_prefix _

theorem semicolon_not_mem_code (line : Text) : ';' ∉ code line :=
  fun h => absurd (List.mem_takeWhile_imp h) (by decide)

/-- Without a semicolon in its parentheses a header holds none. -/
theorem Header.semicolon_not_mem_text {h : Header} (hparameters : ';' ∉ h.parameters) :
    ∀ c ∈ h.text, c ≠ ';' := by
  rintro c hc rfl
  rw [text, List.mem_append, List.mem_append] at hc
  rcases hc with hc | hc | hc
  · exact (ne_of_mem_opening hc).1 rfl
  · exact hparameters hc
  · exact absurd (mem_closing hc) (by decide)

/-- **A line defines a name in its code or by the help of its comment.** -/
theorem defines_iff :
    Defines line ident ↔ Defines (code line) ident ∨ IsCompletedByComment line ident := by
  constructor
  · rintro ⟨⟨h, hname, hline⟩, hkeyword⟩
    by_cases hsemicolon : ';' ∈ h.parameters
    · exact .inr ⟨⟨h, hname, hline, hsemicolon⟩, hkeyword⟩
    · have hcode := prefix_code hline (Header.semicolon_not_mem_text hsemicolon)
      exact .inl ⟨⟨h, hname, hcode⟩, hkeyword⟩
  · rintro (⟨⟨h, hname, hcode⟩, hkeyword⟩ | ⟨⟨h, hname, hline, -⟩, hkeyword⟩)
    · exact ⟨⟨h, hname, hcode.trans (isPrefix_code line)⟩, hkeyword⟩
    · exact ⟨⟨h, hname, hline⟩, hkeyword⟩

/-- **A line whose header is completed by its comment defines nothing in its code**, which ends
before the parenthesis is closed. -/
theorem IsCompletedByComment.not_defines_code (hcompleted : IsCompletedByComment line ident)
    (ident' : Text) : ¬ Defines (code line) ident' := by
  obtain ⟨⟨h, -, hline, hsemicolon⟩, -⟩ := hcompleted
  rintro ⟨⟨h', -, hcode⟩, -⟩
  have hopen : h.opening ++ h.parameters <+: line := by
    have hpart : h.opening ++ h.parameters <+: h.text := by
      rw [Header.text, ← List.append_assoc]
      exact List.prefix_append _ _
    exact hpart.trans hline
  -- The code stops at the semicolon, so it is part of the opening and the parameters.
  have hshort : code line <+: h.opening ++ h.parameters := by
    rcases List.prefix_or_prefix_of_prefix hopen (isPrefix_code line) with hlong | hshort
    · have hmem := hlong.subset (List.mem_append_right h.opening hsemicolon)
      exact absurd hmem (semicolon_not_mem_code line)
    · exact hshort
  have hclosed : ')' ∈ h'.text := by simp [Header.text, Header.closing]
  rcases List.mem_append.mp (hshort.subset (hcode.subset hclosed)) with hmem | hmem
  · exact (Header.ne_of_mem_opening hmem).2 rfl
  · exact h.parameters_open _ hmem rfl

/-- A line whose header is completed by its comment is read as a header, and its code is not. -/
theorem isCompletedByComment_iff : IsCompletedByComment line ident ↔
    definedName? line = some ident ∧ definedName? (code line) = none := by
  rw [definedName?_eq_some_iff, Option.eq_none_iff_forall_ne_some]
  simp only [ne_eq, definedName?_eq_some_iff]
  constructor
  · intro h
    exact ⟨defines_iff.mpr (.inr h), h.not_defines_code⟩
  · rintro ⟨hline, hcode⟩
    exact (defines_iff.mp hline).resolve_left (hcode ident)

/-! ### Scripts with the same code -/

theorem body_eq_intercalate (lines : List Text) :
    body lines = ['\n'].intercalate (lines.map code) := by
  induction lines with
  | nil => rfl
  | cons line lines ih =>
    cases lines with
    | nil => simp [body]
    | cons l ls =>
      rw [body_cons line (List.cons_ne_nil l ls), ih, List.map_cons, List.map_cons, List.map_cons,
        List.intercalate_cons_cons, List.append_assoc, List.singleton_append]

theorem body_eq_of_map_code_eq {lines lines' : List Text}
    (h : lines.map code = lines'.map code) : body lines = body lines' := by
  rw [body_eq_intercalate, body_eq_intercalate, h]

section

variable {s s' : Script}

/-- Lines with the same code, at the same place. -/
theorem exists_getElem?_of_map_code_eq {lines lines' : List Text} {k : ℕ}
    (h : lines.map code = lines'.map code) (hline : lines[k]? = some line) :
    ∃ line', lines'[k]? = some line' ∧ code line = code line' := by
  have hk : (lines'.map code)[k]? = some (code line) := by
    rw [← h, List.getElem?_map, hline, Option.map_some]
  rw [List.getElem?_map, Option.map_eq_some_iff] at hk
  obtain ⟨line', hline', hcode⟩ := hk
  exact ⟨line', hline', hcode.symm⟩

/-- What is reported on a script is reported on another one with the same code where comments
complete the same headers. -/
theorem mem_check_of_code_eq (hpath : s.path = s'.path)
    (hcode : s.lines.map code = s'.lines.map code)
    (hcompleted : ∀ (k : ℕ) line line', s.lines[k]? = some line → s'.lines[k]? = some line' →
      ∀ ident, IsUsedOnceAtMost ident (body s.lines) →
        IsCompletedByComment line ident → IsCompletedByComment line' ident)
    {d : Diagnostic} (hd : d ∈ check s) : d ∈ check s' := by
  obtain ⟨k, line, ident, hline, hdefines, honce, rfl⟩ := mem_check_iff.mp hd
  obtain ⟨line', hline', hsame⟩ := exists_getElem?_of_map_code_eq hcode hline
  have hdefines' : Defines line' ident := by
    rw [defines_iff] at hdefines ⊢
    rw [← hsame]
    exact hdefines.imp_right (hcompleted k line line' hline hline' ident honce)
  rw [mem_check_iff, ← body_eq_of_map_code_eq hcode]
  refine ⟨k, line', ident, hline', hdefines', honce, ?_⟩
  rw [finding, finding, hpath]

/-- What is reported on both of two scripts with the same code has its header in the code of both,
or completed by a comment on both. -/
theorem isCompletedByComment_of_check_eq (hcode : s.lines.map code = s'.lines.map code)
    (hcheck : check s = check s') {k : ℕ} {line line' : Text} (hline : s.lines[k]? = some line)
    (hline' : s'.lines[k]? = some line') (honce : IsUsedOnceAtMost ident (body s.lines))
    (hcompleted : IsCompletedByComment line ident) : IsCompletedByComment line' ident := by
  have hmem : finding s (ident, k + 1) ∈ check s' := by
    rw [← hcheck]
    exact mem_check_iff.mpr
      ⟨k, line, ident, hline, defines_iff.mpr (.inr hcompleted), honce, rfl⟩
  obtain ⟨k', found, ident', hfound, hdefines, -, heq⟩ := mem_check_iff.mp hmem
  obtain rfl : ident = ident' := name_eq_of_message_eq (congrArg Diagnostic.message heq)
  obtain rfl : k = k' := by
    have hnumber : ((k + 1 : ℕ) : ℤ) = (k' + 1 : ℕ) := congrArg Diagnostic.line heq
    exact Nat.succ.inj (Int.ofNat_inj.mp hnumber)
  obtain rfl : line' = found := Option.some.inj (hline'.symm.trans hfound)
  obtain ⟨_, hget, hsame⟩ := exists_getElem?_of_map_code_eq hcode hline
  obtain rfl := Option.some.inj (hline'.symm.trans hget)
  refine (defines_iff.mp hdefines).resolve_left ?_
  rw [← hsame]
  exact hcompleted.not_defines_code ident

/-- **Comments show only where they complete a header.** Two scripts of one path whose lines agree
up to their first semicolons are reported alike if and only if, wherever the name is used once at
most, the comment of a line of the first script completes a header exactly if the comment of the
same line of the second script completes a header of the same name. -/
theorem check_eq_iff_of_code_eq (hpath : s.path = s'.path)
    (hcode : s.lines.map code = s'.lines.map code) :
    check s = check s' ↔
      ∀ (k : ℕ) line line', s.lines[k]? = some line → s'.lines[k]? = some line' →
        ∀ ident, IsUsedOnceAtMost ident (body s.lines) →
          (IsCompletedByComment line ident ↔ IsCompletedByComment line' ident) := by
  have hbody := body_eq_of_map_code_eq hcode
  constructor
  · intro hcheck k line line' hline hline' ident honce
    constructor
    · exact isCompletedByComment_of_check_eq hcode hcheck hline hline' honce
    · rw [hbody] at honce
      exact isCompletedByComment_of_check_eq hcode.symm hcheck.symm hline' hline honce
  · intro h
    -- Both lists are in the order of their lines, so that they agree if they hold the same.
    have hirrefl : Std.Irrefl fun d d' : Diagnostic => d.line < d'.line :=
      ⟨fun d => Int.lt_irrefl d.line⟩
    have hantisymm : Std.Antisymm fun d d' : Diagnostic => d.line < d'.line :=
      ⟨fun d d' hlt hgt => absurd (Int.lt_trans hlt hgt) (Int.lt_irrefl d.line)⟩
    refine List.Pairwise.eq_of_mem_iff (reports s).increasing (reports s').increasing
      fun d => ⟨?_, ?_⟩
    · exact mem_check_of_code_eq hpath hcode fun k line line' hline hline' ident honce =>
        (h k line line' hline hline' ident honce).mp
    · refine mem_check_of_code_eq hpath.symm hcode.symm
        fun k line line' hline hline' ident honce => ?_
      rw [← hbody] at honce
      exact (h k line' line hline' hline ident honce).mpr

end

/-- A header that is completed by two different comments, and a comment that names a function. -/
theorem check_eq_iff_of_code_eq_completed :
    let s : Script := ⟨bytes "a.ahk", "F( ;) \x7b\nG() \x7b ; F()".toList⟩
    let s' : Script := ⟨bytes "a.ahk", "F( ;a) \x7b b\nG() \x7b ;".toList⟩
    s.path = s'.path ∧ s.lines.map code = s'.lines.map code ∧ check s = check s' ∧
      IsCompletedByComment "F( ;) \x7b".toList ['F'] := by
  intro s s'
  have hpath : s.path = s'.path := rfl
  have hcode : s.lines.map code = s'.lines.map code := by decide
  have hlines : s.lines = ["F( ;) \x7b".toList, "G() \x7b ; F()".toList] ∧
      s'.lines = ["F( ;a) \x7b b".toList, "G() \x7b ;".toList] := by decide
  have hF : definedName? "F( ;) \x7b".toList = some ['F'] ∧
      definedName? (code "F( ;) \x7b".toList) = none := by decide
  refine ⟨hpath, hcode, ?_, isCompletedByComment_iff.mpr hF⟩
  have hiff := check_eq_iff_of_code_eq hpath hcode
  rw [hlines.1, hlines.2] at hiff
  refine hiff.mpr fun k line line' hline hline' ident _ => ?_
  have hsame : definedName? line = definedName? line' ∧
      definedName? (code line) = definedName? (code line') := by
    match k, hline, hline' with
    | 0, hline, hline' =>
      obtain ⟨rfl, rfl⟩ := And.intro (Option.some.inj hline) (Option.some.inj hline')
      decide
    | 1, hline, hline' =>
      obtain ⟨rfl, rfl⟩ := And.intro (Option.some.inj hline) (Option.some.inj hline')
      decide
  rw [isCompletedByComment_iff, isCompletedByComment_iff, hsame.1, hsame.2]

/-- A comment behind an opening parenthesis makes a header of it: the same code is reported with the
comment and not without it. -/
theorem comment_completes_header :
    let s : Script := ⟨bytes "a.ahk", "F( ".toList⟩
    let s' : Script := ⟨bytes "a.ahk", "F( ;) \x7b".toList⟩
    s.path = s'.path ∧ s.lines.map code = s'.lines.map code ∧
      check s = [] ∧ check s' = [finding s' (['F'], 1)] := by
  decide

end ScriptLint.UnusedFunctions
