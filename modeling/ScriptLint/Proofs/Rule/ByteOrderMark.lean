import ScriptLint.Proofs.Rule.Standard
import ScriptLint.Proofs.Rule.UnusedFunctions.Header

/-!
# Scripts behind a byte order mark

A UTF-8 script keeps the byte order mark that it starts with. The rule about the version passes over
it, and the rules about the ends of lines do not reach it, but it is no white space, and so a line
behind it is neither a directive nor the header of a function. What the three rules that look for
these make of a marked text is what they make of it without its first line
(`IsDecidedByFirst.check_mark`, `UnusedFunctions.check_mark`); it differs from what they make of the
text itself exactly if their verdict rests on the first line (`HiddenByMark`).
-/

namespace ScriptLint

open RequireVersion (byteOrderMark)

/-! ### The mark as a character -/

theorem not_isBreak_byteOrderMark : ¬ IsBreak byteOrderMark := by decide

theorem isSpace_byteOrderMark : isSpace byteOrderMark = false := by decide

/-- Trimming leaves alone what a text starts with, if it is no white space. -/
theorem exists_trim_cons {c : Char} (hc : isSpace c = false) (t : Text) :
    ∃ r, trim (c :: t) = c :: r := by
  have hfront : (c :: t).dropWhile isSpace = c :: t :=
    List.dropWhile_cons_of_neg (by simp [hc])
  rw [trim, hfront, dropEndWhile, List.reverse_cons, List.dropWhile_append]
  split_ifs
  · exact ⟨[], by simp [hc]⟩
  · exact ⟨((t.reverse.dropWhile isSpace)).reverse, by simp⟩

/-- A pattern in any letter case starts with its first character or one that agrees with it. -/
theorem Fold.strip?_cons_of_not_same {p c : Char} (h : Fold.same p c = false) (ps cs : Text) :
    Fold.strip? (p :: ps) (c :: cs) = none := by
  simp [Fold.strip?, h]

/-! ### Directives -/

/-- Whether a check is decided by the first line on which something is found, and by what it is. -/
def IsDecidedByFirst {α : Type} (find : Text → Option α) (check : Check) : Prop :=
  ∃ verdict : Bytes → Option α → List Diagnostic,
    ∀ s : Script, check s = verdict s.path (s.lines.findSome? find)

section Directive

variable {α : Type} {find : Text → Option α} {check : Check}

/-- Lines behind an empty first one. -/
theorem findSome?_splitLines_afterFirst (hnil : find [] = none) (t : Text) :
    (splitLines (afterFirst t)).findSome? find
      = (splitLines (afterFirst t)).tail.findSome? find := by
  have hhead := headD_splitLines_afterFirst t
  cases hlines : splitLines (afterFirst t) with
  | nil => rfl
  | cons l ls =>
    rw [hlines, List.headD_cons] at hhead
    rw [hhead, List.findSome?_cons, hnil, List.tail_cons]

/-- **A mark takes the first line away**: nothing is found on a line that starts with it. -/
theorem IsDecidedByFirst.check_mark (h : IsDecidedByFirst find check) (hnil : find [] = none)
    (hmark : ∀ l, find (byteOrderMark :: l) = none) (path : Bytes) (t : Text) :
    check ⟨path, byteOrderMark :: t⟩ = check ⟨path, afterFirst t⟩ := by
  obtain ⟨verdict, hverdict⟩ := h
  have hlines : splitLines (byteOrderMark :: t)
      = (byteOrderMark :: firstLine t) :: (splitLines (afterFirst t)).tail := by
    rw [splitLines_eq_cons (List.cons_ne_nil _ _), firstLine_cons not_isBreak_byteOrderMark,
      afterFirst_cons not_isBreak_byteOrderMark]
  rw [hverdict, hverdict, Script.lines, Script.lines, hlines, List.findSome?_cons, hmark,
    findSome?_splitLines_afterFirst hnil]

/-- Without anything on the first line the others decide. -/
theorem IsDecidedByFirst.check_of_eq_none (h : IsDecidedByFirst find check) (hnil : find [] = none)
    (path : Bytes) {t : Text} (hfirst : find (firstLine t) = none) :
    check ⟨path, t⟩ = check ⟨path, afterFirst t⟩ := by
  obtain ⟨verdict, hverdict⟩ := h
  by_cases ht : t = []
  · rw [ht]
    rfl
  · rw [hverdict, hverdict, Script.lines, Script.lines, splitLines_eq_cons ht, List.findSome?_cons,
      hfirst, findSome?_splitLines_afterFirst hnil]

/-- What is found on the first line decides alone. -/
theorem IsDecidedByFirst.check_of_eq_some (h : IsDecidedByFirst find check) (hnil : find [] = none)
    (path : Bytes) {t : Text} {a : α} (hfirst : find (firstLine t) = some a) :
    check ⟨path, t⟩ = check ⟨path, firstLine t⟩ := by
  obtain ⟨verdict, hverdict⟩ := h
  have hne : firstLine t ≠ [] := by
    intro hempty
    rw [hempty, hnil] at hfirst
    exact absurd hfirst (by simp)
  have ht : t ≠ [] := by
    rintro rfl
    exact hne rfl
  rw [hverdict, hverdict, Script.lines, Script.lines, splitLines_firstLine hne,
    splitLines_eq_cons ht, List.findSome?_cons, List.findSome?_cons, hfirst]

/-- **A mark changes the verdict exactly if the first line decides, and otherwise than the lines
behind it.** -/
theorem IsDecidedByFirst.check_mark_eq_iff (h : IsDecidedByFirst find check)
    (hnil : find [] = none) (hmark : ∀ l, find (byteOrderMark :: l) = none) (path : Bytes)
    (t : Text) :
    check ⟨path, byteOrderMark :: t⟩ = check ⟨path, t⟩ ↔
      ¬ ((find (firstLine t)).isSome = true ∧
        check ⟨path, firstLine t⟩ ≠ check ⟨path, afterFirst t⟩) := by
  rw [h.check_mark hnil hmark]
  cases hfirst : find (firstLine t) with
  | none => simp [h.check_of_eq_none hnil path hfirst]
  | some a =>
    rw [h.check_of_eq_some hnil path hfirst, Option.isSome_some, eq_comm]
    simp

end Directive

/-- What the rule about warnings looks for on a line. -/
def RequireWarn.find (line : Text) : Option Unit :=
  if isDirective (trim line) then some () else none

theorem RequireWarn.isDecidedByFirst : IsDecidedByFirst find check := by
  refine ⟨fun path found => if found.isSome then []
    else [⟨path, 0, name, bytes "missing #Warn directive"⟩], fun s => ?_⟩
  have hfound : (s.lines.findSome? find).isSome = s.lines.any fun l => isDirective (trim l) := by
    rw [List.isSome_findSome?]
    congr 1
    funext l
    unfold find
    split_ifs with hl
    · simp [hl]
    · simp [hl]
  dsimp only
  rw [check, hfound]
  rfl

theorem RequireWarn.find_byteOrderMark (l : Text) : find (byteOrderMark :: l) = none := by
  obtain ⟨r, hr⟩ := exists_trim_cons isSpace_byteOrderMark l
  have hstrip : Fold.strip? "#Warn".toList (byteOrderMark :: r) = none :=
    Fold.strip?_cons_of_not_same (by decide) _ _
  rw [find, hr, isDirective, hstrip]
  rfl

/-- What the rule about the single instance looks for on a line. -/
def RequireSingleInstance.find (line : Text) : Option Text := afterDirective? (trim line)

theorem RequireSingleInstance.isDecidedByFirst (mode : Text) :
    IsDecidedByFirst find (check mode) := by
  refine ⟨fun path found => found.elim
    [⟨path, 0, instanceRuleName, bytes "missing #SingleInstance directive"⟩]
    fun rest => if names mode rest then []
      else [⟨path, 0, instanceRuleName,
        bytes "#SingleInstance should use '" ++ Utf8.encode mode ++ bytes "'"⟩], fun s => ?_⟩
  show check mode s = Option.elim (s.lines.findSome? fun line => afterDirective? (trim line)) _ _
  unfold check
  cases s.lines.findSome? fun line => afterDirective? (trim line) with
  | none => rfl
  | some rest => rfl

theorem RequireSingleInstance.find_byteOrderMark (l : Text) :
    find (byteOrderMark :: l) = none := by
  obtain ⟨r, hr⟩ := exists_trim_cons isSpace_byteOrderMark l
  have hstrip : Fold.strip? "#SingleInstance".toList (byteOrderMark :: r) = none :=
    Fold.strip?_cons_of_not_same (by decide) _ _
  rw [find, hr, afterDirective?, hstrip]
  rfl

/-! ### Function headers -/

namespace UnusedFunctions

theorem headerName?_byteOrderMark (l : Text) : headerName? (byteOrderMark :: l) = none := by
  have hfront : (byteOrderMark :: l).dropWhile isAsciiBlank = byteOrderMark :: l :=
    List.dropWhile_cons_of_neg (by decide)
  rw [headerName?, hfront]
  rfl

theorem definedName?_byteOrderMark (l : Text) : definedName? (byteOrderMark :: l) = none := by
  rw [definedName?, headerName?_byteOrderMark]
  rfl

/-- The mark is no use of a name and does not join the word behind it. -/
theorem uses_byteOrderMark {c : Char} (hc : isIdentStart c = true) (r t : Text) :
    uses (c :: r) false (byteOrderMark :: t) = uses (c :: r) false t := by
  have hne : c ≠ byteOrderMark := by
    rintro rfl
    exact absurd hc (by decide)
  have hword : isWordChar byteOrderMark = false := by decide
  simp [uses, calledAt, strip?, hne, hword]

theorem body_byteOrderMark (l : Text) (ls : List Text) :
    body ((byteOrderMark :: l) :: ls) = byteOrderMark :: body (l :: ls) := by
  have hcode : code (byteOrderMark :: l) = byteOrderMark :: code l :=
    List.takeWhile_cons_of_pos (by decide)
  cases ls with
  | nil => exact hcode
  | cons l' ls =>
    show code (byteOrderMark :: l) ++ '\n' :: body (l' :: ls)
      = byteOrderMark :: (code l ++ '\n' :: body (l' :: ls))
    rw [hcode, List.cons_append]

/-- **A mark takes the definition on the first line away**, and leaves all uses. -/
theorem check_mark (path : Bytes) {t : Text} (ht : t ≠ []) :
    check ⟨path, byteOrderMark :: t⟩
      = ((definitions 2 (splitLines t).tail).filter fun d =>
          uses d.1 false (body (splitLines t)) ≤ 1).map (finding ⟨path, t⟩) := by
  have hlines : splitLines (byteOrderMark :: t)
      = (byteOrderMark :: firstLine t) :: (splitLines t).tail := by
    rw [splitLines_eq_cons (List.cons_ne_nil _ _), firstLine_cons not_isBreak_byteOrderMark,
      afterFirst_cons not_isBreak_byteOrderMark, splitLines_eq_cons ht, List.tail_cons]
  have hbody : body (splitLines (byteOrderMark :: t)) = byteOrderMark :: body (splitLines t) := by
    rw [hlines, body_byteOrderMark, splitLines_eq_cons ht, List.tail_cons]
  have hdefinitions : definitions 1 (splitLines (byteOrderMark :: t))
      = definitions 2 (splitLines t).tail := by
    rw [hlines, definitions, definedName?_byteOrderMark]
  -- A mark is no character of a word, so that it hides no use behind it.
  have huses : (definitions 2 (splitLines t).tail).filter (fun d =>
        uses d.1 false (byteOrderMark :: body (splitLines t)) ≤ 1)
      = (definitions 2 (splitLines t).tail).filter fun d =>
        uses d.1 false (body (splitLines t)) ≤ 1 := by
    refine List.filter_congr fun d hd => ?_
    obtain ⟨line, hline⟩ := exists_definedName?_of_mem hd
    obtain ⟨c, r, hident, hstart, -⟩ := isName_of_definedName? hline
    rw [hident, uses_byteOrderMark hstart]
  simp only [check, Script.lines, hdefinitions, hbody, huses]
  rfl

/-- **A mark changes the verdict exactly if the first line defines a function that is not used.** -/
theorem check_mark_eq_iff (path : Bytes) {t : Text} (ht : t ≠ []) :
    check ⟨path, byteOrderMark :: t⟩ = check ⟨path, t⟩ ↔
      ¬ ∃ ident, definedName? (firstLine t) = some ident ∧
        uses ident false (body (splitLines t)) ≤ 1 := by
  have hlines : splitLines t = firstLine t :: (splitLines t).tail := by
    rw [splitLines_eq_cons ht, List.tail_cons]
  have hcheck : check ⟨path, t⟩
      = ((definitions 1 (firstLine t :: (splitLines t).tail)).filter fun d =>
          uses d.1 false (body (splitLines t)) ≤ 1).map (finding ⟨path, t⟩) := by
    rw [← hlines]
    rfl
  rw [check_mark path ht, hcheck, definitions]
  cases hfirst : definedName? (firstLine t) with
  | none => simp
  | some ident =>
    by_cases hused : uses ident false (body (splitLines t)) ≤ 1
    · simp [hused]
    · simp [hused]

end UnusedFunctions

/-! ### The other rules -/

/-- The rule about the version passes over the mark. -/
theorem RequireVersion.check_mark (version : Text) (path : Bytes) (t : Text) :
    RequireVersion.check version ⟨path, byteOrderMark :: t⟩
      = RequireVersion.check version ⟨path, t⟩ := by
  have hfirst : RequireVersion.firstLine ⟨path, byteOrderMark :: t⟩
      = RequireVersion.firstLine ⟨path, t⟩ := by
    simp only [RequireVersion.firstLine, Script.lines, splitLines_cons not_isBreak_byteOrderMark,
      List.headD_cons]
    exact List.dropWhile_cons_of_pos (by decide)
  simp only [RequireVersion.check, hfirst]
  rfl

theorem TrailingNewline.check_mark (path : Bytes) {t : Text} (ht : t ≠ []) :
    TrailingNewline.check ⟨path, byteOrderMark :: t⟩ = TrailingNewline.check ⟨path, t⟩ := by
  have hends : endsLine (byteOrderMark :: t) = endsLine t := endsLine_append [byteOrderMark] ht
  have hempty : t.isEmpty = false := by simpa using ht
  simp only [TrailingNewline.check, hends, hempty, List.isEmpty_cons]
  rfl

/-- The mark is no white space, also where it is all of the first line. -/
theorem TrailingWhitespace.check_mark (path : Bytes) {t : Text} (ht : t ≠ []) :
    TrailingWhitespace.check ⟨path, byteOrderMark :: t⟩
      = TrailingWhitespace.check ⟨path, t⟩ := by
  have hbad (l : Text) : isBad (byteOrderMark :: l) = isBad l := by
    cases l with
    | nil => decide
    | cons c r => simp [isBad, List.getLast?_cons_cons]
  have hsame (number : ℕ) (lines : List Text) :
      findings ⟨path, byteOrderMark :: t⟩ number lines = findings ⟨path, t⟩ number lines := by
    induction lines generalizing number with
    | nil => rfl
    | cons line lines ih =>
      rw [findings, findings, ih]
      rfl
  simp only [TrailingWhitespace.check, Script.lines, splitLines_cons not_isBreak_byteOrderMark,
    splitLines_eq_cons ht, List.headD_cons, List.tail_cons, hsame]
  rw [findings, findings, hbad]

/-! ### The verdict on a marked text -/

/-- Whether a mark in front of a text hides from the check of a rule what its verdict rests on: a
directive on the first line that decides otherwise than the lines behind it, or the header of a
function that is not used. -/
inductive HiddenByMark (name : Bytes) (check : Check) (path : Bytes) (t : Text) : Prop where
  | warning (hname : name = RequireWarn.name)
    (directive : RequireWarn.isDirective (trim (firstLine t)) = true)
    (differs : check ⟨path, firstLine t⟩ ≠ check ⟨path, afterFirst t⟩) :
    HiddenByMark name check path t
  | singleInstance (hname : name = instanceRuleName)
    (directive : (RequireSingleInstance.afterDirective? (trim (firstLine t))).isSome = true)
    (differs : check ⟨path, firstLine t⟩ ≠ check ⟨path, afterFirst t⟩) :
    HiddenByMark name check path t
  | header (hname : name = UnusedFunctions.name) {ident : Text}
    (defined : UnusedFunctions.definedName? (firstLine t) = some ident)
    (unused : UnusedFunctions.uses ident false (UnusedFunctions.body (splitLines t)) ≤ 1) :
    HiddenByMark name check path t

section Verdict

variable {name : Bytes} {check : Check} {path : Bytes} {t : Text}

/-- A mark hides nothing from the rules about the version and the ends of lines. -/
theorem not_hiddenByMark (hwarn : name ≠ RequireWarn.name) (hinstance : name ≠ instanceRuleName)
    (hunused : name ≠ UnusedFunctions.name) : ¬ HiddenByMark name check path t := by
  intro h
  cases h with
  | warning hname => exact hwarn hname
  | singleInstance hname => exact hinstance hname
  | header hname => exact hunused hname

theorem hiddenByMark_warn_iff : HiddenByMark RequireWarn.name check path t ↔
    (RequireWarn.find (firstLine t)).isSome = true ∧
      check ⟨path, firstLine t⟩ ≠ check ⟨path, afterFirst t⟩ := by
  have hfind : (RequireWarn.find (firstLine t)).isSome
      = RequireWarn.isDirective (trim (firstLine t)) := by
    unfold RequireWarn.find
    split_ifs with h
    · rw [h, Option.isSome_some]
    · rw [Bool.not_eq_true] at h
      rw [h, Option.isSome_none]
  rw [hfind]
  constructor
  · intro h
    cases h with
    | warning _ directive differs => exact ⟨directive, differs⟩
    | singleInstance hname => exact absurd hname (by decide)
    | header hname => exact absurd hname (by decide)
  · rintro ⟨directive, differs⟩
    exact .warning rfl directive differs

theorem hiddenByMark_singleInstance_iff : HiddenByMark instanceRuleName check path t ↔
    (RequireSingleInstance.find (firstLine t)).isSome = true ∧
      check ⟨path, firstLine t⟩ ≠ check ⟨path, afterFirst t⟩ := by
  constructor
  · intro h
    cases h with
    | warning hname => exact absurd hname (by decide)
    | singleInstance _ directive differs => exact ⟨directive, differs⟩
    | header hname => exact absurd hname (by decide)
  · rintro ⟨directive, differs⟩
    exact .singleInstance rfl directive differs

theorem hiddenByMark_header_iff : HiddenByMark UnusedFunctions.name check path t ↔
    ∃ ident, UnusedFunctions.definedName? (firstLine t) = some ident ∧
      UnusedFunctions.uses ident false (UnusedFunctions.body (splitLines t)) ≤ 1 := by
  constructor
  · intro h
    cases h with
    | warning hname => exact absurd hname (by decide)
    | singleInstance hname => exact absurd hname (by decide)
    | header _ defined unused => exact ⟨_, defined, unused⟩
  · rintro ⟨ident, defined, unused⟩
    exact .header rfl defined unused

/-- **A mark changes what a rule finds exactly if it hides something from it.** -/
theorem IsStandardCheck.check_mark_eq_iff (hcheck : IsStandardCheck name check) (ht : t ≠ []) :
    check ⟨path, byteOrderMark :: t⟩ = check ⟨path, t⟩ ↔ ¬ HiddenByMark name check path t := by
  cases hcheck with
  | version version =>
    exact iff_of_true (RequireVersion.check_mark version path t)
      (not_hiddenByMark (by decide) (by decide) (by decide))
  | singleInstance mode =>
    rw [hiddenByMark_singleInstance_iff]
    exact (RequireSingleInstance.isDecidedByFirst mode).check_mark_eq_iff rfl
      RequireSingleInstance.find_byteOrderMark path t
  | warn =>
    rw [hiddenByMark_warn_iff]
    exact RequireWarn.isDecidedByFirst.check_mark_eq_iff rfl RequireWarn.find_byteOrderMark path t
  | trailingNewline =>
    exact iff_of_true (TrailingNewline.check_mark path ht)
      (not_hiddenByMark (by decide) (by decide) (by decide))
  | trailingWhitespace =>
    exact iff_of_true (TrailingWhitespace.check_mark path ht)
      (not_hiddenByMark (by decide) (by decide) (by decide))
  | unusedFunctions =>
    rw [hiddenByMark_header_iff]
    exact UnusedFunctions.check_mark_eq_iff path ht

/-- What a rule finds under its entry is changed exactly if it is on, can be configured, and
something is hidden from it then. -/
theorem ruleFindings_mark_eq_iff (r : Runner) {rule : Rule}
    (hrule : rule ∈ Registry.standard.rules) (ht : t ≠ []) :
    r.ruleFindings ⟨path, byteOrderMark :: t⟩ rule = r.ruleFindings ⟨path, t⟩ rule ↔
      ((r.entry ⟨path, t⟩ rule).enabled = true → ∀ configured,
        rule.configure (r.entry ⟨path, t⟩ rule) = .ok configured →
          ¬ HiddenByMark rule.name configured.check path t) := by
  have hentry : r.entry ⟨path, byteOrderMark :: t⟩ rule = r.entry ⟨path, t⟩ rule := rfl
  unfold Runner.ruleFindings
  rw [hentry]
  by_cases hon : (r.entry ⟨path, t⟩ rule).enabled = true
  · rw [if_pos hon, if_pos hon]
    cases hconf : rule.configure (r.entry ⟨path, t⟩ rule) with
    | error e => simp
    | ok configured =>
      have hstandard := (isStandardCheck_of_configure hrule hconf).2
      simp [hon, hstandard.check_mark_eq_iff ht]
  · simp [hon]

end Verdict

/-- **A byte order mark shows only by what it hides on the first line.** In front of a text that is
not empty it changes what a rule finds, under settings that are accepted, exactly if it hides from
the rule what its verdict rests on. This happens to the rules about warnings, about the single
instance and about functions only. So for every selection of rules and every configuration a marked
text stops the program if the text itself does, and otherwise has the findings of the text itself
unless something is hidden from a selected rule that is on. -/
theorem mark_shows_exactly_if_hidden (path : Bytes) {t : Text} (ht : t ≠ []) :
    (∀ rule ∈ Registry.standard.rules, ∀ entry configured,
      rule.configure entry = .ok configured →
        (configured.check ⟨path, byteOrderMark :: t⟩ = configured.check ⟨path, t⟩ ↔
          ¬ HiddenByMark rule.name configured.check path t)) ∧
    (∀ name check, name ≠ RequireWarn.name → name ≠ instanceRuleName →
      name ≠ UnusedFunctions.name → ¬ HiddenByMark name check path t) ∧
    ∀ r : Runner, r.IsStandard →
      (r.checkSource path (byteOrderMark :: t)).crash? = (r.checkSource path t).crash? ∧
      ((r.checkSource path t).crash? = none →
        ((r.checkSource path (byteOrderMark :: t)).diagnostics
            = (r.checkSource path t).diagnostics ↔
          ∀ rule ∈ r.rules, (r.entry ⟨path, t⟩ rule).enabled = true → ∀ configured,
            rule.configure (r.entry ⟨path, t⟩ rule) = .ok configured →
              ¬ HiddenByMark rule.name configured.check path t)) := by
  refine ⟨?_, fun name check => not_hiddenByMark, ?_⟩
  · intro rule hrule entry configured hconf
    exact (isStandardCheck_of_configure hrule hconf).2.check_mark_eq_iff ht
  · intro r hr
    have hgives := r.gives_checkScript true ⟨path, t⟩
    have hmarked := r.gives_checkScript true ⟨path, byteOrderMark :: t⟩
    -- Whether a rule can be configured does not depend on the text.
    have hcrash : (r.checkSource path (byteOrderMark :: t)).crash?
        = (r.checkSource path t).crash? := hmarked.crash?.trans hgives.crash?.symm
    refine ⟨hcrash, fun hnone => ?_⟩
    have hfindings : (r.checkSource path t).diagnostics = _ := hgives.diagnostics hnone
    have hfindings' : (r.checkSource path (byteOrderMark :: t)).diagnostics = _ :=
      hmarked.diagnostics (hcrash.trans hnone)
    rw [hfindings, hfindings', hr.flatMap_ruleFindings_eq_iff]
    exact forall₂_congr fun rule hrule => ruleFindings_mark_eq_iff r (hr rule hrule) ht

/-- A directive on the first line and again behind it. -/
theorem mark_shows_exactly_if_hidden_twice :
    let t : Text := "#Warn\n #warn All".toList
    let r : Runner := { rules := [RequireWarn.rule, TrailingNewline.rule] }
    t ≠ [] ∧ r.IsStandard ∧ (r.checkSource [0x61] t).crash? = none ∧
      (r.checkSource [0x61] (byteOrderMark :: t)).diagnostics
        = (r.checkSource [0x61] t).diagnostics := by
  intro t r
  have ht : t ≠ [] := by decide
  have hr : r.IsStandard := by
    intro rule hrule
    simp only [r, List.mem_cons, List.not_mem_nil, or_false] at hrule
    rcases hrule with rfl | rfl
    · simp [Registry.standard]
    · simp [Registry.standard]
  have hnone : (r.checkSource [0x61] t).crash? = none := by decide
  obtain ⟨-, hother, hverdict⟩ := mark_shows_exactly_if_hidden [0x61] ht
  refine ⟨ht, hr, hnone, ((hverdict r hr).2 hnone).mpr ?_⟩
  intro rule hrule _ configured hconf
  simp only [r, List.mem_cons, List.not_mem_nil, or_false] at hrule
  rcases hrule with rfl | rfl
  · obtain rfl := Except.ok.inj hconf
    intro h
    cases h with
    | warning _ _ differs => exact differs (by decide)
    | singleInstance hname => exact absurd hname (by decide)
    | header hname => exact absurd hname (by decide)
  · exact hother _ _ (by decide) (by decide) (by decide)

/-- A mark before the only directive hides it: the text is clean, and the marked text is not. -/
theorem mark_hides_directive :
    let t : Text := "#Warn\n".toList
    let r : Runner := { rules := [RequireWarn.rule] }
    (r.checkSource (bytes "a.ahk") t).diagnostics = [] ∧
      (r.checkSource (bytes "a.ahk") (byteOrderMark :: t)).diagnostics
        = [⟨bytes "a.ahk", 0, RequireWarn.name, bytes "missing #Warn directive"⟩] := by
  decide

end ScriptLint
