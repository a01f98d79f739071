import ScriptLint.Proofs.Rule.Directive
import ScriptLint.Proofs.Rule.Standard

/-!
# The version as literal text

The rule about the version is content with exactly the scripts whose first line, without byte order
marks in front, starts with a directive for the version (`RequireVersion.Requires`). The pattern
that the version is put into asks for the same (`RequireVersion.isFoundIn_expression_iff`), because
in it every character of the version stands for itself, and it is a pattern exactly if the version
is UTF-8 (`RequireVersion.compile?_versionPattern`).
-/

namespace ScriptLint.RequireVersion

open Expression (compile? literals blanks)

/-! ### Directives -/

/-- A directive for a version, in its parts. -/
structure Directive (version : Text) where
  /-- The word of the directive. -/
  word : Text
  /-- What stands between the word and the name of the interpreter. -/
  gap : Text
  /-- The name of the interpreter. -/
  name : Text
  /-- What stands between the name and the version. -/
  space : Text
  /-- The version as it is written on the line. -/
  number : Text
  word_agrees : Fold.Agrees "#Requires".toList word
  gap_blank : AreBlanks gap
  name_agrees : Fold.Agrees "AutoHotkey".toList name
  space_blank : AreBlanks space
  number_agrees : Fold.Agrees version number

/-- A directive as it stands on its line. -/
def Directive.text {version : Text} (d : Directive version) : Text :=
  d.word ++ (d.gap ++ (d.name ++ (d.space ++ d.number)))

/-- Whether a line starts with a directive for a version. What follows the version is free. -/
def Requires (version line : Text) : Prop := ∃ d : Directive version, d.text <+: line

/-- **A line is read as a directive exactly if it starts with one.** -/
theorem requires_eq_true_iff {version : Text} (hversion : StartsNonblank version) {line : Text} :
    requires version line = true ↔ Requires version line := by
  have hinterpreter : StartsNonblank "AutoHotkey".toList := ⟨'A', _, rfl, by decide⟩
  -- After the first word the other two are read alike, each behind its blanks.
  have hsteps : (Fold.strip? "#Requires".toList line >>= afterBlanks?
        >>= Fold.strip? "AutoHotkey".toList >>= afterBlanks? >>= Fold.strip? version)
      = Fold.strip? "#Requires".toList line >>= fun t =>
        (afterBlanks? t >>= Fold.strip? "AutoHotkey".toList) >>= fun u =>
          afterBlanks? u >>= Fold.strip? version := by
    simp only [bind_assoc]
  rw [requires, hsteps, Option.isSome_iff_exists]
  constructor
  · rintro ⟨r, h⟩
    obtain ⟨t, hword, hrest⟩ := Option.bind_eq_some_iff.mp h
    obtain ⟨u, hname, hnumber⟩ := Option.bind_eq_some_iff.mp hrest
    obtain ⟨word, rfl, word_agrees⟩ := Fold.strip?_eq_some_iff.mp hword
    obtain ⟨gap, name, rfl, gap_blank, name_agrees⟩ :=
      (bind_strip?_eq_some_iff hinterpreter).mp hname
    obtain ⟨space, number, rfl, space_blank, number_agrees⟩ :=
      (bind_strip?_eq_some_iff hversion).mp hnumber
    exact ⟨⟨word, gap, name, space, number, word_agrees, gap_blank, name_agrees, space_blank,
      number_agrees⟩, r, by simp [Directive.text]⟩
  · rintro ⟨d, r, rfl⟩
    have hword : Fold.strip? "#Requires".toList (d.text ++ r)
        = some (d.gap ++ (d.name ++ (d.space ++ (d.number ++ r)))) :=
      Fold.strip?_eq_some_iff.mpr ⟨d.word, by simp [Directive.text], d.word_agrees⟩
    have hname : afterBlanks? (d.gap ++ (d.name ++ (d.space ++ (d.number ++ r))))
        >>= Fold.strip? "AutoHotkey".toList = some (d.space ++ (d.number ++ r)) :=
      (bind_strip?_eq_some_iff hinterpreter).mpr ⟨d.gap, d.name, rfl, d.gap_blank, d.name_agrees⟩
    have hnumber : afterBlanks? (d.space ++ (d.number ++ r)) >>= Fold.strip? version = some r :=
      (bind_strip?_eq_some_iff hversion).mpr
        ⟨d.space, d.number, rfl, d.space_blank, d.number_agrees⟩
    exact ⟨r, Option.bind_eq_some_iff.mpr ⟨_, hword, Option.bind_eq_some_iff.mpr
      ⟨_, hname, hnumber⟩⟩⟩

/-! ### The pattern of a version -/

/-- The expression for a version. -/
def expression (version : Text) : Expression :=
  .place .start :: (literals "#Requires".toList
    ++ blanks :: (literals "AutoHotkey".toList ++ blanks :: literals version))

/-- **In its pattern a version is literal text**, and the pattern of a version that is not UTF-8 is
none. -/
theorem compile?_versionPattern (version : Bytes) :
    compile? (versionPattern version) = (Utf8.decode? version).map expression := by
  have hwording : bytes "(?i)^#Requires\\s+AutoHotkey\\s+"
      = Utf8.encode ("(?i)".toList ++ "^#Requires\\s+AutoHotkey\\s+".toList) := by
    decide +kernel
  have hpattern : versionPattern version
      = Utf8.encode ("(?i)".toList ++ "^#Requires\\s+AutoHotkey\\s+".toList)
        ++ (Expression.quotedBytes version ++ Utf8.encode []) := by
    rw [show Utf8.encode [] = [] from rfl, List.append_nil, ← hwording]
    rfl
  have hfront : Expression.read? "^#Requires\\s+AutoHotkey\\s+".toList
      = some (.place .start :: (literals "#Requires".toList
          ++ blanks :: (literals "AutoHotkey".toList ++ [blanks]))) := by
    decide +kernel
  have hback : Expression.read? [] = some [] := rfl
  rw [hpattern, Expression.compile?_around hfront hback]
  refine congrArg (fun f => (Utf8.decode? version).map f) (funext fun t => ?_)
  simp only [expression, List.cons_append, List.append_assoc, List.nil_append, List.append_nil]

theorem isFoundIn_expression_iff {version line : Text} :
    (expression version).IsFoundIn line ↔ Requires version line := by
  simp only [expression, Expression.isFoundIn_start_iff, Expression.matches_append,
    Expression.matches_blanks_cons, Expression.matches_literals]
  constructor
  · rintro ⟨_, r, rfl, word, _, rfl, word_agrees, gap, _, rfl, gap_blank, name, _, rfl,
      name_agrees, space, number, rfl, space_blank, number_agrees⟩
    exact ⟨⟨word, gap, name, space, number, word_agrees, gap_blank, name_agrees, space_blank,
      number_agrees⟩, r, rfl⟩
  · rintro ⟨d, r, rfl⟩
    exact ⟨d.text, r, rfl, d.word, _, rfl, d.word_agrees, d.gap, _, rfl, d.gap_blank, d.name, _,
      rfl, d.name_agrees, d.space, d.number, rfl, d.space_blank, d.number_agrees⟩

/-! ### What the rule is content with -/

/-- Whether the first line of a script, behind byte order marks, requires a version. -/
def OpensWith (version : Text) (s : Script) : Prop :=
  ∃ line ∈ s.lines.head?, Requires version (line.dropWhile (· == byteOrderMark))

theorem not_requires_nil (version : Text) : ¬ Requires version [] := by
  rintro ⟨d, h⟩
  have hword : d.word = [] :=
    (List.append_eq_nil_iff.mp (List.prefix_nil.mp h)).1
  have hlength := d.word_agrees.length_eq
  rw [hword] at hlength
  exact absurd hlength (by decide)

theorem requires_firstLine_iff {version : Text} (hversion : StartsNonblank version) (s : Script) :
    requires version (firstLine s) = true ↔ OpensWith version s := by
  rw [requires_eq_true_iff hversion, firstLine, OpensWith]
  cases s.lines with
  | nil => simp [not_requires_nil]
  | cons line lines => simp

/-- Whether a check takes a version literally: in the pattern of the version each of its characters
stands for itself, and the check is content with a script exactly if this pattern is found at the
front of the first line. -/
structure TakesLiterally (version : Text) (check : Check) : Prop where
  pattern : compile? (versionPattern (Utf8.encode version)) = some (expression version)
  isFoundIn_iff (line : Text) : (expression version).IsFoundIn line ↔ Requires version line
  silent_iff (s : Script) : check s = [] ↔ OpensWith version s
  finding (s : Script) (h : ¬ OpensWith version s) : check s =
    [⟨s.path, 0, versionRuleName, bytes "missing or incorrect #Requires directive on first line"⟩]

theorem takesLiterally_check {version : Text} (hversion : StartsNonblank version) :
    TakesLiterally version (check version) where
  pattern := by
    rw [compile?_versionPattern, Utf8.decode?_eq_some_iff.mpr rfl, Option.map_some]
  isFoundIn_iff _ := isFoundIn_expression_iff
  silent_iff s := by
    rw [← requires_firstLine_iff hversion, check]
    split_ifs with h
    · exact iff_of_true rfl h
    · exact iff_of_false not_false h
  finding s h := by
    rw [← requires_firstLine_iff hversion] at h
    rw [check, if_neg h]
    rfl

/-! ### Settings -/

/-- What a version that is not blank gives. -/
theorem apply_version {s : Bytes} (hs : trimBytes s ≠ []) :
    apply [(bytes "version", .text s)] =
      match Utf8.decode? (trimBytes s) with
      | some t => .ok (check t)
      | none => .error (.versionNotUtf8 (trimBytes s)) := by
  simp only [apply, versionOf, if_true, if_neg hs, bind, Except.bind]
  rfl

/-- The rule under a version. -/
theorem configure_version (enabled : Bool) {s : Bytes} (hs : trimBytes s ≠ []) :
    rule.configure { enabled, settings := some [(bytes "version", .text s)] } =
      match Utf8.decode? (trimBytes s) with
      | some t => .ok { rule with check := check t }
      | none => .error (.refused versionRuleName (.versionNotUtf8 (trimBytes s))) := by
  rw [rule.configure_some (List.cons_ne_nil _ _)]
  simp only [rule, Option.elim_some, apply_version hs]
  cases Utf8.decode? (trimBytes s) with
  | none => rfl
  | some t => rfl

theorem startsNonblank_trim {v : Text} (h : trim v ≠ []) : StartsNonblank (trim v) := by
  obtain ⟨c, r, hv⟩ := List.exists_cons_of_ne_nil h
  refine ⟨c, r, hv, ?_⟩
  by_contra hc
  rw [Bool.not_eq_false] at hc
  have hspace : isSpace c = false := isSpace_eq_false_of_mem_head?_trim (by rw [hv]; rfl)
  rw [isSpace_of_isAsciiBlank hc] at hspace
  exact absurd hspace (by decide)

/-- **The version is literal text.** Every text that is not blank is accepted as a version, and
without white space around it every character of it stands for itself: the rule is content with
exactly the scripts whose first line, behind byte order marks, starts in any letter case with the
directive's two words and the version, with ASCII blanks between them. About any other script, also
one without lines, it reports one finding. The same holds of the version that is expected without a
setting. -/
theorem version_is_taken_literally :
    (∀ (enabled : Bool) (v : Text), trim v ≠ [] → ∃ configured,
      rule.configure { enabled, settings := some [(bytes "version", .text (Utf8.encode v))] }
        = .ok configured ∧ TakesLiterally (trim v) configured.check) ∧
    (∀ enabled : Bool, rule.configure { enabled } = .ok rule) ∧
    TakesLiterally defaultVersion rule.check := by
  refine ⟨?_, fun _ => rfl, takesLiterally_check ⟨'v', _, rfl, by decide⟩⟩
  intro enabled v hv
  have hbytes : trimBytes (Utf8.encode v) = Utf8.encode (trim v) := trimBytes_encode v
  have hdecode : Utf8.decode? (trimBytes (Utf8.encode v)) = some (trim v) :=
    Utf8.decode?_eq_some_iff.mpr hbytes
  have hne : trimBytes (Utf8.encode v) ≠ [] := by
    intro hempty
    rw [hempty] at hdecode
    exact hv (Option.some.inj hdecode).symm
  refine ⟨{ rule with check := check (trim v) }, ?_, takesLiterally_check (startsNonblank_trim hv)⟩
  rw [configure_version enabled hne, hdecode]

/-- A version of signs that have a meaning in patterns, behind a wide space: on a line with marks, a
long s, a Kelvin sign and a form feed it is found, and without its signs it is not. -/
theorem version_is_taken_literally_signs :
    let v : Text := "\u2003(v2.*)+".toList
    let found : Text :=
      "\uFEFF\uFEFF#require\u017F \t AutoHot\u212Aey\x0C(V2.*)+beta\nx".toList
    let missed : Text := "#Requires AutoHotkey v2v2.1".toList
    trim v ≠ [] ∧ ∃ configured,
      rule.configure
        { enabled := true, settings := some [(bytes "version", .text (Utf8.encode v))] }
          = .ok configured ∧
      configured.check ⟨bytes "a.ahk", found⟩ = [] ∧
      (configured.check ⟨bytes "a.ahk", missed⟩).length = 1 ∧
      (configured.check ⟨bytes "a.ahk", []⟩).length = 1 := by
  intro v found missed
  have hv : trim v ≠ [] := by decide +kernel
  obtain ⟨configured, hconfigured, h⟩ := version_is_taken_literally.1 true v hv
  have hopens (s : Script) : OpensWith (trim v) s ↔ requires (trim v) (firstLine s) = true :=
    (requires_firstLine_iff (startsNonblank_trim hv) s).symm
  refine ⟨hv, configured, hconfigured, ?_, ?_, ?_⟩
  · rw [h.silent_iff, hopens]
    decide +kernel
  · rw [h.finding _ (by rw [hopens]; decide +kernel)]
    rfl
  · rw [h.finding _ (by rw [hopens]; decide +kernel)]
    rfl

end ScriptLint.RequireVersion
