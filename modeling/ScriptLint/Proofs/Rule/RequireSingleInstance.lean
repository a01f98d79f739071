import ScriptLint.Proofs.Rule.Directive
import ScriptLint.Proofs.Rule.Findings

/-!
# The first directive decides

The rule about the single instance looks at the first line that is a directive (`IsDirective`) and
asks it for a mode (`NamesMode`); the lines behind it never matter. Both questions are asked of the
line without white space around it, and both are what the patterns of the rule ask for
(`isFoundIn_directive_iff`, `isFoundIn_expression_iff`): a pattern that ends where a word ends needs
the word to end in a word character, and the directive's word and every mode end in a letter that
agrees with ASCII letters only.
-/

namespace ScriptLint.RequireSingleInstance

open Expression (compile? literals blanks)

/-! ### Directives -/

/-- Whether a line is a directive: without white space around it, it starts with the directive's
word, which ends there. -/
def IsDirective (line : Text) : Prop :=
  ∃ word rest, trim line = word ++ rest ∧ Fold.Agrees "#SingleInstance".toList word ∧
    ∀ c ∈ rest.head?, isWordChar c = false

/-- A directive for a mode, in its parts. -/
structure Directive (mode : Text) where
  /-- The word of the directive. -/
  word : Text
  /-- What stands between the word and the mode. -/
  gap : Text
  /-- The mode as it is written on the line. -/
  name : Text
  word_agrees : Fold.Agrees "#SingleInstance".toList word
  gap_blank : AreBlanks gap
  name_agrees : Fold.Agrees mode name

/-- A directive as it stands on its line. -/
def Directive.text {mode : Text} (d : Directive mode) : Text := d.word ++ (d.gap ++ d.name)

/-- Whether a line, without white space around it, starts with a directive for a mode, which ends
there. -/
def NamesMode (mode line : Text) : Prop :=
  ∃ (d : Directive mode) (rest : Text), trim line = d.text ++ rest ∧
    ∀ c ∈ rest.head?, isWordChar c = false

theorem afterDirective?_eq_some_iff {t rest : Text} : afterDirective? t = some rest ↔
    ∃ word, t = word ++ rest ∧ Fold.Agrees "#SingleInstance".toList word ∧
      ∀ c ∈ rest.head?, isWordChar c = false := by
  rw [← startsWithWord_eq_false_iff, afterDirective?, Option.bind_eq_bind, Option.bind_eq_some_iff]
  constructor
  · rintro ⟨r, hstrip, hr⟩
    split_ifs at hr with hword
    obtain rfl := Option.some.inj hr
    obtain ⟨word, rfl, hagrees⟩ := Fold.strip?_eq_some_iff.mp hstrip
    exact ⟨word, rfl, hagrees, Bool.not_eq_true _ ▸ hword⟩
  · rintro ⟨word, rfl, hagrees, hword⟩
    refine ⟨rest, Fold.strip?_eq_some_iff.mpr ⟨word, rfl, hagrees⟩, ?_⟩
    rw [hword]
    rfl

theorem isDirective_iff {line : Text} :
    IsDirective line ↔ ∃ rest, afterDirective? (trim line) = some rest := by
  simp only [IsDirective, afterDirective?_eq_some_iff]
  exact exists_comm

theorem afterDirective?_eq_none_iff {line : Text} :
    afterDirective? (trim line) = none ↔ ¬ IsDirective line := by
  rw [isDirective_iff, ← Option.isSome_iff_exists, Bool.not_eq_true, Option.isSome_eq_false_iff,
    Option.isNone_iff_eq_none]

instance : DecidablePred IsDirective := fun _ =>
  decidable_of_iff _ (Option.isSome_iff_exists.trans isDirective_iff.symm)

theorem names_eq_true_iff {mode : Text} (hmode : StartsNonblank mode) {rest : Text} :
    names mode rest = true ↔ ∃ gap name r, rest = gap ++ (name ++ r) ∧ AreBlanks gap ∧
      Fold.Agrees mode name ∧ ∀ c ∈ r.head?, isWordChar c = false := by
  simp only [← startsWithWord_eq_false_iff]
  rw [names]
  constructor
  · intro h
    split at h
    · rename_i r hr
      obtain ⟨gap, name, rfl, hgap, hname⟩ := (bind_strip?_eq_some_iff hmode).mp hr
      exact ⟨gap, name, r, rfl, hgap, hname, Bool.not_eq_true' _ ▸ h⟩
    · exact absurd h (by decide)
  · rintro ⟨gap, name, r, hrest, hgap, hname, hr⟩
    rw [(bind_strip?_eq_some_iff hmode).mpr ⟨gap, name, hrest, hgap, hname⟩]
    exact (Bool.not_eq_true' _).mpr hr

/-- **A directive names a mode exactly if the mode is found behind its word.** -/
theorem names_iff_namesMode {mode : Text} (hmode : StartsNonblank mode) {line rest : Text}
    (h : afterDirective? (trim line) = some rest) :
    names mode rest = true ↔ NamesMode mode line := by
  obtain ⟨word, hline, hword, -⟩ := afterDirective?_eq_some_iff.mp h
  rw [names_eq_true_iff hmode]
  constructor
  · rintro ⟨gap, name, r, rfl, hgap, hname, hr⟩
    exact ⟨⟨word, gap, name, hword, hgap, hname⟩, r, by simp [Directive.text, hline], hr⟩
  · rintro ⟨d, r, hd, hr⟩
    -- Both words agree with the directive's word, so they are as long as it and cut the line alike.
    have hlength : word.length = d.word.length := by
      rw [← hword.length_eq, d.word_agrees.length_eq]
    rw [hline, Directive.text, List.append_assoc] at hd
    refine ⟨d.gap, d.name, r, ?_, d.gap_blank, d.name_agrees, hr⟩
    rw [List.append_inj_right hd hlength, List.append_assoc]

/-! ### Modes -/

instance : DecidablePred IsMode := fun mode =>
  inferInstanceAs (Decidable (mode.map Fold.lowerAscii ∈ modes))

/-- The characters of a mode lower to small letters. -/
theorem IsMode.lowerAscii_bounds {mode : Text} (h : IsMode mode) :
    ∀ c ∈ mode, 0x61 ≤ (Fold.lowerAscii c).toNat ∧ (Fold.lowerAscii c).toNat ≤ 0x7A := by
  have hletters : ∀ m ∈ modes, (m.all fun c => 0x61 ≤ c.toNat ∧ c.toNat ≤ 0x7A) = true := by
    decide
  intro c hc
  exact of_decide_eq_true (List.all_eq_true.mp (hletters _ h) _ (List.mem_map_of_mem hc))

theorem IsMode.startsNonblank {mode : Text} (h : IsMode mode) : StartsNonblank mode := by
  cases mode with
  | nil => exact absurd h (by simp [IsMode, modes])
  | cons c r =>
    refine ⟨c, r, rfl, ?_⟩
    have hletter := (h.lowerAscii_bounds c List.mem_cons_self).1
    by_contra hblank
    rw [Bool.not_eq_false] at hblank
    rcases isAsciiBlank_iff.mp hblank with rfl | rfl | rfl | rfl | rfl
    all_goals exact absurd hletter (by decide)

/-- Modes end in one of three letters. -/
theorem IsMode.exists_reverse_eq_cons {mode : Text} (h : IsMode mode) :
    ∃ c r, mode.reverse = c :: r ∧ Fold.codePoint c.toNat ∈ wordEnds := by
  have hlast : ∀ m ∈ modes, (m.reverse.head?.all fun c => c.toNat ∈ wordEnds) = true := by
    decide
  obtain ⟨a, as, hmode, -⟩ := h.startsNonblank
  obtain ⟨c, r, hreverse⟩ := List.exists_cons_of_ne_nil
    (List.reverse_ne_nil_iff.mpr (hmode ▸ List.cons_ne_nil a as))
  have hlower : (Fold.lowerAscii c).toNat ∈ wordEnds := by
    have hhead := hlast _ h
    rw [← List.map_reverse, hreverse] at hhead
    exact of_decide_eq_true hhead
  refine ⟨c, r, hreverse, ?_⟩
  -- The dotted capital I is not at the end, because it lowers to none of the three letters.
  rw [Fold.codePoint_eq_toNat_lowerAscii]
  · exact hlower
  · rintro rfl
    exact absurd hlower (by decide)
  · simp only [wordEnds, List.mem_cons, List.not_mem_nil, or_false] at hlower
    omega

/-! ### Patterns -/

/-- The pattern of a directive. -/
def directivePattern : Bytes := bytes "(?i)^#SingleInstance\\b"

/-- The pattern of a directive for a mode. -/
def modePattern (mode : Bytes) : Bytes :=
  bytes "(?i)^#SingleInstance\\s+" ++ (Expression.quotedBytes mode ++ bytes "\\b")

/-- The expression for a directive. -/
def directive : Expression :=
  .place .start :: (literals "#SingleInstance".toList ++ [.place .wordBoundary])

/-- The expression for a directive for a mode. -/
def expression (mode : Text) : Expression :=
  .place .start :: (literals "#SingleInstance".toList
    ++ blanks :: (literals mode ++ [.place .wordBoundary]))

theorem compile?_directivePattern : compile? directivePattern = some directive := by
  decide

/-- **In its pattern a mode is literal text.** -/
theorem compile?_modePattern (mode : Bytes) :
    compile? (modePattern mode) = (Utf8.decode? mode).map expression := by
  have hwording : bytes "(?i)^#SingleInstance\\s+"
      = Utf8.encode ("(?i)".toList ++ "^#SingleInstance\\s+".toList) := by
    decide
  have hfront : Expression.read? "^#SingleInstance\\s+".toList
      = some (.place .start :: (literals "#SingleInstance".toList ++ [blanks])) := by
    decide
  have hback : Expression.read? "\\b".toList = some [.place .wordBoundary] := by decide
  rw [modePattern, hwording, show bytes "\\b" = Utf8.encode "\\b".toList from rfl,
    Expression.compile?_around hfront hback]
  refine congrArg (fun f => (Utf8.decode? mode).map f) (funext fun t => ?_)
  simp only [expression, List.cons_append, List.append_assoc, List.nil_append]

/-- Behind a text that ends in a word character a word ends exactly where no other one follows. -/
theorem matches_wordBoundary_iff {before t after : Text}
    (hbefore : startsWithWord before.reverse = true) :
    Expression.Matches [.place .wordBoundary] before t after ↔
      t = [] ∧ ∀ c ∈ after.head?, isWordChar c = false := by
  rw [Expression.matches_singleton, ← startsWithWord_eq_false_iff, ← Bool.not_eq_true, eq_comm]
  show _ ∧ startsWithWord before.reverse ≠ startsWithWord after ↔ _
  rw [hbefore, eq_comm, ne_comm]

theorem startsWithWord_reverse_append {s t : Text} (h : startsWithWord t.reverse = true) :
    startsWithWord (s ++ t).reverse = true := by
  rw [List.reverse_append]
  cases ht : t.reverse with
  | nil =>
    rw [ht] at h
    exact absurd h (by decide)
  | cons c r =>
    rw [ht] at h
    exact h

theorem startsWithWord_reverse_word {word : Text}
    (h : Fold.Agrees "#SingleInstance".toList word) : startsWithWord word.reverse = true :=
  h.startsWithWord_reverse (c := 'e') rfl (by decide)

theorem isFoundIn_directive_iff {line : Text} :
    directive.IsFoundIn (trim line) ↔ IsDirective line := by
  simp only [directive, Expression.isFoundIn_start_iff, Expression.matches_append,
    Expression.matches_literals, IsDirective, List.nil_append]
  constructor
  · rintro ⟨_, rest, hline, word, _, rfl, hword, hboundary⟩
    obtain ⟨rfl, hrest⟩ :=
      (matches_wordBoundary_iff (startsWithWord_reverse_word hword)).mp hboundary
    exact ⟨word, rest, by rw [hline, List.append_nil], hword, hrest⟩
  · rintro ⟨word, rest, hline, hword, hrest⟩
    exact ⟨word, rest, hline, word, [], (List.append_nil word).symm, hword,
      (matches_wordBoundary_iff (startsWithWord_reverse_word hword)).mpr ⟨rfl, hrest⟩⟩

theorem isFoundIn_expression_iff {mode : Text} (hmode : IsMode mode) {line : Text} :
    (expression mode).IsFoundIn (trim line) ↔ NamesMode mode line := by
  obtain ⟨c, r, hreverse, hc⟩ := hmode.exists_reverse_eq_cons
  have hends {name : Text} (h : Fold.Agrees mode name) (s : Text) :
      startsWithWord (s ++ name).reverse = true :=
    startsWithWord_reverse_append (h.startsWithWord_reverse hreverse hc)
  simp only [expression, Expression.isFoundIn_start_iff, Expression.matches_append,
    Expression.matches_blanks_cons, Expression.matches_literals, NamesMode, List.nil_append]
  constructor
  · rintro ⟨_, rest, hline, word, _, rfl, word_agrees, gap, _, rfl, gap_blank, name, _, rfl,
      name_agrees, hboundary⟩
    obtain ⟨rfl, hrest⟩ := (matches_wordBoundary_iff (hends name_agrees _)).mp hboundary
    exact ⟨⟨word, gap, name, word_agrees, gap_blank, name_agrees⟩, rest,
      by simpa [Directive.text] using hline, hrest⟩
  · rintro ⟨d, rest, hline, hrest⟩
    exact ⟨d.text, rest, hline, d.word, _, rfl, d.word_agrees, d.gap, _, rfl, d.gap_blank, d.name,
      [], (List.append_nil _).symm, d.name_agrees,
      (matches_wordBoundary_iff (hends d.name_agrees _)).mpr ⟨rfl, hrest⟩⟩

/-! ### The verdict -/

/-- Whether a line is the first directive of a script, between the lines before it and those behind
it. -/
structure IsFirstDirective (s : Script) (before : List Text) (line : Text) (after : List Text) :
    Prop where
  lines : s.lines = before ++ line :: after
  before : ∀ l ∈ before, ¬ IsDirective l
  directive : IsDirective line

/-- Whether a check asks the first directive of a script for a mode, and nothing else. The pattern
of the mode is found in a line exactly if the line names the mode. -/
structure AsksFirst (mode : Text) (check : Check) : Prop where
  pattern : compile? (modePattern (Utf8.encode mode)) = some (expression mode)
  isFoundIn_iff (line : Text) : (expression mode).IsFoundIn (trim line) ↔ NamesMode mode line
  missing (s : Script) (h : ∀ line ∈ s.lines, ¬ IsDirective line) :
    check s = [⟨s.path, 0, instanceRuleName, bytes "missing #SingleInstance directive"⟩]
  silent_iff (s : Script) (before : List Text) (line : Text) (after : List Text)
    (h : IsFirstDirective s before line after) : check s = [] ↔ NamesMode mode line
  finding (s : Script) (before : List Text) (line : Text) (after : List Text)
    (h : IsFirstDirective s before line after) (hmode : ¬ NamesMode mode line) :
    check s = [⟨s.path, 0, instanceRuleName,
      bytes "#SingleInstance should use '" ++ Utf8.encode mode ++ bytes "'"⟩]
  later (s s' : Script) (before : List Text) (line : Text) (after after' : List Text)
    (h : IsFirstDirective s before line after) (h' : IsFirstDirective s' before line after')
    (hpath : s.path = s'.path) : check s = check s'

theorem findSome?_eq_none {lines : List Text} (h : ∀ line ∈ lines, ¬ IsDirective line) :
    (lines.findSome? fun line => afterDirective? (trim line)) = none :=
  List.findSome?_eq_none_iff.mpr fun line hline => afterDirective?_eq_none_iff.mpr (h line hline)

/-- **What the check says of the first directive.** -/
theorem check_of_isFirstDirective {mode : Text} (hmode : IsMode mode) {s : Script}
    {before : List Text} {line : Text} {after : List Text}
    (h : IsFirstDirective s before line after) :
    NamesMode mode line ∧ check mode s = [] ∨
    ¬ NamesMode mode line ∧ check mode s = [⟨s.path, 0, instanceRuleName,
      bytes "#SingleInstance should use '" ++ Utf8.encode mode ++ bytes "'"⟩] := by
  obtain ⟨rest, hrest⟩ := isDirective_iff.mp h.directive
  have hfirst : (s.lines.findSome? fun line => afterDirective? (trim line)) = some rest := by
    rw [h.lines, List.findSome?_append, findSome?_eq_none h.before, List.findSome?_cons, hrest]
    rfl
  rw [← names_iff_namesMode hmode.startsNonblank hrest, check, hfirst]
  dsimp only
  split_ifs with hnames
  · exact .inl ⟨hnames, rfl⟩
  · exact .inr ⟨hnames, rfl⟩

theorem asksFirst_check {mode : Text} (hmode : IsMode mode) : AsksFirst mode (check mode) where
  pattern := by rw [compile?_modePattern, Utf8.decode?_eq_some_iff.mpr rfl, Option.map_some]
  isFoundIn_iff _ := isFoundIn_expression_iff hmode
  missing s h := by
    rw [check, findSome?_eq_none h]
    rfl
  silent_iff s before line after h := by
    rcases check_of_isFirstDirective hmode h with ⟨hnames, hcheck⟩ | ⟨hnames, hcheck⟩
    · exact iff_of_true hcheck hnames
    · rw [hcheck]
      exact iff_of_false (List.cons_ne_nil _ _) hnames
  finding s before line after h hnames :=
    (check_of_isFirstDirective hmode h).elim (fun hc => absurd hc.1 hnames) (·.2)
  later s s' before line after after' h h' hpath := by
    rcases check_of_isFirstDirective hmode h with ⟨hnames, hcheck⟩ | ⟨hnames, hcheck⟩
    · rcases check_of_isFirstDirective hmode h' with ⟨-, hcheck'⟩ | ⟨hnames', -⟩
      · rw [hcheck, hcheck']
      · exact absurd hnames hnames'
    · rcases check_of_isFirstDirective hmode h' with ⟨hnames', -⟩ | ⟨-, hcheck'⟩
      · exact absurd hnames' hnames
      · rw [hcheck, hcheck', hpath]

/-! ### Settings -/

/-- Whether a rule is the one for a mode: the rule as it is, for the default mode, or what a setting
makes of it. -/
inductive IsRuleFor : Text → Rule → Prop where
  | default : IsRuleFor defaultMode rule
  | setting {enabled : Bool} {mode : Text} {configured : Rule}
    (h : rule.configure
      { enabled, settings := some [(bytes "mode", .text (Utf8.encode mode))] } = .ok configured) :
    IsRuleFor mode configured

/-- The rule under a mode. -/
theorem configure_mode (enabled : Bool) (s : Bytes) :
    rule.configure { enabled, settings := some [(bytes "mode", .text s)] } =
      match mode? s with
      | some mode => .ok { rule with check := check mode }
      | none => .error (.refused instanceRuleName (.unknownMode s)) := by
  rw [rule.configure_some (List.cons_ne_nil _ _)]
  simp only [rule, Option.elim_some, apply, modeOf, if_true]
  cases mode? s with
  | none => rfl
  | some mode => rfl

theorem mode?_encode_eq_some_iff {mode m : Text} :
    mode? (Utf8.encode mode) = some m ↔ IsMode mode ∧ m = mode := by
  rw [mode?, Utf8.decode?_eq_some_iff.mpr rfl, Option.bind_eq_bind, Option.bind_some,
    Option.ite_none_right_eq_some, Option.some.injEq, List.contains_iff_mem, eq_comm]
  rfl

theorem configure_eq_ok_iff (enabled : Bool) {mode : Text} {configured : Rule} :
    rule.configure { enabled, settings := some [(bytes "mode", .text (Utf8.encode mode))] }
        = .ok configured ↔
      IsMode mode ∧ configured = { rule with check := check mode } := by
  rw [configure_mode]
  cases hmode : mode? (Utf8.encode mode) with
  | none =>
    refine iff_of_false (by simp) ?_
    rintro ⟨h, -⟩
    rw [mode?_encode_eq_some_iff.mpr ⟨h, rfl⟩] at hmode
    exact absurd hmode (by simp)
  | some m =>
    obtain ⟨h, rfl⟩ := mode?_encode_eq_some_iff.mp hmode
    rw [Except.ok.injEq, eq_comm, and_iff_right h]

theorem IsRuleFor.check_eq {mode : Text} {configured : Rule} (h : IsRuleFor mode configured) :
    IsMode mode ∧ configured.check = check mode := by
  cases h with
  | default => exact ⟨isMode_default, rfl⟩
  | setting h =>
    obtain ⟨hmode, rfl⟩ := (configure_eq_ok_iff _).mp h
    exact ⟨hmode, rfl⟩

/-- Whatever the rule is told, it looks for one mode. -/
theorem exists_isRuleFor {e : RuleEntry} {configured : Rule}
    (h : rule.configure e = .ok configured) : ∃ mode, IsRuleFor mode configured := by
  rcases Rule.configure_cases h with rfl | ⟨c, settings, check, hc, happly, rfl⟩
  · exact ⟨defaultMode, .default⟩
  · obtain rfl := Option.some.inj hc
    obtain ⟨mode, hmode, rfl⟩ := exists_isMode_of_apply happly
    exact ⟨mode, .setting ((configure_eq_ok_iff true).mpr ⟨hmode, rfl⟩)⟩

/-- **The first directive decides.** A line is a directive exactly if the pattern of directives is
found in it. Every spelling of one of the four modes is accepted and nothing else, and whatever the
rule is told, it looks for one accepted mode or for the default one: about a script without a
directive it reports that it is missing, and about any other one what its first directive says,
whatever stands behind it. -/
theorem first_directive_decides :
    (compile? directivePattern = some directive ∧
      ∀ line, directive.IsFoundIn (trim line) ↔ IsDirective line) ∧
    (∀ (enabled : Bool) (mode : Text), (∃ configured, rule.configure
      { enabled, settings := some [(bytes "mode", .text (Utf8.encode mode))] } = .ok configured) ↔
        IsMode mode) ∧
    (∀ (e : RuleEntry) (configured : Rule), rule.configure e = .ok configured →
      ∃ mode, IsRuleFor mode configured) ∧
    ∀ (mode : Text) (configured : Rule), IsRuleFor mode configured →
      AsksFirst mode configured.check := by
  refine ⟨⟨compile?_directivePattern, fun line => isFoundIn_directive_iff⟩,
    fun enabled mode => ?_, fun e configured => exists_isRuleFor, fun mode configured h => ?_⟩
  · simp only [configure_eq_ok_iff, exists_and_left, exists_eq, and_true]
  · obtain ⟨hmode, hcheck⟩ := h.check_eq
    rw [hcheck]
    exact asksFirst_check hmode

/-- A mode in mixed letters: it is found behind a wide space, a long s and a form feed, and a
directive with a wide space in the middle decides against it, although a later one names it. -/
theorem first_directive_decides_wide_space :
    let mode : Text := "oFF".toList
    let found : Text := "x\n\u3000#\u017FingleInstance\t\x0COff;\n#SingleInstance Force".toList
    let missed : Text := "#SingleInstanceOff\n#SingleInstance\u00A0Off\n#SingleInstance Off".toList
    ∃ configured,
      rule.configure
        { enabled := true, settings := some [(bytes "mode", .text (Utf8.encode mode))] }
          = .ok configured ∧
      configured.check ⟨bytes "a.ahk", found⟩ = [] ∧
      configured.check ⟨bytes "a.ahk", missed⟩
        = [⟨bytes "a.ahk", 0, instanceRuleName, bytes "#SingleInstance should use 'oFF'"⟩] ∧
      configured.check ⟨bytes "a.ahk", "#SingleInstances Off".toList⟩
        = [⟨bytes "a.ahk", 0, instanceRuleName, bytes "missing #SingleInstance directive"⟩] := by
  intro mode found missed
  have hmode : IsMode mode := by decide
  obtain ⟨-, haccepts, -, hdecides⟩ := first_directive_decides
  obtain ⟨configured, hconfigured⟩ := (haccepts true mode).mpr hmode
  have h := hdecides mode configured (.setting hconfigured)
  have hnames (line rest : Text) (hrest : afterDirective? (trim line) = some rest) :
      NamesMode mode line ↔ names mode rest = true :=
    (names_iff_namesMode hmode.startsNonblank hrest).symm
  refine ⟨configured, hconfigured, ?_, ?_, ?_⟩
  · have hfirst : IsFirstDirective ⟨bytes "a.ahk", found⟩ ["x".toList]
        "\u3000#\u017FingleInstance\t\x0COff;".toList ["#SingleInstance Force".toList] :=
      ⟨by decide, by decide, by decide⟩
    rw [h.silent_iff _ _ _ _ hfirst, hnames _ "\t\x0COff;".toList (by decide)]
    decide
  · have hfirst : IsFirstDirective ⟨bytes "a.ahk", missed⟩ ["#SingleInstanceOff".toList]
        "#SingleInstance\u00A0Off".toList ["#SingleInstance Off".toList] :=
      ⟨by decide, by decide, by decide⟩
    refine h.finding _ _ _ _ hfirst ?_
    rw [hnames _ "\u00A0Off".toList (by decide)]
    decide
  · exact h.missing _ (by decide)

end ScriptLint.RequireSingleInstance
