import ScriptLint.Proofs.Rule.Standard
import ScriptLint.Proofs.Rule.UnusedFunctions.Header
import ScriptLint.Proofs.Text.Quoted

/-!
# The shape of findings

Whatever a rule of the linter is told, its findings name the script and the rule, their lines are
lines of the script, and their messages stay on one line, although they quote names from the script
and modes from the settings. Four rules look at a script as a whole and report at most one finding
(`ReportsWhole`); two look at its lines and report at most one finding for each, in line order
(`ReportsLines`). `reports_of_configure` says so for every rule.
-/

namespace ScriptLint

/-! ### Two shapes -/

/-- Whether a finding is about a script: it names the script and the rule, its line is one of the
script or zero, and its message stays on one line. -/
structure Diagnostic.IsAbout (d : Diagnostic) (s : Script) (name : Bytes) : Prop where
  file : d.file = s.path
  rule : d.rule = name
  line_nonneg : 0 ≤ d.line
  line_le : d.line ≤ s.lines.length
  message : IsUnbroken d.message

/-- What is reported about a script as a whole: at most one finding, on no line. -/
structure ReportsWhole (name : Bytes) (s : Script) (ds : List Diagnostic) : Prop where
  about : ∀ d ∈ ds, d.IsAbout s name
  atMostOne : ds.length ≤ 1
  line : ∀ d ∈ ds, d.line = 0

/-- What is reported about the lines of a script: findings on increasing lines. -/
structure ReportsLines (name : Bytes) (s : Script) (ds : List Diagnostic) : Prop where
  about : ∀ d ∈ ds, d.IsAbout s name
  increasing : ds.Pairwise fun d d' => d.line < d'.line
  line : ∀ d ∈ ds, 1 ≤ d.line

/-- The rules that look at a script as a whole. -/
def wholeScriptRules : List Bytes :=
  [versionRuleName, instanceRuleName, RequireWarn.name, TrailingNewline.name]

/-- The rules that look at the lines of a script. -/
def lineRules : List Bytes := [TrailingWhitespace.name, UnusedFunctions.name]

section

variable {name : Bytes} {s : Script}

theorem reportsWhole_nil : ReportsWhole name s [] where
  about := List.forall_mem_nil _
  atMostOne := Nat.zero_le 1
  line := List.forall_mem_nil _

theorem reportsWhole_fileLevel {message : Bytes} (h : IsUnbroken message) :
    ReportsWhole name s [Rule.fileLevel name message s] where
  about := List.forall_mem_singleton.mpr
    ⟨rfl, rfl, Int.le_refl 0, Int.natCast_nonneg _, h⟩
  atMostOne := Nat.le_refl 1
  line := List.forall_mem_singleton.mpr rfl

theorem reportsWhole_ite {p : Prop} [Decidable p] {message : Bytes} (h : IsUnbroken message) :
    ReportsWhole name s (if p then [] else [Rule.fileLevel name message s]) := by
  split_ifs
  · exact reportsWhole_nil
  · exact reportsWhole_fileLevel h

/-- Findings that are made line by line, on the lines as they are numbered. -/
theorem reportsLines_filterMap {f : Text × ℕ → Option Diagnostic}
    (hf : ∀ l k d, f (l, k) = some d →
      d.file = s.path ∧ d.rule = name ∧ d.line = k ∧ IsUnbroken d.message) :
    ReportsLines name s ((s.lines.zipIdx 1).filterMap f) := by
  have hmem {d : Diagnostic} (hd : d ∈ (s.lines.zipIdx 1).filterMap f) :
      ∃ l k, 1 ≤ k ∧ k ≤ s.lines.length ∧ f (l, k) = some d := by
    obtain ⟨⟨l, k⟩, hlk, hd⟩ := List.mem_filterMap.mp hd
    obtain ⟨hle, hlt, -⟩ := List.mem_zipIdx hlk
    exact ⟨l, k, hle, by omega, hd⟩
  constructor
  · intro d hd
    obtain ⟨l, k, -, hk, hd⟩ := hmem hd
    obtain ⟨hfile, hrule, hline, hmessage⟩ := hf l k d hd
    exact ⟨hfile, hrule, by omega, by omega, hmessage⟩
  · have hnumbers : (s.lines.zipIdx 1).Pairwise fun a b => a.2 < b.2 := by
      rw [← List.pairwise_map, List.zipIdx_map_snd]
      exact List.pairwise_lt_range'
    rw [List.pairwise_filterMap]
    refine hnumbers.imp fun {a b} hlt d hd d' hd' => ?_
    rw [(hf a.1 a.2 d hd).2.2.1, (hf b.1 b.2 d' hd').2.2.1]
    exact Int.ofNat_lt.mpr hlt
  · intro d hd
    obtain ⟨l, k, hk, -, hd⟩ := hmem hd
    rw [(hf l k d hd).2.2.1]
    exact Int.ofNat_le.mpr hk

end

/-! ### Scripts as a whole -/

theorem RequireVersion.reports (version : Text) (s : Script) :
    ReportsWhole versionRuleName s (check version s) :=
  reportsWhole_ite (by decide)

theorem RequireWarn.reports (s : Script) : ReportsWhole name s (check s) :=
  reportsWhole_ite (by decide)

theorem TrailingNewline.reports (s : Script) : ReportsWhole name s (check s) :=
  reportsWhole_ite (by decide)

namespace RequireSingleInstance

/-- A mode that a setting may name, in any letter case. -/
def IsMode (mode : Text) : Prop := mode.map Fold.lowerAscii ∈ modes

theorem isMode_of_mode? {s : Bytes} {mode : Text} (h : mode? s = some mode) : IsMode mode := by
  obtain ⟨t, -, h⟩ := Option.bind_eq_some_iff.mp h
  split_ifs at h with hmode
  obtain rfl := Option.some.inj h
  exact List.contains_iff_mem.mp hmode

/-- Settings leave one mode or name another one. -/
theorem isMode_of_modeOf {start mode : Text} {settings : Settings} (hstart : IsMode start)
    (h : modeOf start settings = .ok mode) : IsMode mode := by
  induction settings generalizing start with
  | nil =>
    obtain rfl := Except.ok.inj h
    exact hstart
  | cons entry settings ih =>
    obtain ⟨key, value⟩ := entry
    simp only [modeOf] at h
    split_ifs at h
    split at h
    · split at h
      · rename_i m hm
        exact ih (isMode_of_mode? hm) h
      · exact absurd h (by simp)
    · exact absurd h (by simp)

theorem isMode_default : IsMode defaultMode := by
  unfold IsMode
  decide

/-- Settings of the single-instance rule give its check for a mode. -/
theorem exists_isMode_of_apply {settings : Settings} {c : Check} (h : apply settings = .ok c) :
    ∃ mode, IsMode mode ∧ c = check mode := by
  unfold apply at h
  cases hmode : modeOf defaultMode settings with
  | error e => simp [hmode, Except.map] at h
  | ok mode =>
    rw [hmode] at h
    exact ⟨mode, isMode_of_modeOf isMode_default hmode, (Except.ok.inj h).symm⟩

/-- A mode is a word of letters, so it stays on one line. -/
theorem IsMode.isUnbroken {mode : Text} (h : IsMode mode) : IsUnbroken (Utf8.encode mode) := by
  have hletters : ∀ m ∈ modes, Fold.lowerAscii '\n' ∉ m ∧ Fold.lowerAscii '\r' ∉ m := by decide
  refine isUnbroken_encode fun c hc => ?_
  have hlower : Fold.lowerAscii c ∈ mode.map Fold.lowerAscii := List.mem_map_of_mem hc
  constructor
  · rintro rfl
    exact (hletters _ h).1 hlower
  · rintro rfl
    exact (hletters _ h).2 hlower

theorem reports {mode : Text} (h : IsMode mode) (s : Script) :
    ReportsWhole instanceRuleName s (check mode s) := by
  simp only [check]
  split
  · exact reportsWhole_fileLevel (by decide)
  · refine reportsWhole_ite ?_
    exact isUnbroken_append.mpr
      ⟨isUnbroken_append.mpr ⟨by decide, h.isUnbroken⟩, by decide⟩

end RequireSingleInstance

/-! ### Lines -/

/-- The findings on lines are made line by line. -/
theorem TrailingWhitespace.findings_eq (s : Script) (number : ℕ) (lines : List Text) :
    findings s number lines = (lines.zipIdx number).filterMap fun l =>
      if isBad l.1 then some (finding s l.2) else none := by
  induction lines generalizing number with
  | nil => rfl
  | cons line lines ih =>
    rw [findings, List.zipIdx_cons, List.filterMap_cons, ih]
    by_cases h : isBad line = true
    · simp [h]
    · simp [h]

theorem TrailingWhitespace.reports (s : Script) : ReportsLines name s (check s) := by
  rw [check, findings_eq]
  refine reportsLines_filterMap fun l k d hd => ?_
  split_ifs at hd
  obtain rfl := Option.some.inj hd
  exact ⟨rfl, rfl, rfl, show IsUnbroken (bytes "trailing whitespace") by decide⟩

namespace UnusedFunctions

theorem isUnbroken_of_definedName? {line ident : Text} (h : definedName? line = some ident) :
    IsUnbroken (Utf8.encode ident) := by
  refine isUnbroken_encode fun c hc => ?_
  have hword := (isName_of_definedName? h).isWordChar c hc
  constructor
  all_goals rintro rfl; exact absurd hword (by decide)

theorem reports (s : Script) : ReportsLines name s (check s) := by
  simp only [check, definitions_eq, List.filter_filterMap, List.map_filterMap]
  refine reportsLines_filterMap fun l k d hd => ?_
  obtain ⟨definition, hdefinition, rfl⟩ := Option.map_eq_some_iff.mp hd
  obtain ⟨hdefinition, -⟩ := Option.filter_eq_some_iff.mp hdefinition
  obtain ⟨ident, hident, rfl⟩ := Option.map_eq_some_iff.mp hdefinition
  refine ⟨rfl, rfl, rfl, isUnbroken_append.mpr ⟨isUnbroken_append.mpr
    ⟨by decide, isUnbroken_of_definedName? hident⟩, by decide⟩⟩

end UnusedFunctions

/-! ### All rules -/

/-- **A rule of the linter reports in one of two shapes**, whatever it is told. -/
theorem reports_of_configure {rule configured : Rule} {e : RuleEntry}
    (hrule : rule ∈ Registry.standard.rules) (h : rule.configure e = .ok configured) (s : Script) :
    rule.name ∈ wholeScriptRules ∧ ReportsWhole rule.name s (configured.check s) ∨
      rule.name ∈ lineRules ∧ ReportsLines rule.name s (configured.check s) := by
  have hcheck := (isStandardCheck_of_configure hrule h).2
  generalize hname : rule.name = name, hc : configured.check = check at hcheck ⊢
  cases hcheck with
  | version version => exact .inl ⟨by decide, RequireVersion.reports version s⟩
  | singleInstance mode =>
    -- The mode comes from the settings that were accepted, or is the default one.
    obtain rfl : rule = RequireSingleInstance.rule :=
      Registry.eq_of_name_eq hrule (by simp [Registry.standard]) hname
    obtain ⟨mode', hmode', hsame⟩ : ∃ mode', RequireSingleInstance.IsMode mode' ∧
        configured.check = RequireSingleInstance.check mode' := by
      rcases Rule.configure_cases h with rfl | ⟨c, settings, check, hconf, happly, rfl⟩
      · exact ⟨_, RequireSingleInstance.isMode_default, rfl⟩
      · obtain rfl := Option.some.inj hconf
        exact RequireSingleInstance.exists_isMode_of_apply happly
    rw [← hc, hsame]
    exact .inl ⟨by decide, RequireSingleInstance.reports hmode' s⟩
  | warn => exact .inl ⟨by decide, RequireWarn.reports s⟩
  | trailingNewline => exact .inl ⟨by decide, TrailingNewline.reports s⟩
  | trailingWhitespace => exact .inr ⟨by decide, TrailingWhitespace.reports s⟩
  | unusedFunctions => exact .inr ⟨by decide, UnusedFunctions.reports s⟩

end ScriptLint
