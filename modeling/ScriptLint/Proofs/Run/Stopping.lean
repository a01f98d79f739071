import ScriptLint.Proofs.Config.Soundness
import ScriptLint.Proofs.Rule.RequireSingleInstance
import ScriptLint.Proofs.Rule.RequireVersion
import ScriptLint.Proofs.Rule.Settings
import ScriptLint.Proofs.Run.Validation

/-!
# Settings that stop the program

Two rules put a setting into a pattern, and the program stops where a pattern cannot be read. Modes
are words of letters, so theirs always can be (`RequireSingleInstance.compile?_of_mode?_eq_some`). A
version is any bytes, which are quoted but not looked at, and so its pattern can be read exactly if
they are UTF-8 (`RequireVersion.compile?_versionPattern_trimBytes`). Everything else that is wrong
with settings is told as an error. What a rule is told therefore stops the program exactly if it is
a version of stray bytes (`fatal_configure_iff`), and the check of all settings does so where it
comes upon such a version before any other error (`Runner.fatal_validate_iff`).
-/

namespace ScriptLint

/-- Whether settings stop a rule: they give a version that is not UTF-8, and nothing else. -/
def HasStrayVersion (rule : Rule) (settings : Option Settings) : Prop :=
  rule.name = versionRuleName ∧
    ∃ s, settings = some [(bytes "version", .text s)] ∧ Utf8.decode? s = none

/-- Whether the settings of an entry, if it has some, are a mapping. -/
def RuleEntry.HasMapping (e : RuleEntry) : Prop :=
  ∀ settings ∈ e.settings, Entries.IsDistinct settings

/-! ### The rule about the version -/

namespace RequireVersion

/-- **The pattern of a version can be read exactly if the setting is UTF-8.** -/
theorem compile?_versionPattern_trimBytes {s : Bytes} :
    Expression.compile? (versionPattern (trimBytes s)) = none ↔ Utf8.decode? s = none := by
  rw [compile?_versionPattern, Option.map_eq_none_iff, decode?_trimBytes_eq_none_iff]

theorem versionOf_singleton_eq_ok_iff {start version : Bytes} {value : Value} :
    versionOf start [(bytes "version", value)] = .ok version ↔
      ∃ s, value = .text s ∧ trimBytes s ≠ [] ∧ version = trimBytes s := by
  unfold versionOf
  rw [if_pos rfl]
  cases value with
  | text s =>
    by_cases hs : trimBytes s = []
    · simp [hs]
    · show (if trimBytes s = [] then _ else versionOf (trimBytes s) []) = _ ↔ _
      rw [if_neg hs]
      constructor
      · intro h
        exact ⟨s, rfl, hs, (Except.ok.inj h).symm⟩
      · rintro ⟨s', hs', -, rfl⟩
        cases hs'
        rfl
  | _ => simp

/-- **A version stops the program exactly if it is not UTF-8.** -/
theorem fatal_apply_iff {settings : Settings} (hsettings : Entries.IsDistinct settings)
    (hne : settings ≠ []) : (∃ e, apply settings = .error e ∧ e.isFatal = true) ↔
      ∃ s, settings = [(bytes "version", .text s)] ∧ Utf8.decode? s = none := by
  constructor
  · rintro ⟨e, happly, hfatal⟩
    cases hversion : versionOf (Utf8.encode defaultVersion) settings with
    | error e' =>
      -- What entries are refused for is told, so the error is not one of theirs.
      have hrefused : apply settings = .error e' := by
        rw [apply, hversion]
        rfl
      obtain rfl := Except.error.inj (happly.symm.trans hrefused)
      rw [versionOf_eq] at hversion
      rw [isPlain_setting.isFatal_of_valueOf hversion] at hfatal
      exact absurd hfatal (by decide)
    | ok version =>
      have hnames : ∀ s ∈ settings, s.1 = bytes "version" :=
        OneSetting.name_of_valueOf_eq_ok ((versionOf_eq _ settings).symm.trans hversion)
      obtain ⟨value, rfl⟩ := hsettings.exists_eq_singleton hne hnames
      obtain ⟨s, rfl, hblank, -⟩ := versionOf_singleton_eq_ok_iff.mp hversion
      refine ⟨s, rfl, decode?_trimBytes_eq_none_iff.mp ?_⟩
      rw [apply_version hblank] at happly
      cases hdecode : Utf8.decode? (trimBytes s) with
      | none => rfl
      | some t =>
        rw [hdecode] at happly
        cases happly
  · rintro ⟨s, rfl, hs⟩
    rw [← decode?_trimBytes_eq_none_iff] at hs
    have hblank : trimBytes s ≠ [] := by
      intro hblank
      rw [hblank] at hs
      exact absurd hs (by decide)
    refine ⟨.versionNotUtf8 (trimBytes s), ?_, rfl⟩
    rw [apply_version hblank, hs]

end RequireVersion

/-! ### The rule about the single instance -/

namespace RequireSingleInstance

/-- **The pattern of an accepted mode can be read.** -/
theorem compile?_of_mode?_eq_some {s : Bytes} {mode : Text} (h : mode? s = some mode) :
    Expression.compile? (modePattern s) = some (expression mode) := by
  obtain ⟨t, ht, h⟩ := Option.bind_eq_some_iff.mp h
  split_ifs at h
  obtain rfl := Option.some.inj h
  rw [compile?_modePattern, ht, Option.map_some]

theorem isFatal_of_apply {settings : Settings} {e : SettingsError}
    (h : apply settings = .error e) : e.isFatal = false := by
  rw [apply, map_eq_error_iff, modeOf_eq] at h
  exact isPlain_setting.isFatal_of_valueOf h

end RequireSingleInstance

/-! ### All rules -/

/-- Configuring a rule stops the program exactly if applying the settings does. -/
theorem Rule.fatal_configure_iff (rule : Rule) {settings : Settings} (hne : settings ≠ [])
    (enabled : Bool) :
    (∃ reason, rule.configure { enabled, settings := some settings } = .error reason ∧
      reason.isFatal = true) ↔
      ∃ c ∈ rule.configurable, ∃ e, c.apply settings = .error e ∧ e.isFatal = true := by
  rw [rule.configure_some hne]
  cases rule.configurable with
  | none => simp [ConfigureError.isFatal]
  | some c =>
    simp only [Option.elim_some, Option.mem_def, Option.some.injEq, exists_eq_left']
    cases c.apply settings with
    | ok check => simp [Except.map, Except.mapError]
    | error e => simp [Except.map, Except.mapError, ConfigureError.isFatal]

/-- **What a rule of the linter is told stops the program exactly if it is a version of stray
bytes.** -/
theorem fatal_configure_iff {rule : Rule} (hrule : rule ∈ Registry.standard.rules) {e : RuleEntry}
    (he : e.HasMapping) :
    (∃ reason, rule.configure e = .error reason ∧ reason.isFatal = true) ↔
      HasStrayVersion rule e.settings := by
  obtain ⟨enabled, settings⟩ := e
  have hplain (h : rule.configure { enabled, settings } = .ok rule)
      (hsettings : ∀ s, settings ≠ some [s]) :
      (∃ reason, rule.configure { enabled, settings } = .error reason ∧ reason.isFatal = true) ↔
        HasStrayVersion rule settings := by
    rw [h]
    exact iff_of_false (by simp) fun ⟨_, s, hs, _⟩ => hsettings _ hs
  match settings with
  | none => exact hplain rfl (by simp)
  | some [] => exact hplain rfl (by simp)
  | some (s :: ss) =>
    rw [rule.fatal_configure_iff (List.cons_ne_nil s ss), HasStrayVersion]
    simp only [Registry.standard, List.mem_cons, List.not_mem_nil, or_false] at hrule
    rcases hrule with rfl | rfl | rfl | rfl | rfl | rfl
    · have hversion := RequireVersion.fatal_apply_iff (he _ rfl) (List.cons_ne_nil s ss)
      simpa [RequireVersion.rule] using hversion
    · refine iff_of_false ?_ fun h => absurd h.1 (by decide)
      rintro ⟨c, hc, e, happly, hfatal⟩
      obtain rfl := Option.some.inj hc
      rw [RequireSingleInstance.isFatal_of_apply happly] at hfatal
      exact absurd hfatal (by decide)
    all_goals
      refine iff_of_false ?_ fun h => absurd h.1 (by decide)
      rintro ⟨c, hc, -⟩
      cases hc

/-! ### The check of all settings -/

namespace Runner

/-- The entries that the check of the settings looks at, in its order, each with its rule. -/
def entriesOn (r : Runner) : List (Rule × RuleEntry) :=
  r.rules.flatMap fun rule => r.tables.filterMap fun table =>
    ((table.get? rule.name).filter (·.enabled)).map fun e => (rule, e)

/-- Whether the settings in all tables are mappings, which holds of every configuration that is read
(`Runner.hasMappings_of_isSound`). -/
def HasMappings (r : Runner) : Prop := ∀ table ∈ r.tables, ∀ e ∈ table, e.2.HasMapping

variable {r : Runner}

/-- Settings that are read from a file are mappings. -/
theorem hasMappings_of_isSound (h : r.config.IsSound) : r.HasMappings := by
  intro table htable e he settings hsettings
  rcases List.mem_cons.mp htable with rfl | htable
  · exact (h.rules e he settings hsettings).isDistinct
  · obtain ⟨o, ho, rfl⟩ := List.mem_map.mp htable
    exact (h.overrides o ho e he settings hsettings).isDistinct

theorem validate_eq_forM (r : Runner) :
    r.validate = r.entriesOn.forM fun p => (p.1.configure p.2).map fun _ => () := by
  rw [entriesOn, forM_flatMap, validate]
  refine congrArg r.rules.forM (funext fun rule => ?_)
  rw [List.filterMap_eq_flatMap_toList, forM_flatMap]
  refine congrArg r.tables.forM (funext fun table => ?_)
  cases table.get? rule.name with
  | none => rfl
  | some e =>
    obtain ⟨enabled, settings⟩ := e
    cases enabled with
    | false => rfl
    | true =>
      dsimp only
      rw [if_pos rfl]
      show _ = (((rule.configure { enabled := true, settings }).map fun _ => ()) >>=
        fun _ => .ok ())
      cases rule.configure { enabled := true, settings } with
      | ok configured => rfl
      | error e => rfl

/-- **The check of the settings ends at the first entry that a rule refuses**, and its error is
what the rule says. -/
theorem validate_eq_error_iff {e : ConfigureError} :
    r.validate = .error e ↔ ∃ before p after, r.entriesOn = before ++ p :: after ∧
      (∀ q ∈ before, ∃ configured, q.1.configure q.2 = .ok configured) ∧
      p.1.configure p.2 = .error e := by
  simp only [validate_eq_forM, forM_eq_error_iff, map_eq_ok_iff, map_eq_error_iff, and_true]

/-- What the check looks at are entries of the tables for selected rules. -/
theorem of_mem_entriesOn {p : Rule × RuleEntry} (h : p ∈ r.entriesOn) :
    p.1 ∈ r.rules ∧ ∃ table ∈ r.tables, (p.1.name, p.2) ∈ table := by
  obtain ⟨rule, hrule, h⟩ := List.mem_flatMap.mp h
  obtain ⟨table, htable, h⟩ := List.mem_filterMap.mp h
  obtain ⟨e, he, rfl⟩ := Option.map_eq_some_iff.mp h
  obtain ⟨hget, -⟩ := Option.filter_eq_some_iff.mp he
  exact ⟨hrule, table, htable, Entries.mem_of_get?_eq_some hget⟩

/-- **The check of the settings stops the program** exactly if it comes upon a version of stray
bytes before any other error. -/
theorem fatal_validate_iff (hr : r.IsStandard) (hmappings : r.HasMappings) :
    (∃ e, r.validate = .error e ∧ e.isFatal = true) ↔
      ∃ before p after, r.entriesOn = before ++ p :: after ∧
        (∀ q ∈ before, ∃ configured, q.1.configure q.2 = .ok configured) ∧
        HasStrayVersion p.1 p.2.settings := by
  have hfatal {before after : List (Rule × RuleEntry)} {p : Rule × RuleEntry}
      (hsplit : r.entriesOn = before ++ p :: after) :
      (∃ e, p.1.configure p.2 = .error e ∧ e.isFatal = true) ↔
        HasStrayVersion p.1 p.2.settings := by
    have hp : p ∈ r.entriesOn := hsplit ▸ List.mem_append_right before List.mem_cons_self
    obtain ⟨hrule, table, htable, hentry⟩ := of_mem_entriesOn hp
    exact fatal_configure_iff (hr p.1 hrule) (hmappings table htable _ hentry)
  simp only [validate_eq_error_iff]
  constructor
  · rintro ⟨e, ⟨before, p, after, hsplit, hbefore, hp⟩, he⟩
    exact ⟨before, p, after, hsplit, hbefore, (hfatal hsplit).mp ⟨e, hp, he⟩⟩
  · rintro ⟨before, p, after, hsplit, hbefore, hstray⟩
    obtain ⟨e, hp, he⟩ := (hfatal hsplit).mpr hstray
    exact ⟨e, ⟨before, p, after, hsplit, hbefore, hp⟩, he⟩

end Runner

/-- **Settings stop the program by a version of stray bytes only.** What a rule is told leads to a
rule or to an error, unless it is the one setting of the version rule and its bytes are not UTF-8.
These are the versions of which, without white space around them, the pattern cannot be read, while
the pattern of every accepted mode can be. The check of all settings stops the program exactly if it
comes upon such a version before any other error. -/
theorem settings_stop_by_stray_version (r : Runner) (hr : r.IsStandard)
    (hmappings : r.HasMappings) :
    (∀ rule ∈ Registry.standard.rules, ∀ e : RuleEntry, e.HasMapping →
      ((∃ reason, rule.configure e = .error reason ∧ reason.isFatal = true) ↔
        HasStrayVersion rule e.settings)) ∧
    (∀ s, Expression.compile? (versionPattern (trimBytes s)) = none ↔ Utf8.decode? s = none) ∧
    (∀ s mode, RequireSingleInstance.mode? s = some mode →
      Expression.compile? (RequireSingleInstance.modePattern s)
        = some (RequireSingleInstance.expression mode)) ∧
    ((∃ e, r.validate = .error e ∧ e.isFatal = true) ↔
      ∃ before p after, r.entriesOn = before ++ p :: after ∧
        (∀ q ∈ before, ∃ configured, q.1.configure q.2 = .ok configured) ∧
        HasStrayVersion p.1 p.2.settings) := by
  refine ⟨fun rule hrule e he => fatal_configure_iff hrule he, ?_, ?_,
    r.fatal_validate_iff hr hmappings⟩
  · exact fun s => RequireVersion.compile?_versionPattern_trimBytes
  · exact fun s mode => RequireSingleInstance.compile?_of_mode?_eq_some

/-- A version that is accepted in the configuration and one with a stray byte in an override. -/
theorem settings_stop_by_stray_version_override :
    let accepted : RuleEntry :=
      { enabled := true, settings := some [(bytes "version", .text (bytes "v2"))] }
    let stray : RuleEntry :=
      { enabled := true, settings := some [(bytes "version", .text [0x20, 0x76, 0xFF])] }
    let r : Runner :=
      { config :=
          { rules := [(versionRuleName, accepted)]
            overrides := [{ files := [bytes "*"], rules := [(versionRuleName, stray)] }] }
        rules := [TrailingNewline.rule, RequireVersion.rule] }
    r.IsStandard ∧ r.HasMappings ∧
      (∃ reason, RequireVersion.rule.configure stray = .error reason ∧ reason.isFatal = true) ∧
      ∃ e, r.validate = .error e ∧ e.isFatal = true := by
  intro accepted stray r
  have hr : r.IsStandard := by simp [r, Runner.IsStandard, Registry.standard]
  have hmappings : r.HasMappings := by
    simp [Runner.HasMappings, Runner.tables, r, RuleEntry.HasMapping, accepted, stray,
      Entries.IsDistinct]
  have hstray : HasStrayVersion RequireVersion.rule stray.settings :=
    ⟨rfl, [0x20, 0x76, 0xFF], rfl, by decide⟩
  obtain ⟨hconfigure, -, -, hvalidate⟩ := settings_stop_by_stray_version r hr hmappings
  refine ⟨hr, hmappings, ?_, hvalidate.mpr ?_⟩
  · refine (hconfigure RequireVersion.rule (by simp [Registry.standard]) stray ?_).mpr hstray
    simp [RuleEntry.HasMapping, stray, Entries.IsDistinct]
  · exact ⟨[(RequireVersion.rule, accepted)], (RequireVersion.rule, stray), [], rfl,
      List.forall_mem_singleton.mpr ⟨_, rfl⟩, hstray⟩

/-- **One stray byte as the version stops the program**, already when the settings are checked. -/
theorem stray_version_stops :
    let settings : Settings := [(bytes "version", .text [0xFF])]
    let e : RuleEntry := { enabled := true, settings := some settings }
    let r : Runner :=
      { config := { rules := [(versionRuleName, e)] }, rules := [RequireVersion.rule] }
    Entries.IsDistinct settings ∧
      (∃ reason, RequireVersion.rule.configure e = .error reason ∧ reason.isFatal = true) ∧
      ∃ reason, r.validate = .error reason ∧ reason.isFatal = true := by
  intro settings e r
  refine ⟨by decide, ?_, ?_⟩
  · exact ⟨.refused versionRuleName (.versionNotUtf8 [0xFF]), rfl, rfl⟩
  · exact ⟨.refused versionRuleName (.versionNotUtf8 [0xFF]), rfl, rfl⟩

end ScriptLint
