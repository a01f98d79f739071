import ScriptLint.Proofs.Rule.Faults
import ScriptLint.Proofs.Run.Stopping

/-!
# Settings in another order

What the program makes of settings, be it by applying them, by configuring a rule or by checking all
of them beforehand, is the same in whatever order they are listed, unless two settings of one entry
are at fault. Then the entry is refused in every order, but the text of the error names the setting
that comes first (`order_shows_at_two_faults`).
-/

namespace ScriptLint

/-! ### Entries in another order -/

/-- Whether two entries are the same, with their settings listed in whatever order. -/
structure RuleEntry.Reordered (e e' : RuleEntry) : Prop where
  enabled : e'.enabled = e.enabled
  settings : Option.Rel List.Perm e.settings e'.settings

theorem RuleEntry.Reordered.refl (e : RuleEntry) : e.Reordered e := by
  obtain ⟨enabled, settings⟩ := e
  refine ⟨rfl, ?_⟩
  cases settings with
  | none => exact .none
  | some settings => exact .some (.refl settings)

theorem RuleEntry.Reordered.symm {e e' : RuleEntry} (h : e.Reordered e') : e'.Reordered e := by
  obtain ⟨enabled, settings⟩ := e
  obtain ⟨enabled', settings'⟩ := e'
  obtain ⟨rfl, hsettings⟩ := h
  refine ⟨rfl, ?_⟩
  cases hsettings with
  | none => exact .none
  | some hperm => exact .some hperm.symm

namespace Rule

variable {rule : Rule} {e e' : RuleEntry}

/-- Whether one setting of an entry at most is at fault. -/
def HasOneFault (rule : Rule) (e : RuleEntry) : Prop :=
  ∀ c ∈ rule.configurable, ∀ settings ∈ e.settings, c.HasOneFault settings

/-- **An entry with one fault at most is taken alike in every order.** -/
theorem configure_reordered (hrule : ∀ c ∈ rule.configurable, c.ReadsOneByOne) (he : e.HasMapping)
    (hone : rule.HasOneFault e) (h : e.Reordered e') : rule.configure e' = rule.configure e := by
  obtain ⟨enabled, settings⟩ := e
  obtain ⟨enabled', settings'⟩ := e'
  obtain ⟨rfl, hsettings⟩ := h
  cases hsettings with
  | none => rfl
  | @some ss ss' hperm =>
    by_cases hne : ss = []
    · subst hne
      rw [hperm.nil_eq]
    · have hne' : ss' ≠ [] := fun h => hne (List.perm_nil.mp (h ▸ hperm))
      rw [configure_some rule hne, configure_some rule hne']
      cases hc : rule.configurable with
      | none => rfl
      | some c =>
        rw [Option.elim_some, Option.elim_some,
          (hrule c hc).apply_perm (he ss rfl) (hone c hc ss rfl) hperm]

/-- An entry with two faults, as settings of a rule that takes some. -/
theorem exists_of_two_faults (htwo : ¬ rule.HasOneFault e) : ∃ c settings,
    rule.configurable = some c ∧ e.settings = some settings ∧ settings ≠ [] ∧
      ¬ c.HasOneFault settings := by
  simp only [HasOneFault, not_forall] at htwo
  obtain ⟨c, hc, settings, hsettings, htwo⟩ := htwo
  refine ⟨c, settings, hc, hsettings, ?_, htwo⟩
  rintro rfl
  exact htwo fun _ h => absurd h List.not_mem_nil

theorem configure_eq_error_of_apply {c : Configurable} {settings : Settings}
    {reason : SettingsError}
    (hc : rule.configurable = some c) (hsettings : e.settings = some settings)
    (hne : settings ≠ []) (h : c.apply settings = .error reason) :
    rule.configure e = .error (.refused rule.name reason) := by
  obtain ⟨enabled, _⟩ := e
  obtain rfl := hsettings
  rw [configure_some rule hne, hc, Option.elim_some, h]
  rfl

/-- **An entry with two faults is refused in every order**, and told to be. -/
theorem refused_of_two_faults (hrule : ∀ c ∈ rule.configurable, c.ReadsOneByOne)
    (htwo : ¬ rule.HasOneFault e) :
    ∃ reason, rule.configure e = .error reason ∧ reason.isFatal = false := by
  obtain ⟨c, settings, hc, hsettings, hne, htwo⟩ := exists_of_two_faults htwo
  obtain ⟨reason, happly, hfatal⟩ := (hrule c hc).refused_of_two_faults htwo
  exact ⟨_, configure_eq_error_of_apply hc hsettings hne happly, hfatal⟩

/-- **Of an entry with two faults some order is told otherwise.** -/
theorem exists_reordered_message_ne (hrule : ∀ c ∈ rule.configurable, c.ReadsOneByOne)
    (he : e.HasMapping) (htwo : ¬ rule.HasOneFault e) :
    ∃ e' reason reason', e.Reordered e' ∧ rule.configure e = .error reason ∧
      rule.configure e' = .error reason' ∧ reason'.message ≠ reason.message := by
  obtain ⟨c, settings, hc, hsettings, hne, htwo⟩ := exists_of_two_faults htwo
  obtain ⟨settings', reason, reason', hperm, happly, happly', hfatal', hmessage⟩ :=
    (hrule c hc).exists_perm_message_ne (he settings hsettings) htwo
  have hne' : settings' ≠ [] := fun h => hne (List.perm_nil.mp (h ▸ hperm))
  refine ⟨{ e with settings := some settings' }, _, _, ⟨rfl, hsettings ▸ .some hperm⟩,
    configure_eq_error_of_apply hc hsettings hne happly,
    configure_eq_error_of_apply hc rfl hne' happly', ?_⟩
  obtain ⟨reason₀, happly₀, hfatal⟩ := (hrule c hc).refused_of_two_faults htwo
  obtain rfl := Except.error.inj (happly₀.symm.trans happly)
  intro hsame
  rw [ConfigureError.message, ConfigureError.message, hfatal, hfatal'] at hsame
  exact hmessage (List.append_cancel_left hsame)

theorem HasOneFault.reordered (hone : rule.HasOneFault e) (h : e.Reordered e') :
    rule.HasOneFault e' := by
  obtain ⟨enabled, settings⟩ := e
  obtain ⟨enabled', settings'⟩ := e'
  obtain ⟨-, hsettings⟩ := h
  cases hsettings with
  | none => exact fun c hc settings hs => nomatch hs
  | @some ss ss' hperm =>
    rintro c hc _ ⟨⟩
    exact (hone c hc ss rfl).perm hperm

/-- **An entry is accepted in every order as the same rule, or in none.** -/
theorem configure_eq_ok_iff_of_reordered (hrule : ∀ c ∈ rule.configurable, c.ReadsOneByOne)
    (he : e.HasMapping) (h : e.Reordered e') {configured : Rule} :
    rule.configure e' = .ok configured ↔ rule.configure e = .ok configured := by
  -- With two faults both orders are refused, for whatever reasons.
  by_cases hone : rule.HasOneFault e
  · rw [configure_reordered hrule he hone h]
  · obtain ⟨reason, hreason, -⟩ := refused_of_two_faults hrule hone
    obtain ⟨reason', hreason', -⟩ := refused_of_two_faults hrule
      fun hone' => hone (hone'.reordered h.symm)
    rw [hreason, hreason']
    exact iff_of_false (fun h => nomatch h) fun h => nomatch h

end Rule

/-! ### The check of all settings in another order -/

namespace Runner

variable {r r' : Runner}

/-- Whether two runners have the same rules and the same tables, listed in whatever order, with
settings listed in whatever order. -/
structure Reordered (r r' : Runner) : Prop where
  rules : r'.rules = r.rules
  tables : List.Forall₂ (Entries.Alike RuleEntry.Reordered) r.tables r'.tables

/-- Whether the first entry that is refused, if there is one, has one fault. -/
def EndsAtOneFault (r : Runner) : Prop :=
  ∀ before p after, r.entriesOn = before ++ p :: after →
    (∀ q ∈ before, ∃ configured, q.1.configure q.2 = .ok configured) → p.1.HasOneFault p.2

theorem forall₂_get? {R : RuleEntry → RuleEntry → Prop} {tables tables' : List (Entries RuleEntry)}
    (h : List.Forall₂ (Entries.Alike R) tables tables')
    (hdistinct : ∀ table ∈ tables, table.IsDistinct) :
    List.Forall₂ (fun table table' => ∀ name, Option.Rel R (table.get? name) (table'.get? name))
      tables tables' := by
  induction h with
  | nil => exact .nil
  | cons htable _ ih =>
    rw [List.forall_mem_cons] at hdistinct
    exact .cons (htable.get? hdistinct.1) (ih hdistinct.2)

/-- What the check looks at is related as the tables are. -/
theorem forall₂_entriesOn {R : RuleEntry → RuleEntry → Prop}
    (hR : ∀ e e', R e e' → e'.enabled = e.enabled) (hrules : r'.rules = r.rules)
    (htables : List.Forall₂ (fun table table' => ∀ name,
      Option.Rel R (table.get? name) (table'.get? name)) r.tables r'.tables) :
    List.Forall₂ (fun p p' => p'.1 = p.1 ∧ R p.2 p'.2) r.entriesOn r'.entriesOn := by
  rw [entriesOn, entriesOn, hrules]
  refine List.rel_flatMap (List.forall₂_same.mpr fun _ _ => rfl : List.Forall₂ Eq _ _) ?_
  rintro rule _ rfl
  refine List.rel_filterMap ?_ htables
  intro table table' htable
  have hget := htable rule.name
  dsimp only
  generalize table.get? rule.name = entry, table'.get? rule.name = entry' at hget ⊢
  cases hget with
  | none => exact .none
  | @some e e' he =>
    rw [Option.filter_some, Option.filter_some, hR e e' he]
    split_ifs
    · exact .some ⟨rfl, he⟩
    · exact .none

/-- **A check of the settings that ends at one fault at most is told alike in every order.** -/
theorem validate_reordered (hr : ∀ rule ∈ r.rules, ∀ c ∈ rule.configurable, c.ReadsOneByOne)
    (hmappings : r.HasMappings) (hdistinct : ∀ table ∈ r.tables, table.IsDistinct)
    (hone : r.EndsAtOneFault) (h : r.Reordered r') : r'.validate = r.validate := by
  have hentries := forall₂_entriesOn (R := RuleEntry.Reordered) (fun _ _ he => he.enabled) h.rules
    (forall₂_get? h.tables hdistinct)
  rw [validate_eq_forM, validate_eq_forM]
  -- An entry behind the first one that is refused is not reached, and may have two faults.
  refine forM_eq_of_reached hentries fun before p after p' hsplit hbefore hp => ?_
  have hmem : p ∈ r.entriesOn := hsplit ▸ List.mem_append_right before List.mem_cons_self
  obtain ⟨hrule, table, htable, hentry⟩ := of_mem_entriesOn hmem
  have haccepted : ∀ q ∈ before, ∃ configured, q.1.configure q.2 = .ok configured := by
    intro q hq
    obtain ⟨configured, hconfigured, -⟩ := map_eq_ok_iff.mp (hbefore q hq)
    exact ⟨configured, hconfigured⟩
  rw [hp.1, Rule.configure_reordered (hr _ hrule) (hmappings table htable _ hentry)
    (hone before p after hsplit haccepted) hp.2]

/-- The runner with other settings under the same names. -/
def mapEntries (r : Runner) (f : RuleEntry → RuleEntry) : Runner :=
  let onTable (table : Entries RuleEntry) := table.map fun e => (e.1, f e.2)
  { r with
    config :=
      { r.config with
        rules := onTable r.config.rules
        overrides := r.config.overrides.map fun o => { o with rules := onTable o.rules } } }

theorem tables_mapEntries (r : Runner) (f : RuleEntry → RuleEntry) :
    (r.mapEntries f).tables = r.tables.map (·.map fun e => (e.1, f e.2)) := by
  simp [tables, mapEntries, Function.comp_def]

theorem entriesOn_mapEntries (r : Runner) {f : RuleEntry → RuleEntry}
    (hf : ∀ e, (f e).enabled = e.enabled) :
    (r.mapEntries f).entriesOn = r.entriesOn.map fun p => (p.1, f p.2) := by
  have htables : List.Forall₂ (fun table table' => ∀ name,
      Option.Rel (fun e e' => e' = f e) (table.get? name) (table'.get? name))
      r.tables (r.mapEntries f).tables := by
    rw [tables_mapEntries, List.forall₂_map_right_iff, List.forall₂_same]
    intro table _ name
    rw [Entries.get?_map]
    cases table.get? name with
    | none => exact .none
    | some e => exact .some rfl
  have hrules : (r.mapEntries f).rules = r.rules := rfl
  have hentries := forall₂_entriesOn (R := fun e e' => e' = f e) (fun e _ he => he ▸ hf e) hrules
    htables
  have hsame : List.Forall₂ Eq (r.entriesOn.map fun p => (p.1, f p.2)) (r.mapEntries f).entriesOn :=
    List.forall₂_map_left_iff.mpr (hentries.imp fun _ _ hp => (Prod.ext hp.1 hp.2).symm)
  rw [List.forall₂_eq_eq_eq] at hsame
  exact hsame.symm

/-- Settings can be listed in another order. -/
theorem reordered_mapEntries {f : RuleEntry → RuleEntry} (hf : ∀ e : RuleEntry, e.Reordered (f e)) :
    r.Reordered (r.mapEntries f) := by
  refine ⟨rfl, ?_⟩
  rw [tables_mapEntries, List.forall₂_map_right_iff, List.forall₂_same]
  intro table _
  refine ⟨table, .refl _, ?_⟩
  rw [List.forall₂_map_right_iff, List.forall₂_same]
  exact fun e _ => ⟨rfl, hf e.2⟩

/-- **Of a check of the settings that ends at two faults some order is told otherwise.** -/
theorem exists_reordered_message_ne
    (hr : ∀ rule ∈ r.rules, ∀ c ∈ rule.configurable, c.ReadsOneByOne)
    (hmappings : r.HasMappings) (htwo : ¬ r.EndsAtOneFault) :
    ∃ r' e e', r.Reordered r' ∧ r.validate = .error e ∧ r'.validate = .error e' ∧
      e'.message ≠ e.message := by
  classical
  simp only [EndsAtOneFault, not_forall] at htwo
  obtain ⟨before, p, after, hsplit, hbefore, htwo⟩ := htwo
  have hmapping {q : Rule × RuleEntry} (hq : q ∈ r.entriesOn) :
      (∀ c ∈ q.1.configurable, c.ReadsOneByOne) ∧ q.2.HasMapping := by
    obtain ⟨hrule, table, htable, hentry⟩ := of_mem_entriesOn hq
    exact ⟨hr _ hrule, hmappings table htable _ hentry⟩
  obtain ⟨hrule, he⟩ :=
    hmapping (hsplit ▸ List.mem_append_right before List.mem_cons_self : p ∈ r.entriesOn)
  obtain ⟨e', reason, reason', hreordered, hreason, hreason', hmessage⟩ :=
    Rule.exists_reordered_message_ne hrule he htwo
  -- The entry is put in the other order wherever it stands.
  let f (e : RuleEntry) : RuleEntry := if e = p.2 then e' else e
  have hf (e : RuleEntry) : e.Reordered (f e) := by
    by_cases h : e = p.2
    · rw [show f e = e' from if_pos h, h]
      exact hreordered
    · rw [show f e = e from if_neg h]
      exact .refl e
  refine ⟨r.mapEntries f, reason, reason', reordered_mapEntries hf, ?_, ?_, hmessage⟩
  · exact validate_eq_error_iff.mpr ⟨before, p, after, hsplit, hbefore, hreason⟩
  · refine validate_eq_error_iff.mpr
      ⟨before.map fun q => (q.1, f q.2), (p.1, f p.2), after.map fun q => (q.1, f q.2), ?_, ?_, ?_⟩
    · rw [entriesOn_mapEntries r fun e => (hf e).enabled, hsplit, List.map_append, List.map_cons]
    · rw [List.forall_mem_map]
      intro q hq
      obtain ⟨configured, hconfigured⟩ := hbefore q hq
      obtain ⟨hq, hqe⟩ := hmapping (hsplit ▸ List.mem_append_left _ hq : q ∈ r.entriesOn)
      exact ⟨configured, (Rule.configure_eq_ok_iff_of_reordered hq hqe (hf _)).mpr hconfigured⟩
    · show p.1.configure (if p.2 = p.2 then e' else p.2) = _
      rw [if_pos rfl, hreason']

/-- The settings pass in every order or in none. -/
theorem validate_eq_ok_iff_of_reordered
    (hr : ∀ rule ∈ r.rules, ∀ c ∈ rule.configurable, c.ReadsOneByOne)
    (hmappings : r.HasMappings) (hdistinct : ∀ table ∈ r.tables, table.IsDistinct)
    (h : r.Reordered r') : r'.validate = .ok () ↔ r.validate = .ok () := by
  have hentries := forall₂_entriesOn (R := RuleEntry.Reordered) (fun _ _ he => he.enabled) h.rules
    (forall₂_get? h.tables hdistinct)
  have haccepted : ∀ p ∈ r.entriesOn, ∀ p' : Rule × RuleEntry, p'.1 = p.1 ∧ p.2.Reordered p'.2 →
      ((∃ configured, p'.1.configure p'.2 = .ok configured) ↔
        ∃ configured, p.1.configure p.2 = .ok configured) := by
    intro p hp p' hrel
    obtain ⟨hrule, table, htable, hentry⟩ := of_mem_entriesOn hp
    rw [hrel.1]
    exact exists_congr fun configured => Rule.configure_eq_ok_iff_of_reordered (hr _ hrule)
      (hmappings table htable _ hentry) hrel.2
  simp only [validate_eq_forM, forM_eq_ok_iff, map_eq_ok_iff, and_true]
  generalize r.entriesOn = entries, r'.entriesOn = entries' at hentries haccepted
  induction hentries with
  | nil => rfl
  | cons hp _ ih =>
    rw [List.forall_mem_cons] at haccepted
    rw [List.forall_mem_cons, List.forall_mem_cons]
    exact and_congr (haccepted.1 _ hp) (ih haccepted.2)

end Runner

/-! ### What the order decides -/

/-- Whether something is told in the same way however it is listed, unless two of its parts are at
fault: every way to list it is accepted with one result or none is, and if two parts are at fault
some way to list it is refused in other words. -/
structure ShowsOrderUnless {ι ε α : Type} (listing : ι → ι → Prop) (outcome : ι → Except ε α)
    (message : ε → Bytes) (x : ι) (oneFault : Prop) : Prop where
  accepted (y : ι) (h : listing x y) (a : α) : outcome y = .ok a ↔ outcome x = .ok a
  same (hone : oneFault) (y : ι) (h : listing x y) : outcome y = outcome x
  told (htwo : ¬ oneFault) :
    ∃ y, listing x y ∧ (outcome y).mapError message ≠ (outcome x).mapError message

theorem Configurable.ReadsOneByOne.showsOrderUnless {c : Configurable} (hc : c.ReadsOneByOne)
    {settings : Settings} (hsettings : Entries.IsDistinct settings) :
    ShowsOrderUnless List.Perm c.apply SettingsError.message settings (c.HasOneFault settings) where
  accepted settings' h check := by
    by_cases hone : c.HasOneFault settings
    · rw [hc.apply_perm hsettings hone h]
    · obtain ⟨e, he, -⟩ := hc.refused_of_two_faults hone
      obtain ⟨e', he', -⟩ := hc.refused_of_two_faults fun hone' => hone (hone'.perm h.symm)
      rw [he, he']
      exact iff_of_false (fun h => nomatch h) fun h => nomatch h
  same hone settings' h := hc.apply_perm hsettings hone h
  told htwo := by
    obtain ⟨settings', e, e', hperm, he, he', -, hmessage⟩ :=
      hc.exists_perm_message_ne hsettings htwo
    exact ⟨settings', hperm, mapError_ne he he' hmessage⟩

/-- **The order of settings shows exactly if two of them are at fault.** -/
theorem order_shows_at_two_faults (r : Runner) (hr : r.IsStandard) (hmappings : r.HasMappings)
    (hdistinct : ∀ table ∈ r.tables, table.IsDistinct) :
    (∀ rule ∈ Registry.standard.rules, ∀ c ∈ rule.configurable, ∀ settings,
      Entries.IsDistinct settings → ShowsOrderUnless List.Perm c.apply SettingsError.message settings
        (c.HasOneFault settings)) ∧
    (∀ rule ∈ Registry.standard.rules, ∀ e : RuleEntry, e.HasMapping →
      ShowsOrderUnless RuleEntry.Reordered rule.configure ConfigureError.message e
        (rule.HasOneFault e)) ∧
    ShowsOrderUnless Runner.Reordered Runner.validate ConfigureError.message r r.EndsAtOneFault := by
  have hstandard {rule : Rule} (hrule : rule ∈ Registry.standard.rules) :
      ∀ c ∈ rule.configurable, c.ReadsOneByOne :=
    fun c hc => Registry.readsOneByOne_standard hrule hc
  refine ⟨fun rule hrule c hc settings hsettings =>
    (hstandard hrule c hc).showsOrderUnless hsettings, fun rule hrule e he => ?_, ?_⟩
  · refine ⟨fun e' h configured => Rule.configure_eq_ok_iff_of_reordered (hstandard hrule) he h,
      fun hone e' h => Rule.configure_reordered (hstandard hrule) he hone h, fun htwo => ?_⟩
    obtain ⟨e', reason, reason', hreordered, hreason, hreason', hmessage⟩ :=
      Rule.exists_reordered_message_ne (hstandard hrule) he htwo
    exact ⟨e', hreordered, mapError_ne hreason hreason' hmessage⟩
  · have hrules : ∀ rule ∈ r.rules, ∀ c ∈ rule.configurable, c.ReadsOneByOne :=
      fun rule hrule => hstandard (hr rule hrule)
    refine ⟨fun r' h _ => Runner.validate_eq_ok_iff_of_reordered hrules hmappings hdistinct h,
      fun hone r' h => Runner.validate_reordered hrules hmappings hdistinct hone h, fun htwo => ?_⟩
    obtain ⟨r', e, e', hreordered, he, he', hmessage⟩ :=
      Runner.exists_reordered_message_ne hrules hmappings htwo
    exact ⟨r', hreordered, mapError_ne he he' hmessage⟩

/-- Two settings with a fault between them, in whatever order, and an override with two faults
behind an entry that is accepted. -/
theorem order_shows_at_two_faults_override :
    let version : Bytes × Value := (bytes "version", .text (bytes "2.1"))
    let minor : Bytes × Value := (bytes "minor", .int 1)
    let major : Bytes × Value := (bytes "major", .int 2)
    let accepted : RuleEntry :=
      { enabled := true, settings := some [(bytes "mode", .text (bytes "Off"))] }
    let refused : RuleEntry := { enabled := true, settings := some [version, minor, major] }
    let r : Runner :=
      { config :=
          { rules := [(instanceRuleName, accepted)]
            overrides := [{ files := [bytes "*"], rules := [(versionRuleName, refused)] }] }
        rules := [RequireSingleInstance.rule, RequireVersion.rule] }
    r.IsStandard ∧ r.HasMappings ∧ (∀ table ∈ r.tables, table.IsDistinct) ∧
      RequireVersion.apply [minor, version] = RequireVersion.apply [version, minor] ∧
      ∃ r', r.Reordered r' ∧
        r'.validate.mapError ConfigureError.message ≠ r.validate.mapError ConfigureError.message := by
  intro version minor major accepted refused r
  let c : Configurable :=
    { defaults := [(bytes "version", .text (Utf8.encode RequireVersion.defaultVersion))]
      apply := RequireVersion.apply }
  have hr : r.IsStandard := by simp [r, Runner.IsStandard, Registry.standard]
  have hmappings : r.HasMappings := by
    refine List.forall_mem_cons.mpr ⟨?_, List.forall_mem_singleton.mpr ?_⟩
    · refine List.forall_mem_singleton.mpr ?_
      rintro _ ⟨⟩
      exact List.nodup_singleton _
    · refine List.forall_mem_singleton.mpr ?_
      rintro _ ⟨⟩
      decide
  have hdistinct : ∀ table ∈ r.tables, table.IsDistinct :=
    List.forall_mem_cons.mpr ⟨List.nodup_singleton _,
      List.forall_mem_singleton.mpr (List.nodup_singleton _)⟩
  obtain ⟨happly, -, hvalidate⟩ := order_shows_at_two_faults r hr hmappings hdistinct
  have hversion : c.fault? version = none := by decide
  have hfault {key : Bytes} (hkey : key ≠ bytes "version") (value : Value) :
      c.fault? (key, value) = some (.unknownSetting versionRuleName key) := by
    simp [Configurable.fault?, c, RequireVersion.apply, RequireVersion.versionOf, hkey, bind,
      Except.bind, SettingsError.isFatal]
  -- Only one of the two settings of the rule is at fault, and two of the three of the override are.
  have hone : c.HasOneFault [version, minor] := by
    rintro s hs t ht hfault hfault'
    simp only [List.mem_cons, List.not_mem_nil, or_false] at hs ht
    rcases hs with rfl | rfl
    · exact absurd hversion hfault
    · rcases ht with rfl | rfl
      · exact absurd hversion hfault'
      · rfl
  have htwo : ¬ r.EndsAtOneFault := by
    intro hend
    have honce := hend [(RequireSingleInstance.rule, accepted)] (RequireVersion.rule, refused) [] rfl
      (List.forall_mem_singleton.mpr ⟨_, rfl⟩) c rfl _ rfl
    have hsame := honce minor (by simp) major (by simp)
      (by rw [hfault (by decide)]; exact Option.some_ne_none _)
      (by rw [hfault (by decide)]; exact Option.some_ne_none _)
    exact absurd (congrArg Prod.fst hsame) (by decide)
  refine ⟨hr, hmappings, hdistinct, ?_, hvalidate.told htwo⟩
  exact (happly RequireVersion.rule (by simp [Registry.standard]) c rfl [version, minor]
    (by decide)).same hone _ (List.Perm.swap _ _ _)

/-- **Two settings at fault, and the order decides which of them is told.** -/
theorem order_of_faults_shows :
    let minor : Bytes × Value := (bytes "minor", .int 1)
    let major : Bytes × Value := (bytes "major", .int 2)
    let entry (settings : Settings) : RuleEntry := { enabled := true, settings := some settings }
    let runner (settings : Settings) : Runner :=
      { config := { rules := [(versionRuleName, entry settings)] }, rules := [RequireVersion.rule] }
    let told (name : Bytes) : Bytes :=
      bytes "applying settings for require_ahk_version: require_ahk_version: unknown setting "
        ++ Quoted.quote name
    Entries.IsDistinct [minor, major] ∧ [minor, major].Perm [major, minor] ∧
      (RequireVersion.rule.configure (entry [minor, major])).mapError ConfigureError.message
        = .error (told (bytes "minor")) ∧
      (RequireVersion.rule.configure (entry [major, minor])).mapError ConfigureError.message
        = .error (told (bytes "major")) ∧
      (runner [minor, major]).validate.mapError ConfigureError.message
        = .error (told (bytes "minor")) ∧
      (runner [major, minor]).validate.mapError ConfigureError.message
        = .error (told (bytes "major")) ∧
      told (bytes "minor") ≠ told (bytes "major") := by
  intro minor major entry runner told
  -- The first setting is refused, so what stands behind it is not looked at.
  have hconfigure (key : Bytes) (hkey : key ≠ bytes "version") (value : Value) (rest : Settings) :
      RequireVersion.rule.configure (entry ((key, value) :: rest))
        = .error (.refused versionRuleName (.unknownSetting versionRuleName key)) := by
    rw [RequireVersion.rule.configure_some (List.cons_ne_nil _ _)]
    simp [RequireVersion.rule, RequireVersion.apply, RequireVersion.versionOf, hkey, bind,
      Except.bind, Except.mapError, Except.map]
  have hvalidate {settings : Settings} {e : ConfigureError}
      (h : RequireVersion.rule.configure (entry settings) = .error e) :
      (runner settings).validate = .error e :=
    Runner.validate_eq_error_iff.mpr
      ⟨[], (RequireVersion.rule, entry settings), [], rfl, List.forall_mem_nil _, h⟩
  have hminor := hconfigure (bytes "minor") (by decide) (.int 1) [major]
  have hmajor := hconfigure (bytes "major") (by decide) (.int 2) [minor]
  have htold : (ConfigureError.refused versionRuleName
        (.unknownSetting versionRuleName (bytes "minor"))).message = told (bytes "minor") ∧
      (ConfigureError.refused versionRuleName
        (.unknownSetting versionRuleName (bytes "major"))).message = told (bytes "major") := by
    decide
  refine ⟨by decide, .swap _ _ _, ?_, ?_, ?_, ?_, by decide⟩
  · exact (congrArg _ hminor).trans (congrArg Except.error htold.1)
  · exact (congrArg _ hmajor).trans (congrArg Except.error htold.2)
  · exact (congrArg _ (hvalidate hminor)).trans (congrArg Except.error htold.1)
  · exact (congrArg _ (hvalidate hmajor)).trans (congrArg Except.error htold.2)

end ScriptLint
