import ScriptLint.Proofs.Rule.Findings
import ScriptLint.Proofs.Rule.OneSetting
import ScriptLint.Rule.Object

/-!
# Objects forget their history

The objects of the two rules with settings do what the rules do (`RuleObject.Realizes`). Applying
settings is a loop over the entries that leaves the fields as they are (`OneSetting.run_forIn`),
with everything that is set behind it. So settings that are refused leave no trace, and settings
that are accepted leave none of what was before: among settings that are applied one after the
other, be it to one object or to copies of copies, the last ones decide
(`settings_are_taken_as_a_whole`).
-/

namespace ScriptLint

/-! ### Reading the entries -/

namespace OneSetting

variable {α σ : Type}

/-- What is computed without touching the fields of an object. -/
def leaving (fields : σ) : Except SettingsError α → EStateM.Result SettingsError σ α
  | .ok a => .ok a fields
  | .error e => .error e fields

/-- **A loop over settings leaves the fields**, if what it does with an entry does, and gives the
value that the settings give. -/
theorem run_forIn {o : OneSetting α}
    {body : Bytes × Value → α → EStateM SettingsError σ (ForInStep α)}
    (hbody : ∀ s a fields, (body s a).run fields = leaving fields ((o.step s).map .yield))
    (settings : Settings) (a : α) (fields : σ) :
    (forIn settings a body).run fields = leaving fields (o.valueOf a settings) := by
  -- On the settings, for every value read so far. The fields are the same all along.
  induction settings generalizing a with
  | nil => rfl
  | cons s rest ih =>
    rw [List.forIn_cons, EStateM.run_bind, hbody, valueOf]
    cases o.step s with
    | error e => rfl
    | ok a' => exact ih a'

end OneSetting

namespace RequireVersion

theorem run_take (settings : Settings) (fields : Fields) :
    (take settings).run fields = match setting.valueOf (Utf8.encode defaultVersion) settings with
      | .error e => .error e fields
      | .ok version => match Utf8.decode? version with
        | some t => .ok () { fields with pattern := some t }
        | none => .error (.versionNotUtf8 version) fields := by
  unfold take
  rw [EStateM.run_bind, OneSetting.run_forIn (o := setting)]
  · cases setting.valueOf (Utf8.encode defaultVersion) settings with
    | error e => rfl
    | ok version =>
      dsimp only [OneSetting.leaving]
      cases Utf8.decode? version with
      | none => rfl
      | some t => rfl
  · rintro ⟨key, value⟩ version fields
    unfold OneSetting.step
    show _ = OneSetting.leaving fields ((if key = bytes "version" then readVersion value
      else .error (.unknownSetting versionRuleName key)).map ForInStep.yield)
    dsimp only
    split_ifs
    · cases value with
      | text s =>
        unfold readVersion
        dsimp only
        split_ifs
        · rfl
        · rfl
      | _ => rfl
    · rfl

end RequireVersion

namespace RequireSingleInstance

theorem run_take (settings : Settings) (fields : Fields) :
    (take settings).run fields = match setting.valueOf defaultMode settings with
      | .error e => .error e fields
      | .ok mode => .ok () { mode, modePattern := some mode } := by
  unfold take
  rw [EStateM.run_bind, OneSetting.run_forIn (o := setting)]
  · cases setting.valueOf defaultMode settings with
    | error e => rfl
    | ok mode => rfl
  · rintro ⟨key, value⟩ mode fields
    unfold OneSetting.step
    show _ = OneSetting.leaving fields ((if key = bytes "mode" then readMode value
      else .error (.unknownSetting instanceRuleName key)).map ForInStep.yield)
    dsimp only
    split_ifs
    · cases value with
      | text s =>
        unfold readMode
        dsimp only
        cases mode? s with
        | none => rfl
        | some m => rfl
      | _ => rfl
    · rfl

end RequireSingleInstance

/-! ### Objects and rules -/

namespace RuleObject

variable {σ : Type}

/-- Whether objects do what a rule does. A new object has the check of the rule. Settings that the
rule refuses are refused without a trace and for the same reason, and settings that it accepts give
an object the check that they give the rule, whatever its fields are. -/
structure Realizes (o : RuleObject σ) (rule : Rule) (c : Configurable) : Prop where
  name : o.name = rule.name
  configurable : rule.configurable = some c
  defaults (fields : σ) : o.defaults fields = c.defaults
  blank : o.check o.blank = rule.check
  refused (settings : Settings) (e : SettingsError) (h : c.apply settings = .error e) (fields : σ) :
    (o.take settings).run fields = .error e fields
  accepted (settings : Settings) (check : Check) (h : c.apply settings = .ok check) (fields : σ) :
    ∃ fields', (o.take settings).run fields = .ok () fields' ∧ o.check fields' = check

end RuleObject

namespace RequireVersion

theorem realizes_object : object.Realizes rule
    { defaults := [(bytes "version", .text (Utf8.encode defaultVersion))], apply } where
  name := rfl
  configurable := rfl
  defaults _ := rfl
  blank := rfl
  refused settings e h fields := by
    have happly : (setting.valueOf (Utf8.encode defaultVersion) settings >>= checkFor) = .error e :=
      (congrFun apply_eq settings).symm.trans h
    show (take settings).run fields = _
    rw [run_take]
    rcases bind_eq_error_iff.mp happly with hvalue | ⟨version, hvalue, hfinish⟩
    · rw [hvalue]
    · rw [hvalue]
      unfold checkFor at hfinish
      dsimp only
      cases hdecode : Utf8.decode? version with
      | some t =>
        rw [hdecode] at hfinish
        cases hfinish
      | none =>
        rw [hdecode] at hfinish
        obtain rfl := Except.error.inj hfinish
        rfl
  accepted settings check h fields := by
    have happly :
        (setting.valueOf (Utf8.encode defaultVersion) settings >>= checkFor) = .ok check :=
      (congrFun apply_eq settings).symm.trans h
    obtain ⟨version, hvalue, hfinish⟩ := bind_eq_ok_iff.mp happly
    show ∃ fields', (take settings).run fields = _ ∧ _
    rw [run_take, hvalue]
    unfold checkFor at hfinish
    dsimp only
    cases hdecode : Utf8.decode? version with
    | none =>
      rw [hdecode] at hfinish
      cases hfinish
    | some t =>
      rw [hdecode] at hfinish
      exact ⟨_, rfl, Except.ok.inj hfinish⟩

end RequireVersion

namespace RequireSingleInstance

/-- An object with a mode, for messages and as its pattern, has the check for this mode. -/
theorem check_fields {mode : Text} (hmode : mode ≠ []) :
    Fields.check { mode, modePattern := some mode } = check mode := by
  funext s
  rw [Fields.check, check, Fields.modeName, if_neg hmode]
  rfl

theorem IsMode.ne_nil {mode : Text} (h : IsMode mode) : mode ≠ [] := by
  rintro rfl
  exact absurd h (by unfold IsMode; decide)

theorem realizes_object : object.Realizes rule
    { defaults := [(bytes "mode", .text (Utf8.encode defaultMode))], apply } where
  name := rfl
  configurable := rfl
  defaults _ := rfl
  blank := rfl
  refused settings e h fields := by
    have happly : (setting.valueOf defaultMode settings >>= setting.finish) = .error e :=
      (congrFun apply_eq settings).symm.trans h
    show (take settings).run fields = _
    rcases bind_eq_error_iff.mp happly with hvalue | ⟨mode, -, hfinish⟩
    · rw [run_take, hvalue]
    · cases hfinish
  accepted settings check h fields := by
    have happly : (setting.valueOf defaultMode settings >>= setting.finish) = .ok check :=
      (congrFun apply_eq settings).symm.trans h
    obtain ⟨mode, hvalue, hfinish⟩ := bind_eq_ok_iff.mp happly
    have hmode := isMode_of_modeOf isMode_default ((modeOf_eq _ settings).trans hvalue)
    show ∃ fields', (take settings).run fields = _ ∧ _
    rw [run_take, hvalue]
    exact ⟨_, rfl, (check_fields hmode.ne_nil).trans (Except.ok.inj hfinish)⟩

end RequireSingleInstance

/-! ### Settings as a whole -/

namespace RuleObject

variable {σ : Type} {o : RuleObject σ} {rule : Rule} {c : Configurable}

namespace Realizes

variable (h : o.Realizes rule c)

include h

/-- Applying settings to an object, told by the rule. -/
theorem run_take (settings : Settings) (fields : σ) :
    (∃ check fields', c.apply settings = .ok check ∧
      (o.take settings).run fields = .ok () fields' ∧ o.check fields' = check) ∨
    ∃ e, c.apply settings = .error e ∧ (o.take settings).run fields = .error e fields := by
  rcases exists_error_or_ok (c.apply settings) with ⟨e, he⟩ | ⟨check, hcheck⟩
  · exact .inr ⟨e, he, h.refused settings e he fields⟩
  · obtain ⟨fields', hrun, hfields'⟩ := h.accepted settings check hcheck fields
    exact .inl ⟨check, fields', hcheck, hrun, hfields'⟩

/-- Configuring an object, told by the rule. -/
theorem configure_eq {e : RuleEntry} (hne : e.settings.getD [] ≠ []) (fields : σ) :
    (∃ check fields', rule.configure e = .ok { rule with check } ∧
      o.configure fields e = .ok fields' ∧ o.check fields' = check) ∨
    ∃ reason, rule.configure e = .error reason ∧ o.configure fields e = .error reason := by
  obtain ⟨enabled, settings⟩ := e
  match settings with
  | none | some [] => exact absurd rfl hne
  | some (s :: ss) =>
    rw [rule.configure_some (List.cons_ne_nil s ss), h.configurable, Option.elim_some]
    rcases h.run_take (s :: ss) (o.clone fields) with ⟨check, fields', happly, hrun, hcheck⟩ |
      ⟨e, happly, hrun⟩
    · refine .inl ⟨check, fields', ?_, ?_, hcheck⟩
      · rw [happly]
        rfl
      · unfold configure
        dsimp only
        rw [hrun]
    · refine .inr ⟨.refused rule.name e, ?_, ?_⟩
      · rw [happly]
        rfl
      · unfold configure
        dsimp only
        rw [hrun, h.name]

end Realizes

/-- What objects make of settings: they take them as a whole, and nothing that was before them shows
in what is found. -/
structure ForgetsHistory (o : RuleObject σ) (rule : Rule) : Prop where
  /-- Refused settings leave an object as it is. -/
  refused (settings : Settings) (fields fields' : σ) (e : SettingsError)
    (h : (o.take settings).run fields = .error e fields') : fields' = fields
  /-- Accepted settings are accepted by every object, and what it finds then depends on the settings
  alone. -/
  accepted (settings : Settings) (fields fields' other : σ)
    (h : (o.take settings).run fields = .ok () fields') :
    ∃ other', (o.take settings).run other = .ok () other' ∧ o.check other' = o.check fields'
  /-- Of settings that are applied to one object one after the other the last ones decide. -/
  inPlace (before : List Settings) (last : Settings) (fields : σ)
    (h : ∀ settings ∈ before ++ [last], ∃ fields', (o.take settings).run o.blank = .ok () fields') :
    ∃ fields' alone, ((before ++ [last]).forM o.take).run fields = .ok () fields' ∧
      (o.take last).run o.blank = .ok () alone ∧ o.check fields' = o.check alone
  /-- Of settings that a rule is configured with one after the other the last ones decide. -/
  configured (before : List RuleEntry) (last : RuleEntry) (fields : σ)
    (hne : ∀ e ∈ before ++ [last], e.settings.getD [] ≠ [])
    (h : ∀ e ∈ before ++ [last], ∃ fields', o.configure o.blank e = .ok fields') :
    ∃ fields' alone, (before ++ [last]).foldlM o.configure fields = .ok fields' ∧
      o.configure o.blank last = .ok alone ∧ o.check fields' = o.check alone
  /-- A rule finds what its objects do: a new one, and one that is configured. -/
  blank : o.check o.blank = rule.check
  configure_eq (e : RuleEntry) :
    (o.configure o.blank e).map o.check = (rule.configure e).map (·.check)

namespace Realizes

variable (h : o.Realizes rule c)

include h

/-- Settings that one object accepts are accepted by every other one, to the same effect. -/
theorem exists_run_eq_ok {settings : Settings} {fields fields' : σ}
    (hrun : (o.take settings).run fields = .ok () fields') (other : σ) :
    ∃ other', (o.take settings).run other = .ok () other' ∧ o.check other' = o.check fields' := by
  rcases h.run_take settings fields with ⟨check, fields'', happly, hrun', hcheck⟩ | ⟨e, -, hrun'⟩
  · rw [hrun'] at hrun
    cases hrun
    obtain ⟨other', hother, hsame⟩ := h.accepted settings check happly other
    exact ⟨other', hother, hsame.trans hcheck.symm⟩
  · rw [hrun'] at hrun
    cases hrun

theorem exists_configure_eq_ok {e : RuleEntry} (hne : e.settings.getD [] ≠ []) {fields fields' : σ}
    (hconfigured : o.configure fields e = .ok fields') (other : σ) :
    ∃ other', o.configure other e = .ok other' ∧ o.check other' = o.check fields' := by
  rcases h.configure_eq hne fields with ⟨check, _, hrule, hok, hcheck⟩ | ⟨reason, -, herror⟩
  · obtain rfl := Except.ok.inj (hok.symm.trans hconfigured)
    rcases h.configure_eq hne other with ⟨check', other', hrule', hok', hcheck'⟩ | ⟨_, hrule', -⟩
    · refine ⟨other', hok', hcheck'.trans (Eq.trans ?_ hcheck.symm)⟩
      exact congrArg Rule.check (Except.ok.inj (hrule'.symm.trans hrule))
    · cases hrule.symm.trans hrule'
  · cases herror.symm.trans hconfigured

/-- Settings that a new object accepts are accepted one after the other. -/
theorem exists_forM_take {before : List Settings}
    (haccepted : ∀ settings ∈ before, ∃ fields', (o.take settings).run o.blank = .ok () fields')
    (fields : σ) : ∃ fields', (before.forM o.take).run fields = .ok () fields' := by
  -- The fields that the first settings leave are some or other, so the claim is for all of them.
  induction before generalizing fields with
  | nil => exact ⟨fields, rfl⟩
  | cons settings before ih =>
    rw [List.forall_mem_cons] at haccepted
    obtain ⟨fields₁, hrun⟩ := haccepted.1
    obtain ⟨fields₂, hfirst, -⟩ := h.exists_run_eq_ok hrun fields
    obtain ⟨fields', hrest⟩ := ih haccepted.2 fields₂
    refine ⟨fields', ?_⟩
    show (o.take settings >>= fun _ => before.forM o.take).run fields = _
    rw [EStateM.run_bind, hfirst]
    exact hrest

theorem exists_foldlM_configure {before : List RuleEntry}
    (hne : ∀ e ∈ before, e.settings.getD [] ≠ [])
    (haccepted : ∀ e ∈ before, ∃ fields', o.configure o.blank e = .ok fields') (fields : σ) :
    ∃ fields', before.foldlM o.configure fields = .ok fields' := by
  induction before generalizing fields with
  | nil => exact ⟨fields, rfl⟩
  | cons e before ih =>
    rw [List.forall_mem_cons] at hne haccepted
    obtain ⟨fields₁, hconfigured⟩ := haccepted.1
    obtain ⟨fields₂, hfirst, -⟩ := h.exists_configure_eq_ok hne.1 hconfigured fields
    obtain ⟨fields', hrest⟩ := ih hne.2 haccepted.2 fields₂
    exact ⟨fields', by rw [List.foldlM_cons, hfirst]; exact hrest⟩

/-- **Objects that do what a rule does take settings as a whole and forget what was before.** -/
theorem forgetsHistory : o.ForgetsHistory rule where
  refused settings fields fields' e hrun := by
    rcases h.run_take settings fields with ⟨check, fields'', -, hrun', -⟩ | ⟨e', -, hrun'⟩
    · rw [hrun'] at hrun
      cases hrun
    · rw [hrun'] at hrun
      cases hrun
      rfl
  accepted settings fields fields' other hrun := h.exists_run_eq_ok hrun other
  inPlace before last fields haccepted := by
    rw [List.forall_mem_append, List.forall_mem_singleton] at haccepted
    -- The settings before the last leave fields of some kind, and whatever these are, the last ones
    -- leave an object that checks as one that is told of them alone.
    obtain ⟨fields₁, hbefore⟩ := h.exists_forM_take haccepted.1 fields
    obtain ⟨alone, halone⟩ := haccepted.2
    obtain ⟨fields', hlast, hcheck⟩ := h.exists_run_eq_ok halone fields₁
    refine ⟨fields', alone, ?_, halone, hcheck⟩
    have hsplit : (before ++ [last]).forM o.take
        = before.forM o.take >>= fun _ => [last].forM o.take := List.forM_append
    rw [hsplit, EStateM.run_bind, hbefore]
    show (o.take last >>= fun _ => pure ()).run fields₁ = _
    rw [EStateM.run_bind, hlast]
    rfl
  configured before last fields hne haccepted := by
    rw [List.forall_mem_append, List.forall_mem_singleton] at hne haccepted
    obtain ⟨fields₁, hbefore⟩ := h.exists_foldlM_configure hne.1 haccepted.1 fields
    obtain ⟨alone, halone⟩ := haccepted.2
    obtain ⟨fields', hlast, hcheck⟩ := h.exists_configure_eq_ok hne.2 halone fields₁
    refine ⟨fields', alone, ?_, halone, hcheck⟩
    rw [List.foldlM_append, hbefore]
    show (o.configure fields₁ last >>= pure) = _
    rw [hlast]
    rfl
  blank := h.blank
  configure_eq e := by
    by_cases hne : e.settings.getD [] = []
    · obtain ⟨enabled, settings⟩ := e
      match settings with
      | none | some [] => exact congrArg Except.ok h.blank
      | some (s :: ss) => exact absurd hne (List.cons_ne_nil s ss)
    · rcases h.configure_eq hne o.blank with ⟨check, fields', hrule, hok, hcheck⟩ |
        ⟨reason, hrule, herror⟩
      · rw [hrule, hok, ← hcheck]
        rfl
      · rw [hrule, herror]
        rfl

end Realizes

end RuleObject

/-! ### One setting after the other -/

/-- What a rule is configured with does not see what its check was. -/
theorem Rule.configure_with_check (rule : Rule) (check : Check) {e : RuleEntry}
    (hne : e.settings.getD [] ≠ []) : configure { rule with check } e = rule.configure e := by
  obtain ⟨enabled, settings⟩ := e
  match settings with
  | none | some [] => exact absurd rfl hne
  | some (s :: ss) =>
    rw [configure_some _ (List.cons_ne_nil s ss), configure_some _ (List.cons_ne_nil s ss)]

/-- **Of entries that a rule is configured with one after the other the last one decides.** -/
theorem Rule.foldlM_configure {rule : Rule} {before : List RuleEntry} {last : RuleEntry}
    (hne : ∀ e ∈ before ++ [last], e.settings.getD [] ≠ [])
    (haccepted : ∀ e ∈ before, ∃ configured, rule.configure e = .ok configured) :
    (before ++ [last]).foldlM configure rule = rule.configure last := by
  rw [List.forall_mem_append, List.forall_mem_singleton] at hne
  -- On the way the rule differs from the registered one in its check only.
  suffices hchecks : ∀ check : Check,
      (before ++ [last]).foldlM configure { rule with check } = rule.configure last from
    hchecks rule.check
  induction before with
  | nil =>
    intro check
    show (configure { rule with check } last >>= pure) = _
    rw [bind_pure, configure_with_check rule check hne.2]
  | cons e before ih =>
    intro check
    rw [List.forall_mem_cons] at haccepted hne
    obtain ⟨configured, hconfigured⟩ := haccepted.1
    rw [List.cons_append, List.foldlM_cons, configure_with_check rule check hne.1.1, hconfigured]
    rcases configure_cases hconfigured with rfl | ⟨c, settings, check', -, -, rfl⟩
    · exact ih ⟨hne.1.2, hne.2⟩ haccepted.2 _
    · exact ih ⟨hne.1.2, hne.2⟩ haccepted.2 check'

/-- **Settings are taken as a whole, and the last ones decide.** Objects of the two rules with
settings that refuse settings stay as they are, whatever the fields are and at whatever entry the
settings are refused. Settings that are accepted are accepted by every object, and what it finds
then on any script depends on the settings alone. So among settings that are applied one after the
other, to one object or to copies of copies, the last ones decide, and the same holds of configuring
a rule. -/
theorem settings_are_taken_as_a_whole :
    RequireVersion.object.ForgetsHistory RequireVersion.rule ∧
    RequireSingleInstance.object.ForgetsHistory RequireSingleInstance.rule ∧
    ∀ (rule : Rule) (before : List RuleEntry) (last : RuleEntry),
      (∀ e ∈ before ++ [last], e.settings.getD [] ≠ []) →
      (∀ e ∈ before, ∃ configured, rule.configure e = .ok configured) →
        (before ++ [last]).foldlM Rule.configure rule = rule.configure last :=
  ⟨RequireVersion.realizes_object.forgetsHistory,
    RequireSingleInstance.realizes_object.forgetsHistory,
    fun _ _ _ => Rule.foldlM_configure⟩

/-- Two modes one after the other, and an object with two modes in its fields that is told of a
third one beside a setting that there is not. -/
theorem settings_are_taken_as_a_whole_modes :
    let mode (s : String) : Bytes × Value := (bytes "mode", .text (bytes s))
    let entry (s : String) : RuleEntry := { enabled := true, settings := some [mode s] }
    let mixed : RequireSingleInstance.Fields :=
      { mode := "Off".toList, modePattern := some "Prompt".toList }
    (∃ e fields, (RequireSingleInstance.take [mode "Ignore", (bytes "x", .null)]).run mixed
      = .error e fields ∧ fields = mixed) ∧
    (∃ fields alone, ((([[mode "Off"]] ++ [[mode "IGNORE"]]).forM RequireSingleInstance.take).run mixed
        = .ok () fields) ∧
      (RequireSingleInstance.take [mode "IGNORE"]).run {} = .ok () alone ∧
      fields.check = alone.check) ∧
    ([entry "Off"] ++ [entry "IGNORE"]).foldlM Rule.configure RequireSingleInstance.rule
      = RequireSingleInstance.rule.configure (entry "IGNORE") := by
  intro mode entry mixed
  obtain ⟨-, hobject, hrule⟩ := settings_are_taken_as_a_whole
  refine ⟨?_, ?_, ?_⟩
  · have hrun : (RequireSingleInstance.object.take [mode "Ignore", (bytes "x", .null)]).run mixed
        = .error (.unknownSetting instanceRuleName (bytes "x")) mixed := rfl
    exact ⟨_, mixed, hrun, hobject.refused _ _ _ _ hrun⟩
  · refine hobject.inPlace [[mode "Off"]] [mode "IGNORE"] mixed ?_
    exact List.forall_mem_cons.mpr ⟨⟨_, rfl⟩, List.forall_mem_singleton.mpr ⟨_, rfl⟩⟩
  · refine hrule _ _ _ ?_ (List.forall_mem_singleton.mpr ⟨_, rfl⟩)
    exact List.forall_mem_cons.mpr
      ⟨List.cons_ne_nil _ _, List.forall_mem_singleton.mpr (List.cons_ne_nil _ _)⟩

end ScriptLint
