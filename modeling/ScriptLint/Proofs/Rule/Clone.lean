import ScriptLint.Proofs.Config.Defaults
import ScriptLint.Proofs.Rule.Object

/-!
# Copies are as good as new

A copy of a rule that has been configured is the rule as it is registered again, and so is a rule
that is told its own default settings. As objects the two are not the same: the fields of a new
object are not set, and those of a copy are set to what a new object falls back to. What they find
is the same (`RuleObject.CopiesAreNew`), also because the error that a copy would pass over never
comes up.
-/

namespace ScriptLint

/-! ### Rules -/

namespace Rule

variable {rule : Rule}

/-- The default settings of a rule of the linter are some, and give its own check. -/
theorem apply_defaults {c : Configurable} (hrule : rule ∈ Registry.standard.rules)
    (hc : rule.configurable = some c) :
    c.defaults ≠ [] ∧ c.apply c.defaults = .ok rule.check := by
  simp only [Registry.standard, List.mem_cons, List.not_mem_nil, or_false] at hrule
  rcases hrule with rfl | rfl | rfl | rfl | rfl | rfl
  · obtain rfl := Option.some.inj hc
    exact ⟨List.cons_ne_nil _ _, RequireVersion.apply_defaults⟩
  · obtain rfl := Option.some.inj hc
    exact ⟨List.cons_ne_nil _ _, RequireSingleInstance.apply_defaults⟩
  all_goals cases hc

/-- A copy does not keep the check: the default settings bring back the registered one. -/
theorem clone_with_check {c : Configurable} (hc : rule.configurable = some c)
    (happly : c.apply c.defaults = .ok rule.check) (check : Check) :
    clone { rule with check } = rule := by
  obtain ⟨name, description, registered, configurable⟩ := rule
  obtain rfl : configurable = some c := hc
  unfold clone
  dsimp only
  rw [happly]

/-- **A copy of a configured rule is the rule as it is registered.** -/
theorem clone_of_configure {e : RuleEntry} {configured : Rule}
    (hrule : rule ∈ Registry.standard.rules) (h : rule.configure e = .ok configured) :
    configured.clone = rule := by
  rcases configure_cases h with rfl | ⟨c, settings, check, hc, -, rfl⟩
  · cases hc : configured.configurable with
    | none => rw [clone, hc]
    | some c => exact clone_with_check hc (apply_defaults hrule hc).2 configured.check
  · exact clone_with_check hc (apply_defaults hrule hc).2 check

/-- **A rule under its own default settings is the rule as it is registered.** -/
theorem configure_own_defaults {c : Configurable} (hrule : rule ∈ Registry.standard.rules)
    (hc : rule.configurable = some c) (enabled : Bool) :
    rule.configure { enabled, settings := some c.defaults } = .ok rule := by
  obtain ⟨hne, happly⟩ := apply_defaults hrule hc
  exact (rule.configure_getD _ true).trans (configure_of_apply hc hne happly)

end Rule

/-! ### Objects -/

namespace RuleObject

variable {σ : Type} {o : RuleObject σ} {rule : Rule} {c : Configurable}

/-- What objects make of their own default settings: a copy, although its fields are set, finds what
a new object does, and so does an object that is configured with them. -/
structure CopiesAreNew (o : RuleObject σ) (rule : Rule) : Prop where
  /-- A new object, which has never been configured, finds what the registered rule does. -/
  blank : o.check o.blank = rule.check
  /-- The default settings are accepted, so that a copy passes over no error. -/
  run_defaults (fields : σ) :
    (o.take (o.defaults fields)).run o.blank = .ok () (o.clone fields)
  /-- The fields of a copy are not those of a new object. -/
  clone_ne (fields : σ) : o.clone fields ≠ o.blank
  /-- A copy finds what a new object does, whatever it is a copy of. -/
  check_clone (fields : σ) : o.check (o.clone fields) = o.check o.blank
  /-- So does an object that is configured with the default settings. -/
  configure_defaults (fields : σ) (enabled : Bool) : ∃ fields',
    o.configure fields { enabled, settings := some (o.defaults fields) } = .ok fields' ∧
      o.check fields' = o.check o.blank

/-- Objects that do what a rule of the linter does, and whose default settings set their fields. -/
theorem Realizes.copiesAreNew (h : o.Realizes rule c) (hrule : rule ∈ Registry.standard.rules)
    (hset : ∀ fields, o.clone fields ≠ o.blank) : o.CopiesAreNew rule := by
  obtain ⟨hne, happly⟩ := Rule.apply_defaults hrule h.configurable
  have hrun (fields : σ) : (o.take (o.defaults fields)).run o.blank = .ok () (o.clone fields) ∧
      o.check (o.clone fields) = rule.check := by
    obtain ⟨fields', hrun, hcheck⟩ := h.accepted _ _ happly o.blank
    rw [← h.defaults fields] at hrun
    rw [clone, hrun]
    exact ⟨rfl, hcheck⟩
  -- The rule has accepted the same settings, so the object is not refused.
  refine ⟨h.blank, fun fields => (hrun fields).1, hset,
    fun fields => (hrun fields).2.trans h.blank.symm, fun fields enabled => ?_⟩
  have hsettings : ({ enabled, settings := some (o.defaults fields) } : RuleEntry).settings.getD []
      ≠ [] := h.defaults fields ▸ hne
  rcases h.configure_eq hsettings fields with ⟨check, fields', hconfigure, hok, hcheck⟩ |
    ⟨reason, hconfigure, -⟩
  · rw [h.defaults fields, Rule.configure_own_defaults hrule h.configurable] at hconfigure
    refine ⟨fields', hok, hcheck.trans (Eq.trans ?_ h.blank.symm)⟩
    exact (congrArg Rule.check (Except.ok.inj hconfigure)).symm
  · rw [h.defaults fields, Rule.configure_own_defaults hrule h.configurable] at hconfigure
    cases hconfigure

end RuleObject

theorem RequireVersion.copiesAreNew_object : object.CopiesAreNew rule := by
  refine realizes_object.copiesAreNew (by simp [Registry.standard]) fun fields => ?_
  have hpattern : (object.clone {}).pattern = some defaultVersion := by decide
  intro hsame
  rw [show object.clone {} = object.clone fields from rfl, hsame] at hpattern
  cases hpattern

theorem RequireSingleInstance.copiesAreNew_object : object.CopiesAreNew rule := by
  refine realizes_object.copiesAreNew (by simp [Registry.standard]) fun fields => ?_
  have hpattern : (object.clone {}).modePattern = some defaultMode := by decide
  intro hsame
  rw [show object.clone {} = object.clone fields from rfl, hsame] at hpattern
  cases hpattern

/-- **Copies are as good as new, and explicit defaults as implicit ones.** A copy of any of the six
rules, under whatever accepted settings, is the rule as it is registered, and so is a rule that is
configured with its own default settings. Objects of the two rules with settings find the same on
every script when they are new, copies of others, or configured with the default settings, although
the fields of a new object are not set; and the default settings are accepted, so that no error is
lost. -/
theorem copies_are_registered_rules :
    (∀ rule ∈ Registry.standard.rules, ∀ (e : RuleEntry) (configured : Rule),
      rule.configure e = .ok configured → configured.clone = rule) ∧
    (∀ rule ∈ Registry.standard.rules, ∀ c ∈ rule.configurable, c.defaults ≠ [] ∧
      ∀ enabled, rule.configure { enabled, settings := some c.defaults } = .ok rule) ∧
    RequireVersion.object.CopiesAreNew RequireVersion.rule ∧
    RequireSingleInstance.object.CopiesAreNew RequireSingleInstance.rule :=
  ⟨fun _ hrule _ _ h => Rule.clone_of_configure hrule h,
    fun _ hrule _ hc => ⟨(Rule.apply_defaults hrule hc).1, Rule.configure_own_defaults hrule hc⟩,
    RequireVersion.copiesAreNew_object, RequireSingleInstance.copiesAreNew_object⟩

/-- A rule that is told of another mode reports what the registered one does not, and a copy of it
does not report it any more. -/
theorem copies_are_registered_rules_mode :
    let e : RuleEntry := { enabled := true, settings := some [(bytes "mode", .text (bytes "Off"))] }
    let s : Script := ⟨bytes "a.ahk", "#SingleInstance Force".toList⟩
    ∃ configured, RequireSingleInstance.rule.configure e = .ok configured ∧
      (configured.check s).length = 1 ∧ configured.clone = RequireSingleInstance.rule ∧
      configured.clone.check s = [] := by
  intro e s
  let configured : Rule :=
    { RequireSingleInstance.rule with check := RequireSingleInstance.check "Off".toList }
  have hconfigured : RequireSingleInstance.rule.configure e = .ok configured := rfl
  have hclone :=
    copies_are_registered_rules.1 RequireSingleInstance.rule (by simp [Registry.standard])
    e configured hconfigured
  refine ⟨configured, hconfigured, ?_, hclone, ?_⟩
  · decide
  · rw [hclone]
    decide

end ScriptLint
