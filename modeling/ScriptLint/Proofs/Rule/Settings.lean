import ScriptLint.Proofs.Config.Values
import ScriptLint.Proofs.Entries
import ScriptLint.Proofs.Rule.OneSetting
import ScriptLint.Proofs.Rule.Standard

/-!
# Rules under the same settings

Settings are a mapping, so the order in which they are listed is not theirs. A rule of the linter
takes one setting at most, and therefore accepts settings in every order or in none; settings with
the same values are accepted as the same rule, or refused for the same reason
(`Configurable.IsRegular`).
-/

namespace ScriptLint

/-- Whether two reasons are the same, up to the order of entries in a value that is shown. -/
inductive SettingsError.Same : SettingsError → SettingsError → Prop
  | refl (e : SettingsError) : Same e e
  | badVersion {v v' : Value} (h : v.Same v') : Same (.badVersion v) (.badVersion v')
  | modeNotText {v v' : Value} (h : v.Same v') : Same (.modeNotText v) (.modeNotText v')

/-- Whether two rules are refused for the same reason. -/
inductive ConfigureError.Same : ConfigureError → ConfigureError → Prop
  | noSettings (rule : Bytes) : Same (.noSettings rule) (.noSettings rule)
  | refused {reason reason' : SettingsError} (rule : Bytes) (h : reason.Same reason') :
    Same (.refused rule reason) (.refused rule reason')

/-- Whether settings list the same names, with values that are the same, in the same order. -/
def Settings.SameInOrder : Settings → Settings → Prop :=
  List.Forall₂ fun s s' => s'.1 = s.1 ∧ s.2.Same s'.2

/-- Whether settings with the same values are treated alike, and only those under one name are
accepted. -/
structure Configurable.IsRegular (c : Configurable) : Prop where
  agree : ∀ settings settings', Settings.SameInOrder settings settings' →
    Agree SettingsError.Same (c.apply settings) (c.apply settings')
  single : ∃ name, ∀ settings check, c.apply settings = .ok check → ∀ s ∈ settings, s.1 = name

/-! ### The rules of the linter -/

namespace OneSetting

variable {α : Type} {o : OneSetting α} {settings settings' : Settings}

theorem agree_valueOf
    (hread : ∀ v v', Value.Same v v' → Agree SettingsError.Same (o.read v) (o.read v'))
    (h : Settings.SameInOrder settings settings') (a : α) :
    Agree SettingsError.Same (o.valueOf a settings) (o.valueOf a settings') := by
  induction h generalizing a with
  | nil => exact .ok a
  | @cons s s' rest rest' hs _ ih =>
    have hstep : Agree SettingsError.Same (o.step s) (o.step s') := by
      unfold step
      rw [hs.1]
      split_ifs
      · exact hread _ _ hs.2
      · exact .error (.refl _)
    rw [valueOf, valueOf]
    generalize o.step s = x, o.step s' = x' at hstep ⊢
    cases hstep with
    | ok a' => exact ih a'
    | error h => exact .error h

/-- **A rule with one setting takes its settings as a mapping**, if it takes values so. -/
theorem isRegular
    (hread : ∀ v v', Value.Same v v' → Agree SettingsError.Same (o.read v) (o.read v'))
    {c : Configurable} (hc : c.apply = o.apply) : c.IsRegular where
  agree settings settings' h := by
    rw [hc]
    exact (agree_valueOf hread h o.start).bind .refl o.finish
  single := by
    refine ⟨o.name, fun settings check h => ?_⟩
    rw [hc] at h
    obtain ⟨a, hvalue, -⟩ := bind_eq_ok_iff.mp h
    exact name_of_valueOf_eq_ok hvalue

end OneSetting

theorem RequireVersion.agree_readVersion {v v' : Value} (h : v.Same v') :
    Agree SettingsError.Same (readVersion v) (readVersion v') := by
  cases h with
  | scalar => exact .refl .refl _
  | list h => exact .error (.badVersion (.list h))
  | map order keys values => exact .error (.badVersion (.map order keys values))
  | table order keys values => exact .error (.badVersion (.table order keys values))

theorem RequireSingleInstance.agree_readMode {v v' : Value} (h : v.Same v') :
    Agree SettingsError.Same (readMode v) (readMode v') := by
  cases h with
  | scalar => exact .refl .refl _
  | list h => exact .error (.modeNotText (.list h))
  | map order keys values => exact .error (.modeNotText (.map order keys values))
  | table order keys values => exact .error (.modeNotText (.table order keys values))

/-- **The rules of the linter take their settings as a mapping.** -/
theorem Registry.isRegular_standard {rule : Rule} (hrule : rule ∈ Registry.standard.rules)
    {c : Configurable} (hc : rule.configurable = some c) : c.IsRegular := by
  simp only [Registry.standard, List.mem_cons, List.not_mem_nil, or_false] at hrule
  rcases hrule with rfl | rfl | rfl | rfl | rfl | rfl
  · obtain rfl := Option.some.inj hc
    exact OneSetting.isRegular (fun _ _ => RequireVersion.agree_readVersion) RequireVersion.apply_eq
  · obtain rfl := Option.some.inj hc
    exact OneSetting.isRegular (fun _ _ => RequireSingleInstance.agree_readMode)
      RequireSingleInstance.apply_eq
  all_goals cases hc

/-! ### Configuring a rule -/

namespace Rule

variable {rule : Rule} {settings settings' : Settings}

/-- Settings with the same values give the same rule, or are refused for the same reason. -/
theorem agree_configure (hrule : ∀ c ∈ rule.configurable, c.IsRegular)
    (h : Settings.SameInOrder settings settings') (enabled enabled' : Bool) :
    Agree ConfigureError.Same (rule.configure { enabled, settings := some settings })
      (rule.configure { enabled := enabled', settings := some settings' }) := by
  cases h with
  | nil => exact .ok rule
  | @cons s s' ss ss' hs hss =>
    rw [configure_some rule (List.cons_ne_nil s ss), configure_some rule (List.cons_ne_nil s' ss')]
    cases hc : rule.configurable with
    | none => exact .error (.noSettings _)
    | some c =>
      rw [Option.elim_some, Option.elim_some]
      refine Agree.map (Agree.mapError ((hrule c hc).agree _ _ (.cons hs hss)) ?_) _
      exact fun reason reason' h => .refused _ h

/-- **Settings are accepted as a mapping**: in every order as the same rule, or in none. -/
theorem configure_perm (hrule : ∀ c ∈ rule.configurable, c.IsRegular)
    (hsettings : Entries.IsDistinct settings) (hperm : settings.Perm settings') (enabled : Bool)
    {configured : Rule}
    (h : rule.configure { enabled, settings := some settings } = .ok configured) :
    rule.configure { enabled, settings := some settings' } = .ok configured := by
  suffices heq : settings' = settings by rwa [heq]
  by_cases hne : settings = []
  · subst hne
    exact hperm.nil_eq.symm
  -- An accepted mapping has one entry.
  rw [configure_some rule hne] at h
  cases hc : rule.configurable with
  | none =>
    rw [hc] at h
    cases h
  | some c =>
    rw [hc, Option.elim_some] at h
    obtain ⟨name, hname⟩ := (hrule c hc).single
    cases happly : c.apply settings with
    | error e =>
      rw [happly] at h
      cases h
    | ok check =>
      obtain ⟨value, rfl⟩ :=
        hsettings.exists_eq_singleton hne (hname settings check happly)
      exact List.perm_singleton.mp hperm.symm

end Rule

end ScriptLint
