import ScriptLint.Proofs.Entries
import ScriptLint.Proofs.Rule.OneSetting
import ScriptLint.Proofs.Text.Quoted
import ScriptLint.Rule.Registry

/-!
# Settings at fault

A rule of the linter reads its settings one by one and refuses them for the first one at fault
(`Configurable.ReadsOneByOne`). Settings are a mapping, whose order is nobody's choice. If one of
them at most is at fault, what comes of them does not depend on the order
(`Configurable.ReadsOneByOne.apply_perm`). If two are, they are refused in every order, but since
messages name the setting that they are about, not always with the same words
(`Configurable.ReadsOneByOne.exists_perm_message_ne`).
-/

namespace ScriptLint

/-! ### Faults -/

namespace Configurable

/-- Why a setting is refused by itself, if it is. What stops the program does not count: it comes up
only once all settings are read. -/
def fault? (c : Configurable) (s : Bytes × Value) : Option SettingsError :=
  match c.apply [s] with
  | .ok _ => none
  | .error e => if e.isFatal then none else some e

/-- Whether one setting at most is at fault. -/
def HasOneFault (c : Configurable) (settings : Settings) : Prop :=
  ∀ s ∈ settings, ∀ t ∈ settings, c.fault? s ≠ none → c.fault? t ≠ none → s = t

/-- Whether settings are read one by one and refused for the first one at fault, those without a
fault have one name, and faults of settings with different names are worded differently. -/
structure ReadsOneByOne (c : Configurable) : Prop where
  first : ∀ settings e, settings.findSome? c.fault? = some e → c.apply settings = .error e
  name : ∃ name, ∀ s, c.fault? s = none → s.1 = name
  wording : ∀ s t e e', c.fault? s = some e → c.fault? t = some e' → s.1 ≠ t.1 →
    e.message ≠ e'.message

end Configurable

namespace OneSetting

variable {α : Type} {o : OneSetting α}

/-- The faults of a rule with one setting are those of its entries. -/
theorem IsPlain.fault?_eq (ho : o.IsPlain) {c : Configurable} (hc : c.apply = o.apply) :
    c.fault? = o.fault? := by
  funext s
  unfold Configurable.fault?
  rw [hc]
  cases hfault : o.fault? s with
  | some e =>
    have hfirst : [s].findSome? o.fault? = some e := by
      rw [List.findSome?_cons, hfault]
    rw [apply_of_fault hfirst]
    show (if e.isFatal then none else some e) = _
    rw [if_neg (by rw [ho.isFatal_of_fault hfault]; exact Bool.false_ne_true)]
  | none =>
    obtain ⟨a, ha⟩ := fault?_eq_none_iff.mp hfault
    have happly : o.apply [s] = o.finish a := by
      rw [apply, valueOf, ha]
      rfl
    rw [happly]
    cases hfinish : o.finish a with
    | ok check => rfl
    | error e =>
      show (if e.isFatal then none else some e) = _
      rw [if_pos (ho.finish a e hfinish)]

/-- **A rule with one setting reads its settings one by one.** -/
theorem IsPlain.readsOneByOne (ho : o.IsPlain) {c : Configurable} (hc : c.apply = o.apply) :
    c.ReadsOneByOne where
  first settings e h := by
    rw [hc]
    rw [ho.fault?_eq hc] at h
    exact apply_of_fault h
  name := by
    rw [ho.fault?_eq hc]
    exact ⟨o.name, fun s => name_of_fault?_eq_none⟩
  wording s t e e' hs ht hne := by
    rw [ho.fault?_eq hc] at hs ht
    rcases fault?_cases hs with ⟨-, rfl⟩ | ⟨hs, hread⟩
    · rcases fault?_cases ht with ⟨-, rfl⟩ | ⟨-, hread⟩
      · intro h
        exact hne (Quoted.quote_injective (List.append_cancel_left h))
      · exact ((ho.read _ _ hread).2 s.1).symm
    · rcases fault?_cases ht with ⟨-, rfl⟩ | ⟨ht, -⟩
      · exact (ho.read _ _ hread).2 t.1
      · exact absurd (hs.trans ht.symm) hne

end OneSetting

/-- **The rules of the linter read their settings one by one.** -/
theorem Registry.readsOneByOne_standard {rule : Rule} (hrule : rule ∈ Registry.standard.rules)
    {c : Configurable} (hc : rule.configurable = some c) : c.ReadsOneByOne := by
  simp only [Registry.standard, List.mem_cons, List.not_mem_nil, or_false] at hrule
  rcases hrule with rfl | rfl | rfl | rfl | rfl | rfl
  · obtain rfl := Option.some.inj hc
    exact RequireVersion.isPlain_setting.readsOneByOne RequireVersion.apply_eq
  · obtain rfl := Option.some.inj hc
    exact RequireSingleInstance.isPlain_setting.readsOneByOne RequireSingleInstance.apply_eq
  all_goals cases hc

/-! ### Settings in another order -/

/-- Where one element at most gives something, the order of a list does not matter. -/
theorem findSome?_eq_of_perm {α β : Type} {f : α → Option β} {as as' : List α}
    (hone : ∀ a ∈ as, ∀ b ∈ as, f a ≠ none → f b ≠ none → a = b) (h : as.Perm as') :
    as'.findSome? f = as.findSome? f := by
  cases hfirst : as.findSome? f with
  | none =>
    rw [List.findSome?_eq_none_iff] at hfirst ⊢
    exact fun a ha => hfirst a (h.mem_iff.mpr ha)
  | some b =>
    obtain ⟨a, ha, hb⟩ := List.exists_of_findSome?_eq_some hfirst
    cases hfirst' : as'.findSome? f with
    | none =>
      rw [List.findSome?_eq_none_iff.mp hfirst' a (h.mem_iff.mp ha)] at hb
      cases hb
    | some b' =>
      obtain ⟨a', ha', hb'⟩ := List.exists_of_findSome?_eq_some hfirst'
      obtain rfl := hone a ha a' (h.mem_iff.mpr ha') (by simp [hb]) (by simp [hb'])
      exact hb'.symm.trans hb

namespace Configurable

variable {c : Configurable} {settings settings' : Settings}

theorem isFatal_of_fault? {s : Bytes × Value} {e : SettingsError} (h : c.fault? s = some e) :
    e.isFatal = false := by
  unfold fault? at h
  split at h
  · cases h
  · split_ifs at h with hfatal
    rw [← Option.some.inj h, ← Bool.not_eq_true]
    exact hfatal

/-- Settings that are refused for a fault. -/
theorem ReadsOneByOne.exists_fault (hc : c.ReadsOneByOne) {s : Bytes × Value} (hs : s ∈ settings)
    (hfault : c.fault? s ≠ none) : ∃ t ∈ settings, ∃ e, c.fault? t = some e ∧
      c.apply settings = .error e := by
  cases hfirst : settings.findSome? c.fault? with
  | none => exact absurd (List.findSome?_eq_none_iff.mp hfirst s hs) hfault
  | some e =>
    obtain ⟨t, ht, he⟩ := List.exists_of_findSome?_eq_some hfirst
    exact ⟨t, ht, e, he, hc.first settings e hfirst⟩

theorem HasOneFault.perm (hone : c.HasOneFault settings) (h : settings.Perm settings') :
    c.HasOneFault settings' :=
  fun s hs t ht => hone s (h.mem_iff.mpr hs) t (h.mem_iff.mpr ht)

/-- **Settings with one fault at most are taken alike in every order.** -/
theorem ReadsOneByOne.apply_perm (hc : c.ReadsOneByOne) (hsettings : Entries.IsDistinct settings)
    (hone : c.HasOneFault settings) (h : settings.Perm settings') :
    c.apply settings' = c.apply settings := by
  have hfirst := findSome?_eq_of_perm hone h
  cases hfault : settings.findSome? c.fault? with
  | some e => rw [hc.first _ e hfault, hc.first _ e (hfirst.trans hfault)]
  | none =>
    -- Settings without a fault are one setting at most, of which there is one order.
    suffices hsame : settings' = settings by rw [hsame]
    by_cases hne : settings = []
    · subst hne
      exact h.nil_eq.symm
    · obtain ⟨name, hname⟩ := hc.name
      obtain ⟨value, rfl⟩ := hsettings.exists_eq_singleton hne fun s hs =>
        hname s (List.findSome?_eq_none_iff.mp hfault s hs)
      exact List.perm_singleton.mp h.symm

/-- **Settings with two faults are refused in every order**, and told to be. -/
theorem ReadsOneByOne.refused_of_two_faults (hc : c.ReadsOneByOne)
    (htwo : ¬ c.HasOneFault settings) : ∃ e, c.apply settings = .error e ∧ e.isFatal = false := by
  simp only [HasOneFault, not_forall] at htwo
  obtain ⟨s, hs, -, -, hfault, -⟩ := htwo
  obtain ⟨t, -, e, he, happly⟩ := hc.exists_fault hs hfault
  exact ⟨e, happly, isFatal_of_fault? he⟩

/-- **Of settings with two faults some order is told otherwise.** -/
theorem ReadsOneByOne.exists_perm_message_ne (hc : c.ReadsOneByOne)
    (hsettings : Entries.IsDistinct settings) (htwo : ¬ c.HasOneFault settings) :
    ∃ settings' e e', settings.Perm settings' ∧ c.apply settings = .error e ∧
      c.apply settings' = .error e' ∧ e'.isFatal = false ∧ e'.message ≠ e.message := by
  have hfront {s : Bytes × Value} (hs : s ∈ settings) {e : SettingsError}
      (he : c.fault? s = some e) : ∃ settings', settings.Perm settings' ∧
        c.apply settings' = .error e := by
    obtain ⟨before, after, hsplit⟩ := List.append_of_mem hs
    refine ⟨s :: (before ++ after), hsplit ▸ List.perm_middle, hc.first _ e ?_⟩
    rw [List.findSome?_cons, he]
  obtain ⟨e₀, h₀, -⟩ := hc.refused_of_two_faults htwo
  simp only [HasOneFault, not_forall] at htwo
  obtain ⟨s, hs, t, ht, hfault, hfault', hne⟩ := htwo
  obtain ⟨e, he⟩ := Option.ne_none_iff_exists'.mp hfault
  obtain ⟨e', he'⟩ := Option.ne_none_iff_exists'.mp hfault'
  have hnames : s.1 ≠ t.1 := fun h => hne (List.inj_on_of_nodup_map hsettings hs ht h)
  have hwording := hc.wording s t e e' he he' hnames
  by_cases hsame : e.message = e₀.message
  · obtain ⟨settings', hperm, happly⟩ := hfront ht he'
    exact ⟨settings', e₀, e', hperm, h₀, happly, isFatal_of_fault? he',
      fun h => hwording (hsame.trans h.symm)⟩
  · obtain ⟨settings', hperm, happly⟩ := hfront hs he
    exact ⟨settings', e₀, e, hperm, h₀, happly, isFatal_of_fault? he, hsame⟩

end Configurable

end ScriptLint
