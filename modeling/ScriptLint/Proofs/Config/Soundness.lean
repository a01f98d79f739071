import ScriptLint.Proofs.Config.Decoding
import ScriptLint.Proofs.Config.Values
import ScriptLint.Proofs.Except

/-!
# What a loaded configuration can hold

Whatever a document says, decoding gives its settings values within bounds: the numbers are those of
their formats, and a mapping names no key twice (`Value.IsSound`). The number of workers has 64
bits. All of it is carried from the scalars through lists and mappings, those that are merged in
included, to the whole configuration (`Config.isSound_of_load`).
-/

namespace ScriptLint

open Yaml

/-! ### Setting the entries of a mapping -/

namespace Value

theorem forall_mem_insertKey {P : Value × Value → Prop} {key value : Value}
    {entries : List (Value × Value)} (hold : ∀ e ∈ entries, P e) (hnew : P (key, value))
    (hset : ∀ e, P e → P (e.1, value)) : ∀ e ∈ insertKey key value entries, P e := by
  induction entries with
  | nil => exact List.forall_mem_singleton.mpr hnew
  | cons e es ih =>
    rw [List.forall_mem_cons] at hold
    rw [insertKey]
    split_ifs
    · exact List.forall_mem_cons.mpr ⟨hset e hold.1, hold.2⟩
    · exact List.forall_mem_cons.mpr ⟨hold.1, ih hold.2⟩

/-- Setting an entry names no key twice. -/
theorem pairwise_insertKey {key value : Value} {entries : List (Value × Value)}
    (h : entries.Pairwise fun a b => sameKey b.1 a.1 = false) :
    (insertKey key value entries).Pairwise fun a b => sameKey b.1 a.1 = false := by
  induction entries with
  | nil => exact List.pairwise_singleton _ _
  | cons e es ih =>
    rw [List.pairwise_cons] at h
    rw [insertKey]
    split_ifs with hsame
    · exact List.pairwise_cons.mpr h
    · refine List.pairwise_cons.mpr ⟨?_, ih h.2⟩
      exact forall_mem_insertKey h.1 (Bool.eq_false_iff.mpr hsame) fun _ he => he

theorem IsSound.insertKey {entries : List (Value × Value)} (h : (Value.table entries).IsSound)
    {key value : Value} (hkey : key.IsSoundScalar) (hvalue : value.IsSound) :
    (Value.table (insertKey key value entries)).IsSound := by
  cases h with
  | table apart scalars keys values =>
    refine .table (pairwise_insertKey apart) ?_ ?_ ?_
    · exact forall_mem_insertKey scalars hkey.isScalar fun _ he => he
    · exact forall_mem_insertKey keys hkey.isSound fun _ he => he
    · exact forall_mem_insertKey values hvalue fun _ _ => hvalue

end Value

/-! ### Values -/

namespace Decoding

variable {d : Document}

theorem isSoundScalar_of_resolve {tag : Bytes} {t : Text} {found : Bytes × Value}
    (h : resolve tag t = .ok found) : found.2.IsSoundScalar := by
  simp only [resolve] at h
  split_ifs at h
  · obtain rfl := Except.ok.inj h
    exact ⟨.text, rfl⟩
  · obtain rfl := Except.ok.inj h
    exact isSoundScalar_looksLike true t
  · have hlooks := isSoundScalar_looksLike (tag == Tag.timestamp) t
    obtain rfl := Except.ok.inj h
    exact hlooks
  · split at h
    · split_ifs at h
      obtain rfl := Except.ok.inj h
      exact ⟨.float (isValid_ofInt _), rfl⟩
    · cases h
  · obtain rfl := Except.ok.inj h
    exact ⟨.text, rfl⟩

theorem yields_scalarValue (tag : Bytes) (t : Text) :
    Yields (fun found => found.2.IsSoundScalar) (scalarValue tag t) := by
  unfold scalarValue
  split
  · exact yields_stop _
  · next hresolve =>
    split_ifs
    · split
      · exact yields_pure ⟨.text, rfl⟩
      · exact yields_stop _
    · exact yields_pure (isSoundScalar_of_resolve hresolve)

theorem yields_textEntries {any : Node → Decoding (Option Value)}
    (hany : ∀ n, Yields (fun o => ∀ v ∈ o, v.IsSound) (any n)) (fuel : ℕ)
    (entries : List (Node × Node)) :
    Yields (fun o => ∀ es ∈ o, (Value.map es).IsSound) (textEntries d any fuel entries) := by
  refine Yields.entriesInto (P := fun es => (Value.map es).IsSound) (fun out e hout => ?_) _ _ _
    (.map (List.forall_mem_nil _))
  refine (hany e.value).bind fun value? hvalue => ?_
  cases value? with
  | none => exact yields_pure hout
  | some v =>
    cases hout with
    | map hout => exact yields_pure (.map (Entries.forall_mem_set hout (hvalue v rfl)))

theorem yields_valueEntries {any : Node → Decoding (Option Value)}
    (hany : ∀ n, Yields (fun o => ∀ v ∈ o, v.IsSound) (any n)) (fuel : ℕ)
    (entries : List (Node × Node)) :
    Yields (fun o => ∀ es ∈ o, (Value.table es).IsSound) (valueEntries d any fuel entries) := by
  refine @Yields.entriesInto_of_keys _ _ ⟨Value.sameKey⟩ Value.IsSound
    (fun es => (Value.table es).IsSound) _ _ _ _ _ hany (fun out e hkey hout => ?_) _ _ _ _
    (.table .nil (List.forall_mem_nil _) (List.forall_mem_nil _) (List.forall_mem_nil _))
  obtain ⟨name, key, value, isRepeated, isOwn⟩ := e
  cases key with
  | list _ => exact yields_stop_bind _ _
  | map _ => exact yields_stop_bind _ _
  | table _ => exact yields_stop_bind _ _
  | _ =>
    refine (hany value).bind fun value? hvalue => ?_
    cases value? with
    | none => exact yields_pure hout
    | some v => exact yields_pure (hout.insertKey ⟨hkey, rfl⟩ (hvalue v rfl))

/-- **Every value that is decoded is sound.** -/
theorem yields_anyValue (fuel : ℕ) (n : Node) :
    Yields (fun o => ∀ v ∈ o, v.IsSound) (anyValue d fuel n) := by
  induction fuel generalizing n with
  | zero => exact yields_pure fun _ h => absurd h (Option.not_mem_none _)
  | succ fuel ih =>
    refine Yields.visit fun n => ?_
    split
    · exact (yields_scalarValue _ _).bind fun found hfound =>
        yields_pure fun v hv => (Option.mem_some.mp hv) ▸ hfound.isSound
    · exact (Yields.filterMapM ih _).bind fun vs hvs =>
        yields_pure fun v hv => (Option.mem_some.mp hv) ▸ .list hvs
    · split_ifs
      · refine (yields_textEntries ih _ _).bind fun es? hes => yields_pure fun v hv => ?_
        obtain ⟨es, rfl, rfl⟩ := Option.map_eq_some_iff.mp hv
        exact hes es rfl
      · refine (yields_valueEntries ih _ _).bind fun es? hes => yields_pure fun v hv => ?_
        obtain ⟨es, rfl, rfl⟩ := Option.map_eq_some_iff.mp hv
        exact hes es rfl
    · exact yields_pure fun _ h => absurd h (Option.not_mem_none _)

end Decoding

/-! ### Configurations -/

/-- Whether settings are ones that decoding can give. -/
structure Settings.IsSound (settings : Settings) : Prop where
  isDistinct : Entries.IsDistinct settings
  values : ∀ s ∈ settings, s.2.IsSound

/-- Whether the settings of an entry, if it has some, are ones that decoding can give. -/
def RuleEntry.IsSound (e : RuleEntry) : Prop := ∀ settings ∈ e.settings, Settings.IsSound settings

/-- Whether all parts of a configuration are ones that decoding can give. -/
structure Config.IsSound (c : Config) : Prop where
  jobs : -(intLimit : ℤ) ≤ c.jobs ∧ c.jobs < intLimit
  rules : ∀ e ∈ c.rules, e.2.IsSound
  overrides : ∀ o ∈ c.overrides, ∀ e ∈ o.rules, e.2.IsSound

namespace Decoding

variable (d : Document)

theorem yields_settingsOf (n : Node) :
    Yields (fun o => ∀ settings ∈ o, Settings.IsSound settings) (settingsOf d n) := by
  refine Yields.mappingOf (P := Settings.IsSound) (fun _ h => absurd h (Option.not_mem_none _))
    ⟨Entries.isDistinct_nil, List.forall_mem_nil _⟩ (fun out e hout => ?_) n
  refine (yields_anyValue _ e.value).bind fun value? hvalue => ?_
  cases value? with
  | none => exact yields_pure hout
  | some v =>
    exact yields_pure
      { isDistinct := hout.isDistinct.set e.key v
        values := Entries.forall_mem_set hout.values (hvalue v rfl) }

theorem yields_plainRuleEntry (n : Node) :
    Yields (fun o => ∀ e ∈ o, e.IsSound) (plainRuleEntry d n) := by
  refine Yields.mappingAt (P := RuleEntry.IsSound) (fun _ h => absurd h (Option.not_mem_none _))
    (fun _ h => absurd h (Option.not_mem_none _)) (fun out e hout => ?_) n
  split_ifs
  · exact Yields.field hout (yields_bind fun _ => yields_pure hout)
  · refine Yields.field hout ((yields_settingsOf d e.value).bind fun settings? hsettings => ?_)
    cases settings? with
    | none => exact yields_pure hout
    | some settings => exact yields_pure hsettings
  · exact yields_pure hout

theorem yields_ruleEntryOf (n : Node) :
    Yields (fun o => ∀ e ∈ o, e.IsSound) (ruleEntryOf d n) := by
  refine Yields.visit fun n => ?_
  split_ifs
  · exact yields_plainRuleEntry d n
  · split
    · split
      · exact yields_pure fun e he => (Option.mem_some.mp he) ▸
          fun _ h => absurd h (Option.not_mem_none _)
      · exact yields_throw _
    · split
      · next settings hsettings =>
        exact yields_pure fun e he => (Option.mem_some.mp he) ▸
          of_apart_eq_ok (yields_settingsOf d _) hsettings
      · exact yields_throw _
    · exact yields_throw _

theorem yields_sound_rulesOf (n : Node) :
    Yields (fun o => ∀ rules ∈ o, ∀ e ∈ rules, e.2.IsSound) (rulesOf d n) := by
  refine Yields.mappingOf (P := fun rules : Entries RuleEntry => ∀ e ∈ rules, e.2.IsSound) ?_
    (List.forall_mem_nil _) (fun out e hout => ?_) n
  · exact fun rules hrules => (Option.mem_some.mp hrules) ▸ List.forall_mem_nil _
  refine (yields_ruleEntryOf d e.value).bind fun entry? hentry => ?_
  split
  · exact yields_pure (Entries.forall_mem_set hout (hentry _ rfl))
  · split_ifs
    · refine yields_pure (Entries.forall_mem_set hout ?_)
      exact fun _ h => absurd h (Option.not_mem_none _)
    · exact yields_pure hout

theorem yields_sound_overrideOf (n : Node) :
    Yields (fun o => ∀ override ∈ o, ∀ e ∈ override.rules, e.2.IsSound) (overrideOf d n) := by
  refine Yields.mappingOf (P := fun o : Override => ∀ e ∈ o.rules, e.2.IsSound)
    (fun _ h => absurd h (Option.not_mem_none _)) (List.forall_mem_nil _) (fun out e hout => ?_) n
  split_ifs
  · exact Yields.field hout (yields_bind fun files => yields_pure hout)
  · refine Yields.field hout
      ((yields_sound_rulesOf d e.value).bind fun rules? hrules => yields_pure ?_)
    cases rules? with
    | none => exact hout
    | some rules => exact hrules rules rfl
  · exact yields_pure hout

theorem truncate?_bounds {x : Binary64} {n : ℤ} (h : x.truncate? = some n) :
    -(intLimit : ℤ) ≤ n ∧ n < intLimit := by
  have hpositive : 0 < intLimit := by decide
  cases x with
  | nan => cases h
  | infinity negative =>
    simp only [Binary64.truncate?] at h
    split_ifs at h
    obtain rfl := Option.some.inj h
    omega
  | finite negative mant exp =>
    simp only [Binary64.truncate?] at h
    generalize mant * (Binary64.powers 2 exp).1 / (Binary64.powers 2 exp).2 = m at h
    split_ifs at h
    all_goals
      obtain rfl := Option.some.inj h
      omega

theorem asInt?_bounds {v : Value} (hv : v.IsSound) {n : ℤ} (h : asInt? v = some n) :
    -(intLimit : ℤ) ≤ n ∧ n < intLimit := by
  cases hv with
  | int low high =>
    simp only [asInt?] at h
    split_ifs at h with hmax
    obtain rfl := Option.some.inj h
    exact ⟨low, by rw [Value.maxInt] at hmax; omega⟩
  | float => exact truncate?_bounds h
  | _ => cases h

theorem yields_scalarOf {α : Type} {P : α → Prop} {wanted : Shape} {accept : Value → Option α}
    (haccept : ∀ v a, v.IsSound → accept v = some a → P a) (n : Node) :
    Yields (fun o => ∀ a ∈ o, P a) (scalarOf d wanted accept n) := by
  refine Yields.visit fun n => ?_
  split
  · refine (yields_scalarValue _ _).bind fun found hfound => ?_
    split
    · exact yields_pure fun _ h => absurd h (Option.not_mem_none _)
    · split
      · next haccepted =>
        exact yields_pure fun a ha => (Option.mem_some.mp ha) ▸
          haccept _ _ hfound.isSound haccepted
      · exact yields_mismatch d _ wanted
  · refine yields_bind fun hasDuplicates => ?_
    split_ifs
    · exact yields_pure fun _ h => absurd h (Option.not_mem_none _)
    · exact yields_mismatch d _ wanted
  · exact yields_mismatch d _ wanted

theorem yields_sound_configOf (n : Node) :
    Yields (fun o => ∀ c ∈ o, c.IsSound) (configOf d n) := by
  refine Yields.mappingOf (P := Config.IsSound)
    (fun _ h => absurd h (Option.not_mem_none _)) ?_ (fun out e hout => ?_) n
  · exact ⟨by decide, List.forall_mem_nil _, List.forall_mem_nil _⟩
  split_ifs
  · exact Yields.field hout (yields_bind fun _ => yields_pure { hout with })
  · exact Yields.field hout (yields_bind fun _ => yields_pure { hout with })
  · exact Yields.field hout (yields_bind fun _ => yields_pure { hout with })
  · refine Yields.field hout ((yields_scalarOf d (fun _ _ hv => asInt?_bounds hv) e.value).bind
      fun jobs? hjobs => yields_pure ?_)
    cases jobs? with
    | none => exact { hout with }
    | some jobs => exact { hout with jobs := hjobs jobs rfl }
  · refine Yields.field hout
      ((yields_sound_rulesOf d e.value).bind fun rules? hrules => yields_pure ?_)
    cases rules? with
    | none => exact { hout with }
    | some rules => exact { hout with rules := hrules rules rfl }
  · refine Yields.field hout ((Yields.listOf (yields_sound_overrideOf d) e.value).bind
      fun list? hlist => yields_pure ?_)
    cases list? with
    | none => exact { hout with }
    | some list => exact { hout with overrides := hlist list rfl }
  · exact yields_pure hout

end Decoding

namespace Config

theorem isSound_of_decode {data : Bytes} {c : Config} (h : decode data = .ok c) : c.IsSound := by
  have hempty : Config.IsSound {} := ⟨by decide, List.forall_mem_nil _, List.forall_mem_nil _⟩
  unfold decode at h
  split at h
  · cases h
  · obtain rfl := Except.ok.inj h
    exact hempty
  · next d _ =>
    obtain ⟨c?, hc, hok⟩ := bind_eq_ok_iff.mp h
    obtain rfl := Except.ok.inj hok
    have hyields :=
      Decoding.of_apart_eq_ok (yields_bind fun _ => Decoding.yields_sound_configOf d d.root) hc
    cases c? with
    | none => exact hempty
    | some c => exact hyields c rfl

/-- **All parts of a loaded configuration are within bounds.** -/
theorem isSound_of_load {w : World} {path : Bytes} {c : Config} (h : load w path = .ok c) :
    c.IsSound := by
  unfold load at h
  split at h
  · cases h
  · split at h
    · next c' hdecode =>
      obtain rfl := Except.ok.inj h
      exact isSound_of_decode hdecode
    · cases h

end Config

end ScriptLint
