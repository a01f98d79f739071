import ScriptLint.Config.Load
import ScriptLint.Proofs.Config.Effective
import ScriptLint.Proofs.Except

/-!
# What decoding yields

Decoding is a computation with a state and with faults. The lemmas here carry what is known of all
that it gives (`Yields`) through the steps that decoding is made of: visiting a node, the entries of
a mapping with those that are merged into it, and the items of a list.

The application is that the tables of a loaded configuration are maps: it lists every rule once in
its own and in that of each override (`Config.isDistinct_of_load`).
-/

namespace ScriptLint

open Yaml

namespace Decoding

variable {α β σ : Type} {P : α → Prop} {Q : β → Prop}

/-! ### The steps of a computation -/

theorem yields_stop (cause : Cause) : Yields P (stop cause) := yields_throw _

/-- Nothing comes after a fault. -/
theorem yields_stop_bind (cause : Cause) (f : α → Decoding β) : Yields Q (stop cause >>= f) := by
  have hstop : Yields (fun _ => False) (stop (α := α) cause) := yields_stop cause
  exact hstop.bind fun _ h => h.elim

theorem Yields.foldlM {P : σ → Prop} {f : σ → α → Decoding σ}
    (hf : ∀ out a, P out → Yields P (f out a)) {start : σ} (hstart : P start) (as : List α) :
    Yields P (as.foldlM f start) := by
  induction as generalizing start with
  | nil => exact yields_pure hstart
  | cons a as ih =>
    rw [List.foldlM_cons]
    exact (hf start a hstart).bind fun out hout => ih hout

theorem Yields.filterMapM {f : α → Decoding (Option β)}
    (hf : ∀ a, Yields (fun o => ∀ b ∈ o, Q b) (f a)) (as : List α) :
    Yields (fun bs => ∀ b ∈ bs, Q b) (as.filterMapM f) := by
  induction as with
  | nil => exact yields_pure (List.forall_mem_nil _)
  | cons a as ih =>
    rw [List.filterMapM_cons]
    refine (hf a).bind fun o ho => ?_
    cases o with
    | none => exact ih
    | some b =>
      refine ih.bind fun bs hbs => yields_pure ?_
      rw [List.forall_mem_cons]
      exact ⟨ho b rfl, hbs⟩

/-! ### Nodes -/

theorem Yields.visit {d : Document} {n : Node} {act : Node → Decoding α}
    (hact : ∀ n, Yields P (act n)) : Yields P (visit d n act) := by
  unfold Decoding.visit
  refine yields_bind fun _ => ?_
  split
  · refine yields_bind fun s => ?_
    split_ifs
    · exact yields_stop_bind _ _
    · split
      · exact yields_stop _
      · refine yields_bind fun _ => yields_bind fun _ => (hact _).bind fun a ha => ?_
        exact yields_bind fun _ => yields_pure ha
  · exact hact _

theorem yields_mismatch (d : Document) (n : Node) (wanted : Shape) :
    Yields (fun o => ∀ a ∈ o, P a) (mismatch (α := α) d n wanted) :=
  yields_bind fun _ => yields_pure fun _ h => absurd h (Option.not_mem_none _)

/-! ### Mappings and lists -/

theorem Yields.mergeOne {P : σ → Prop} {d : Document}
    {into : List (Node × Node) → σ → Decoding (Option σ)} {out : σ}
    (hinto : ∀ inner, Yields (fun o => ∀ a ∈ o, P a) (into inner out)) (hout : P out) (n : Node) :
    Yields P (mergeOne d into out n) := by
  unfold Decoding.mergeOne
  split_ifs
  · exact yields_stop_bind _ _
  · refine Yields.visit fun n => ?_
    split
    · refine (hinto _).bind fun o ho => yields_pure ?_
      cases o with
      | none => exact hout
      | some a => exact ho a rfl
    · exact yields_pure hout

/-- **What every entry preserves, a mapping preserves**, the mappings merged into it included. What
is known of every key may be relied on. -/
theorem Yields.entriesInto_of_keys {κ : Type} [BEq κ] {K : κ → Prop} {P : σ → Prop} {d : Document}
    {any : Node → Decoding (Option Value)} {keyOf : Node → Decoding (Option κ)}
    {asValue : κ → Value} {put : σ → Entry κ → Decoding σ}
    (hkey : ∀ n, Yields (fun o => ∀ key ∈ o, K key) (keyOf n))
    (hput : ∀ out e, K e.key → P out → Yields P (put out e)) (fuel : ℕ) (isOwn : Bool)
    (entries : List (Node × Node)) {out : σ} (hout : P out) :
    Yields (fun o => ∀ a ∈ o, P a)
      (entriesInto d any keyOf asValue put fuel isOwn entries out) := by
  -- The fuel goes down from a mapping to those that are merged into it.
  induction fuel generalizing isOwn entries out with
  | zero => exact yields_pure fun _ h => absurd h (Option.not_mem_none _)
  | succ fuel ih =>
    unfold Decoding.entriesInto
    refine yields_bind fun hasDuplicates => ?_
    split_ifs
    · exact yields_pure fun _ h => absurd h (Option.not_mem_none _)
    refine yields_bind fun s => yields_bind fun _ => ?_
    refine Yields.bind (P := fun r : σ × Option (List Value) × List κ => P r.1) ?_
      fun r hr => yields_bind fun _ => ?_
    · refine Yields.foldlM ?_ ?_ _
      · rintro ⟨out, claimed, seen⟩ ⟨name, value⟩ hout
        refine (hkey name).bind fun key? hkey => ?_
        split
        · exact yields_pure hout
        · next key =>
          refine yields_bind fun keys => ?_
          obtain ⟨isSet, claimed⟩ := keys
          dsimp only
          split_ifs
          · exact yields_pure hout
          · exact (hput out _ (hkey key rfl) hout).bind fun out hout => yields_pure hout
      · exact hout
    · split
      · exact yields_pure fun a ha => (Option.mem_some.mp ha) ▸ hr
      · -- The keys that are set change what is merged in, but not what is preserved.
        have hmerge : ∀ sources : List Node,
            Yields P (sources.foldlM (Decoding.mergeOne d fun inner out =>
              Decoding.entriesInto d any keyOf asValue put fuel false inner out) r.1) :=
          fun sources => Yields.foldlM
            (fun out n hout => Yields.mergeOne (fun inner => ih false inner hout) hout n) hr sources
        split_ifs
        · refine yields_bind fun _ => yields_bind fun _ => (hmerge _).bind fun a ha => ?_
          exact yields_bind fun _ => yields_pure fun b hb => (Option.mem_some.mp hb) ▸ ha
        · exact (hmerge _).bind fun a ha => yields_pure fun b hb => (Option.mem_some.mp hb) ▸ ha

/-- What every entry preserves, whatever its key, a mapping preserves. -/
theorem Yields.entriesInto {κ : Type} [BEq κ] {P : σ → Prop} {d : Document}
    {any : Node → Decoding (Option Value)} {keyOf : Node → Decoding (Option κ)}
    {asValue : κ → Value} {put : σ → Entry κ → Decoding σ}
    (hput : ∀ out e, P out → Yields P (put out e)) (fuel : ℕ) (isOwn : Bool)
    (entries : List (Node × Node)) {out : σ} (hout : P out) :
    Yields (fun o => ∀ a ∈ o, P a)
      (entriesInto d any keyOf asValue put fuel isOwn entries out) :=
  Yields.entriesInto_of_keys (K := fun _ => True) (fun _ _ _ _ _ _ _ => trivial)
    (fun out e _ => hput out e) fuel isOwn entries hout

theorem Yields.mappingAt {P : σ → Prop} {d : Document} {wanted : Shape} {null : Option σ}
    {start : σ} {put : σ → Entry Bytes → Decoding σ} (hnull : ∀ a ∈ null, P a) (hstart : P start)
    (hput : ∀ out e, P out → Yields P (put out e)) (n : Node) :
    Yields (fun o => ∀ a ∈ o, P a) (mappingAt d wanted null start put n) := by
  unfold Decoding.mappingAt
  split
  · exact Yields.entriesInto hput _ _ _ hstart
  · refine yields_bind fun value => ?_
    split
    · exact yields_pure hnull
    · exact yields_mismatch d _ wanted
  · exact yields_mismatch d _ wanted
  · exact yields_pure fun _ h => absurd h (Option.not_mem_none _)

theorem Yields.mappingOf {P : σ → Prop} {d : Document} {wanted : Shape} {null : Option σ}
    {start : σ} {put : σ → Entry Bytes → Decoding σ} (hnull : ∀ a ∈ null, P a) (hstart : P start)
    (hput : ∀ out e, P out → Yields P (put out e)) (n : Node) :
    Yields (fun o => ∀ a ∈ o, P a) (mappingOf d wanted null start put n) :=
  Yields.visit (Yields.mappingAt hnull hstart hput)

theorem Yields.listOf {d : Document} {wanted : Shape} {item : Node → Decoding (Option α)}
    (hitem : ∀ n, Yields (fun o => ∀ a ∈ o, P a) (item n)) (n : Node) :
    Yields (fun o => ∀ as ∈ o, ∀ a ∈ as, P a) (listOf d wanted item n) := by
  refine Yields.visit fun n => ?_
  split
  · refine (Yields.filterMapM hitem _).bind fun as has => yields_pure fun bs hbs => ?_
    exact (Option.mem_some.mp hbs) ▸ has
  · refine yields_bind fun value => ?_
    split
    · exact yields_pure fun bs hbs => (Option.mem_some.mp hbs) ▸ List.forall_mem_nil _
    · exact yields_mismatch d _ wanted
  · refine yields_bind fun hasDuplicates => ?_
    split_ifs
    · exact yields_pure fun _ h => absurd h (Option.not_mem_none _)
    · exact yields_mismatch d _ wanted
  · exact yields_pure fun _ h => absurd h (Option.not_mem_none _)

theorem Yields.field {P : σ → Prop} {inside : Shape} {e : Entry Bytes} {out : σ}
    {act : Decoding σ} (hout : P out) (hact : Yields P act) :
    Yields P (field inside e out act) := by
  unfold Decoding.field
  split_ifs
  · exact yields_bind fun _ => yields_pure hout
  · exact hact

theorem of_apart_eq_ok {m : Decoding α} (hm : Yields P m) {a : α} (h : apart m = .ok a) : P a := by
  unfold Decoding.apart at h
  split at h
  · exact absurd h (by simp)
  · next a' s hrun =>
    split_ifs at h
    obtain rfl := Except.ok.inj h
    exact hm _ _ _ hrun

/-! ### Rules and overrides -/

/-- The rules are set one after the other, so none is listed twice. -/
theorem yields_rulesOf (d : Document) (n : Node) :
    Yields (fun o => ∀ rules ∈ o, rules.IsDistinct) (rulesOf d n) := by
  refine Yields.mappingOf (P := Entries.IsDistinct) ?_ Entries.isDistinct_nil
    (fun out e hout => yields_bind fun entry? => ?_) n
  · rintro rules hrules
    rw [← Option.mem_some.mp hrules]
    exact Entries.isDistinct_nil
  · split
    · exact yields_pure (hout.set _ _)
    · split_ifs
      · exact yields_pure (hout.set _ _)
      · exact yields_pure hout

theorem yields_overrideOf (d : Document) (n : Node) :
    Yields (fun o => ∀ override ∈ o, override.rules.IsDistinct) (overrideOf d n) := by
  refine Yields.mappingOf (P := fun o : Override => o.rules.IsDistinct)
    (fun _ h => absurd h (Option.not_mem_none _)) ?_ (fun out e hout => ?_) n
  · exact Entries.isDistinct_nil
  split_ifs
  · exact Yields.field hout (yields_bind fun files => yields_pure hout)
  · refine Yields.field hout ((yields_rulesOf d e.value).bind fun rules? hrules => yields_pure ?_)
    cases rules? with
    | none => exact hout
    | some rules => exact hrules rules rfl
  · exact yields_pure hout

theorem yields_configOf (d : Document) (n : Node) :
    Yields (fun o => ∀ c ∈ o, c.IsDistinct) (configOf d n) := by
  refine Yields.mappingOf (P := Config.IsDistinct)
    (fun _ h => absurd h (Option.not_mem_none _)) ?_ (fun out e hout => ?_) n
  · exact ⟨Entries.isDistinct_nil, List.forall_mem_nil _⟩
  -- Only the fields of the rules and of the overrides touch the tables.
  split_ifs
  · exact Yields.field hout (yields_bind fun _ => yields_pure ⟨hout.rules, hout.overrides⟩)
  · exact Yields.field hout (yields_bind fun _ => yields_pure ⟨hout.rules, hout.overrides⟩)
  · exact Yields.field hout (yields_bind fun _ => yields_pure ⟨hout.rules, hout.overrides⟩)
  · exact Yields.field hout (yields_bind fun _ => yields_pure ⟨hout.rules, hout.overrides⟩)
  · refine Yields.field hout ((yields_rulesOf d e.value).bind fun rules? hrules => yields_pure ?_)
    cases rules? with
    | none => exact ⟨hout.rules, hout.overrides⟩
    | some rules => exact ⟨hrules rules rfl, hout.overrides⟩
  · refine Yields.field hout ?_
    refine (Yields.listOf (yields_overrideOf d) e.value).bind fun list? hlist => yields_pure ?_
    cases list? with
    | none => exact ⟨hout.rules, hout.overrides⟩
    | some list => exact ⟨hout.rules, hlist list rfl⟩
  · exact yields_pure hout

end Decoding

namespace Config

theorem isDistinct_of_decode {data : Bytes} {c : Config} (h : decode data = .ok c) :
    c.IsDistinct := by
  have hempty : Config.IsDistinct {} := ⟨Entries.isDistinct_nil, List.forall_mem_nil _⟩
  unfold decode at h
  split at h
  · exact absurd h (by simp)
  · obtain rfl := Except.ok.inj h
    exact hempty
  · next d _ =>
    cases hc : Decoding.apart (do Decoding.tick; Decoding.configOf d d.root) with
    | error e =>
      rw [hc] at h
      exact absurd h (by simp [bind, Except.bind])
    | ok c? =>
      rw [hc] at h
      obtain rfl := Except.ok.inj h
      have hyields :=
        Decoding.of_apart_eq_ok (yields_bind fun _ => Decoding.yields_configOf d d.root) hc
      cases c? with
      | none => exact hempty
      | some c => exact hyields c rfl

/-- **The tables of a loaded configuration are maps.** -/
theorem isDistinct_of_load {w : World} {path : Bytes} {c : Config} (h : load w path = .ok c) :
    c.IsDistinct := by
  unfold load at h
  split at h
  · exact absurd h (by simp)
  · split at h
    · next c' hdecode =>
      obtain rfl := Except.ok.inj h
      exact isDistinct_of_decode hdecode
    · exact absurd h (by simp)

end Config

end ScriptLint
