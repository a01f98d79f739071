import ScriptLint.Config.Load
import ScriptLint.Proofs.Yaml.Agreement

/-!
# Decoding without aliases

A document that was written from a tree has no aliases, no merges and no keys that are written
alike. Decoding it meets no fault and no complaint: it stays calm (`DecodeState.IsCalm`).
`Decoding.Gives P m` says that from every calm state `m` gives something with the property `P` and
is calm afterwards, and the lemmas here carry this through the steps that decoding is made of.
-/

namespace ScriptLint

open Yaml

/-- Whether decoding is inside of no alias and no merge, and has noted no complaint. -/
structure DecodeState.IsCalm (s : DecodeState) : Prop where
  aliasSteps : s.aliasSteps = 0
  inside : s.inside = []
  complaints : s.complaints = []
  merged : s.merged = none

namespace Decoding

variable {ι α β σ : Type} {P : α → Prop} {Q : β → Prop}

/-- Whether a step of decoding gives something with a property and stays calm. -/
def Gives (P : α → Prop) (m : Decoding α) : Prop :=
  ∀ s, s.IsCalm → ∃ a s', m.run s = .ok (a, s') ∧ s'.IsCalm ∧ P a

theorem forall₂_and {R : ι → α → Prop} {is : List ι} {as : List α} (h : List.Forall₂ R is as)
    (hP : ∀ a ∈ as, P a) : List.Forall₂ (fun i a => R i a ∧ P a) is as := by
  induction h with
  | nil => exact .nil
  | cons hi _ ih =>
    rw [List.forall_mem_cons] at hP
    exact .cons ⟨hi, hP.1⟩ (ih hP.2)

/-! ### The steps of a computation -/

theorem gives_pure {a : α} (h : P a) : Gives P (pure a) := fun s hs => ⟨a, s, rfl, hs, h⟩

/-- What comes second may rely on what the first step gives. -/
theorem Gives.bind {m : Decoding α} {f : α → Decoding β} (hm : Gives P m)
    (hf : ∀ a, P a → Gives Q (f a)) : Gives Q (m >>= f) := by
  intro s hs
  obtain ⟨a, s₁, hrun, hs₁, ha⟩ := hm s hs
  obtain ⟨b, s₂, hrun', hs₂, hb⟩ := hf a ha s₁ hs₁
  refine ⟨b, s₂, ?_, hs₂, hb⟩
  rw [StateT.run_bind, hrun]
  exact hrun'

theorem Gives.mono {P' : α → Prop} {m : Decoding α} (hm : Gives P m) (h : ∀ a, P a → P' a) :
    Gives P' m := by
  intro s hs
  obtain ⟨a, s', hrun, hs', ha⟩ := hm s hs
  exact ⟨a, s', hrun, hs', h a ha⟩

theorem gives_get : Gives DecodeState.IsCalm (get : Decoding DecodeState) :=
  fun s hs => ⟨s, s, rfl, hs, hs⟩

theorem gives_set {s : DecodeState} (hs : s.IsCalm) :
    Gives (fun _ => True) (set s : Decoding PUnit) := fun _ _ => ⟨(), s, rfl, hs, trivial⟩

/-- Going outside of a merge. -/
theorem gives_outside : Gives (fun _ => True)
    (modify fun s => { s with merged := none } : Decoding PUnit) :=
  fun _ hs => ⟨(), _, rfl, { hs with merged := rfl }, trivial⟩

/-- **What each step of a loop preserves, the loop preserves.** -/
theorem Gives.foldlM {R : ι → α → Prop} {J : List ι → σ → Prop} {f : σ → α → Decoding σ}
    {is : List ι} (hf : ∀ done i a out, done ++ [i] <+: is → R i a → J done out →
      Gives (J (done ++ [i])) (f out a)) {as : List α} (h : List.Forall₂ R is as) {out : σ}
    (hout : J [] out) : Gives (J is) (as.foldlM f out) := by
  suffices hrest : ∀ done rest, done ++ rest = is → ∀ as, List.Forall₂ R rest as →
      ∀ out, J done out → Gives (J is) (as.foldlM f out) from hrest [] is rfl as h out hout
  intro done rest
  induction rest generalizing done with
  | nil =>
    intro hsplit as has out hout
    cases has
    rw [List.append_nil] at hsplit
    exact gives_pure (hsplit ▸ hout)
  | cons i rest ih =>
    intro hsplit as has out hout
    cases has with
    | cons hi hrest =>
      have hinitial : done ++ [i] <+: is := ⟨rest, by rw [← hsplit, List.append_assoc]; rfl⟩
      rw [List.foldlM_cons]
      refine (hf done i _ out hinitial hi hout).bind fun out' hout' => ?_
      exact ih (done ++ [i]) (by rw [← hsplit, List.append_assoc]; rfl) _ hrest out' hout'

theorem Gives.filterMapM {R : ι → α → Prop} {T : ι → β → Prop} {f : α → Decoding (Option β)}
    (hf : ∀ i a, R i a → Gives (fun o => ∃ b, o = some b ∧ T i b) (f a)) {is : List ι}
    {as : List α} (h : List.Forall₂ R is as) :
    Gives (List.Forall₂ T is) (as.filterMapM f) := by
  induction h with
  | nil => exact gives_pure .nil
  | cons hi _ ih =>
    rw [List.filterMapM_cons]
    refine (hf _ _ hi).bind ?_
    rintro _ ⟨b, rfl, hb⟩
    exact ih.bind fun bs hbs => gives_pure (.cons hb hbs)

/-! ### Nodes -/

theorem gives_tick : Gives (fun _ => True) tick := by
  unfold tick
  refine gives_get.bind fun s hs => ?_
  have hsteps : (if s.inside.isEmpty then s.aliasSteps else s.aliasSteps + 1) = 0 := by
    rw [hs.inside]
    exact hs.aliasSteps
  have hcalm : isExcessive (s.steps + 1) 0 = false := rfl
  simp only [hsteps, hcalm, Bool.false_eq_true, if_false]
  exact gives_set { hs with aliasSteps := rfl }

theorem Gives.visit {d : Document} {n : Node} {act : Node → Decoding α} (hn : n.isWritten = true)
    (hact : Gives P (act n)) : Gives P (visit d n act) := by
  unfold Decoding.visit
  refine gives_tick.bind fun _ _ => ?_
  cases n with
  | reference => exact absurd hn (by simp [Node.isWritten])
  | _ => exact hact

theorem gives_scalarValue {tag : Bytes} {t : Text} {v : Value}
    (h : scalarValue tag t = pure (tag, v)) :
    Gives (fun r => r = (tag, v)) (scalarValue tag t) := by
  rw [h]
  exact gives_pure rfl

/-! ### Mappings -/

theorem gives_complainDuplicates {entries : List (Node × Node)}
    (h : entries.Pairwise fun a b => Node.alike a.1 b.1 = false) :
    Gives (fun found => found = false) (complainDuplicates entries) := by
  have hnone : complainDuplicates.duplicates (entries.map (·.1)) = [] := by
    induction entries with
    | nil => rfl
    | cons e es ih =>
      rw [List.pairwise_cons] at h
      have hkeys : (es.map (·.1)).filter e.1.alike = [] := by
        rw [List.filter_eq_nil_iff, List.forall_mem_map]
        exact fun e' he' => by rw [h.1 e' he']; exact Bool.false_ne_true
      rw [List.map_cons, complainDuplicates.duplicates, hkeys, ih h.2]
      rfl
  unfold complainDuplicates
  rw [hnone]
  exact gives_pure rfl

/-- **The entries of a calm mapping**: what each of them preserves, the mapping preserves. -/
theorem gives_entriesInto {κ : Type} [BEq κ] {R : ι → Node × Node → Prop} {K : ι → κ → Prop}
    {J : List ι → σ → Prop} {d : Document} {any : Node → Decoding (Option Value)}
    {keyOf : Node → Decoding (Option κ)} {asValue : κ → Value} {put : σ → Entry κ → Decoding σ}
    {isOwn : Bool} {is : List ι} {entries : List (Node × Node)}
    (hentries : List.Forall₂ R is entries)
    (hapart : entries.Pairwise fun a b => Node.alike a.1 b.1 = false)
    (hmerge : ∀ e ∈ entries, e.1.isMerge = false)
    (hkey : ∀ i n, R i n → Gives (fun o => ∃ key, o = some key ∧ K i key) (keyOf n.1))
    (hput : ∀ done i e out, done ++ [i] <+: is → R i (e.name, e.value) → K i e.key →
      e.isOwn = isOwn → (e.isRepeated = true → ∃ j ∈ done, ∃ key, K j key ∧ (e.key == key) = true) →
      J done out → Gives (J (done ++ [i])) (put out e))
    (fuel : ℕ) {out : σ} (hout : J [] out) :
    Gives (fun o => ∃ a, o = some a ∧ J is a)
      (entriesInto d any keyOf asValue put (fuel + 1) isOwn entries out) := by
  have hown : entries.filter (fun e => !e.1.isMerge) = entries := by
    rw [List.filter_eq_self]
    exact fun e he => by rw [hmerge e he]; rfl
  have hother : entries.filter (fun e => e.1.isMerge) = [] := by
    rw [List.filter_eq_nil_iff]
    exact fun e he => by rw [hmerge e he]; exact Bool.false_ne_true
  unfold entriesInto
  refine (gives_complainDuplicates hapart).bind ?_
  rintro _ rfl
  refine gives_get.bind fun s hs => gives_outside.bind fun _ _ => ?_
  refine Gives.bind (P := fun r : σ × Option (List Value) × List κ =>
    r.2.1 = none ∧ (∀ k ∈ r.2.2, ∃ j ∈ is, K j k) ∧ J is r.1) ?_ ?_
  · -- The keys that were seen are those of the entries that are done.
    rw [hown, hs.merged]
    refine Gives.foldlM (R := R) (J := fun done (r : σ × Option (List Value) × List κ) =>
      r.2.1 = none ∧ (∀ k ∈ r.2.2, ∃ j ∈ done, K j k) ∧ J done r.1) ?_ hentries
      ⟨rfl, List.forall_mem_nil _, hout⟩
    rintro done i ⟨name, value⟩ ⟨out, claimed, seen⟩ hinitial hi ⟨hclaimed, hseen, hout⟩
    obtain rfl : claimed = none := hclaimed
    refine (hkey i (name, value) hi).bind ?_
    rintro _ ⟨key, rfl, hK⟩
    refine (gives_pure (P := fun r => r = (false, none)) rfl).bind ?_
    rintro _ rfl
    refine (hput done i _ out hinitial hi hK rfl ?_ hout).bind fun out hout =>
      gives_pure ⟨rfl, ?_, hout⟩
    · intro hcontains
      obtain ⟨k, hk, hbeq⟩ := List.contains_iff_exists_mem_beq.mp hcontains
      obtain ⟨j, hj, hKj⟩ := hseen k hk
      exact ⟨j, hj, k, hKj, hbeq⟩
    · rw [List.forall_mem_cons]
      refine ⟨⟨i, by simp, hK⟩, fun k hk => ?_⟩
      obtain ⟨j, hj, hKj⟩ := hseen k hk
      exact ⟨j, List.mem_append_left _ hj, hKj⟩
  · rintro ⟨out, claimed, seen⟩ ⟨hclaimed, -, hout⟩
    obtain rfl : claimed = none := hclaimed
    refine gives_outside.bind fun _ _ => ?_
    rw [hother]
    exact gives_pure ⟨out, rfl, hout⟩

/-! ### Parts of a configuration -/

section

variable {d : Document}

/-- What a calm step gives when it stands alone. -/
theorem Gives.exists_apart {m : Decoding α} (hm : Gives P m) : ∃ a, apart m = .ok a ∧ P a := by
  obtain ⟨a, s, hrun, hs, ha⟩ := hm {} ⟨rfl, rfl, rfl, rfl⟩
  refine ⟨a, ?_, ha⟩
  unfold apart
  rw [hrun]
  simp only [hs.complaints, List.isEmpty_nil, if_true]

theorem gives_textOf {n : Node} {s : Bytes} (h : n.IsText s) :
    Gives (fun o => o = some s) (textOf d n) := by
  obtain ⟨tag, t, line, rfl, hvalue, htext, -⟩ := h.exists_scalarValue
  refine Gives.visit rfl ((gives_scalarValue hvalue).bind ?_)
  rintro _ rfl
  refine gives_pure ?_
  split_ifs with hbinary
  · rfl
  · exact congrArg some (htext hbinary)

theorem gives_scalarOf {wanted : Shape} {accept : Value → Option α} {tag : Bytes} {t : Text}
    {line : ℕ} {v : Value} {a : α} (h : scalarValue tag t = pure (tag, v)) (hnull : v ≠ .null)
    (hv : accept v = some a) :
    Gives (fun o => o = some a) (scalarOf d wanted accept (.scalar tag t line)) := by
  refine Gives.visit rfl ((gives_scalarValue h).bind ?_)
  rintro _ rfl
  split
  · next heq => exact absurd (congrArg Prod.snd heq) hnull
  · next v' _ heq =>
    obtain rfl : v = v' := congrArg Prod.snd heq
    rw [hv]
    exact gives_pure rfl

theorem gives_listOf {wanted : Shape} {item : Node → Decoding (Option α)} {R : ι → Node → Prop}
    {T : ι → α → Prop} (hitem : ∀ i n, R i n → Gives (fun o => ∃ a, o = some a ∧ T i a) (item n))
    {is : List ι} {nodes : List Node} (h : List.Forall₂ R is nodes) (tag : Bytes) (line : ℕ) :
    Gives (fun o => ∃ as, o = some as ∧ List.Forall₂ T is as)
      (listOf d wanted item (.sequence tag nodes line)) :=
  Gives.visit rfl ((Gives.filterMapM hitem h).bind fun as has => gives_pure ⟨as, rfl, has⟩)

/-- **A mapping with strings as keys**: what each entry preserves, the mapping preserves. -/
theorem gives_mappingOf {wanted : Shape} {null : Option σ} {start : σ}
    {put : σ → Entry Bytes → Decoding σ} {name : ι → Bytes} {tree : ι → Tree}
    {J : List ι → σ → Prop} {is : List ι} {k : ℕ} {n : Node}
    (hapart : Tree.KeysApart (.mapping (is.map fun i => (.string (name i), tree i))))
    (hn : (Tree.mapping (is.map fun i => (.string (name i), tree i))).agrees n = true)
    (hdepth : n.IsWithin (k + 1))
    (hput : ∀ done i e out, done ++ [i] <+: is → (tree i).agrees e.value = true →
      e.value.IsWithin k → e.key = name i → e.isOwn = true → e.isRepeated = false →
      (∀ j ∈ done, name j ≠ name i) → J done out → Gives (J (done ++ [i])) (put out e))
    (hstart : J [] start) :
    Gives (fun o => ∃ a, o = some a ∧ J is a) (mappingOf d wanted null start put n) := by
  obtain ⟨nodes, line, rfl, hagrees⟩ := Tree.agrees_mapping hn
  obtain ⟨halike, hmerge⟩ := hapart.nodes (by
    rw [List.forall_mem_map]
    exact fun i _ => Tree.isSome_text?_string (name i)) hagrees
  -- Keys that are apart are different names, so that no entry repeats one that is done.
  have hdistinct : is.Pairwise fun i j => name i ≠ name j := by
    cases hapart with
    | mapping distinct _ _ =>
      rw [List.pairwise_map] at distinct
      exact distinct.imp fun hne h => hne (congrArg (fun s => (Tree.string s).text?) h)
  have hwithin : ∀ n ∈ nodes, n.2.IsWithin k := by
    cases hdepth with
    | mapping _ values => exact values
  have hnodes : List.Forall₂ (fun i (n : Node × Node) => (Tree.string (name i)).agrees n.1 = true ∧
      (tree i).agrees n.2 = true ∧ n.2.IsWithin k) is nodes := by
    rw [List.forall₂_map_left_iff] at hagrees
    exact (forall₂_and hagrees hwithin).imp fun _ _ h => ⟨h.1.1, h.1.2, h.2⟩
  have hentries : Gives (fun o => ∃ a, o = some a ∧ J is a) (entriesInto d (anyValue d (depthBound d))
      (textOf d) .text put (depthBound d) true nodes start) := by
    refine gives_entriesInto (K := fun i key => key = name i) hnodes halike hmerge ?_ ?_ _ hstart
    · intro i n hR
      exact (gives_textOf (Tree.isText_of_agrees hR.1)).mono fun o ho => ⟨name i, ho, rfl⟩
    · intro done i e out hinitial hR hkey hown hrepeated hout
      have hne : ∀ j ∈ done, name j ≠ name i := by
        have := hdistinct.sublist hinitial.sublist
        rw [List.pairwise_append] at this
        exact fun j hj => this.2.2 j hj i (List.mem_singleton.mpr rfl)
      refine hput done i e out hinitial hR.2.1 hR.2.2 hkey hown ?_ hne hout
      rw [Bool.eq_false_iff]
      intro he
      obtain ⟨j, hj, key, rfl, hbeq⟩ := hrepeated he
      exact hne j hj ((eq_of_beq hbeq).symm.trans hkey)
  exact Gives.visit rfl hentries

end

end Decoding

end ScriptLint
