import ScriptLint.Proofs.Config.Values
import ScriptLint.Proofs.Entries

/-!
# Reading back values

A value that is written in a mapping of settings is read back from its node as the same value, up to
the order in which the entries of mappings are listed (`Decoding.gives_anyValue`). Every value is
read back as something, but only those that are faithful as themselves.
-/

namespace ScriptLint

open Yaml

/-! ### What is written -/

namespace Yaml.Tree

/-- The entries of a sorted mapping are those given, in another order. -/
theorem exists_sortedMapping_map {α : Type} (f : α → Value × Tree × Tree) (as : List α) :
    ∃ as' : List α, as.Perm as' ∧
      sortedMapping (as.map f) = .mapping (as'.map fun a => (f a).2) := by
  refine ⟨as.mergeSort fun a b => !keyLess (f b).1 (f a).1, (List.mergeSort_perm _ _).symm, ?_⟩
  have hsort := List.map_mergeSort (r := fun a b => !keyLess (f b).1 (f a).1)
    (s := fun a b : Value × Tree × Tree => !keyLess b.1 a.1) (f := f) (l := as)
    fun _ _ _ _ => rfl
  rw [sortedMapping, ← hsort, List.map_map]
  rfl

theorem ofMap_eq (entries : List (Bytes × Value)) :
    ofMap entries = entries.map fun e => (.text e.1, string e.1, ofValue e.2) := by
  induction entries with
  | nil => rw [ofMap]; rfl
  | cons e es ih => rw [ofMap, ih]; rfl

theorem ofTable_eq (entries : List (Value × Value)) :
    ofTable entries = entries.map fun e => (e.1, ofValue e.1, ofValue e.2) := by
  induction entries with
  | nil => rw [ofTable]; rfl
  | cons e es ih => rw [ofTable, ih]; rfl

/-- A mapping with strings as keys is written with its entries in another order. -/
theorem exists_ofValue_map (entries : List (Bytes × Value)) :
    ∃ sorted, entries.Perm sorted ∧ ofValue (.map entries) = .mapping
      ((sorted.map fun e => (Value.text e.1, e.2)).map fun e => (ofValue e.1, ofValue e.2)) := by
  obtain ⟨sorted, hperm, hsorted⟩ := exists_sortedMapping_map
    (fun e : Bytes × Value => (Value.text e.1, string e.1, ofValue e.2)) entries
  refine ⟨sorted, hperm, ?_⟩
  rw [ofValue, ofMap_eq, hsorted, List.map_map]
  congr 1

/-- A mapping with keys of any kind is written with its entries in another order. -/
theorem exists_ofValue_table (entries : List (Value × Value)) :
    ∃ sorted, entries.Perm sorted ∧ ofValue (.table entries) = .mapping
      (sorted.map fun e => (ofValue e.1, ofValue e.2)) := by
  obtain ⟨sorted, hperm, hsorted⟩ := exists_sortedMapping_map
    (fun e : Value × Value => (e.1, ofValue e.1, ofValue e.2)) entries
  exact ⟨sorted, hperm, by rw [ofValue, ofTable_eq, hsorted]⟩

theorem ofValues_eq (items : List Value) : ofValues items = items.map ofValue := by
  induction items with
  | nil => rw [ofValues]; rfl
  | cons v vs ih => rw [ofValues, ih]; rfl

end Yaml.Tree

/-! ### Keys -/

/-- Finite values are equal if both are zero or they have one sign and one size. -/
theorem Binary64.compare?_finite_eq_iff {n m : Bool} {x y : ℕ} {e f : ℤ} :
    compare? (.finite n x e) (.finite m y f) = some .eq ↔
      (x * (powers 2 e).1 * (powers 2 f).2 = 0 ∧ y * (powers 2 f).1 * (powers 2 e).2 = 0) ∨
        n = m ∧ x * (powers 2 e).1 * (powers 2 f).2 = y * (powers 2 f).1 * (powers 2 e).2 := by
  simp only [compare?]
  generalize x * (powers 2 e).1 * (powers 2 f).2 = u
  generalize y * (powers 2 f).1 * (powers 2 e).2 = v
  by_cases hzero : u = 0 ∧ v = 0
  · rw [if_pos hzero]
    exact iff_of_true rfl (.inl hzero)
  rw [if_neg hzero]
  by_cases hsign : n = m
  · rw [if_pos hsign]
    subst hsign
    cases n with
    | false => simp [hzero]
    | true => simp [hzero]
  · rw [if_neg hsign]
    split_ifs
    all_goals simp [hsign, hzero]

theorem Binary64.compare?_eq_comm (x y : Binary64) :
    compare? x y = some .eq ↔ compare? y x = some .eq := by
  cases x with
  | nan => cases y <;> simp [compare?]
  | infinity n =>
    cases y with
    | nan => simp [compare?]
    | infinity m => cases n <;> cases m <;> simp [compare?]
    | finite m y f => cases n <;> simp [compare?]
  | finite n x e =>
    cases y with
    | nan => simp [compare?]
    | infinity m => cases m <;> simp [compare?]
    | finite m y f =>
      rw [compare?_finite_eq_iff, compare?_finite_eq_iff]
      exact or_congr and_comm (and_congr eq_comm eq_comm)

/-- Naming the same entry goes both ways. -/
theorem Value.sameKey_comm (a b : Value) : sameKey a b = sameKey b a := by
  cases a with
  | float x =>
    cases b with
    | float y =>
      rw [sameKey, sameKey, Bool.eq_iff_iff, beq_iff_eq, beq_iff_eq, Binary64.compare?_eq_comm]
    | _ => rfl
  | time x =>
    cases b with
    | time y =>
      rw [sameKey, sameKey, Bool.eq_iff_iff]
      simp only [Bool.and_eq_true, beq_iff_eq]
      constructor
      · rintro ⟨rfl, h⟩
        exact ⟨rfl, h⟩
      · rintro ⟨rfl, h⟩
        exact ⟨rfl, h⟩
    | _ => rfl
  | bool x => cases b <;> simp [sameKey, Bool.beq_comm]
  | int x => cases b <;> simp [sameKey, eq_comm]
  | text x => cases b <;> simp [sameKey, eq_comm]
  | null => cases b <;> rfl
  | list => cases b <;> rfl
  | map => cases b <;> rfl
  | table => cases b <;> rfl

/-! ### Values -/

namespace Value

theorem insertKey_eq_append {key value : Value} {entries : List (Value × Value)}
    (h : ∀ e ∈ entries, sameKey key e.1 = false) :
    insertKey key value entries = entries ++ [(key, value)] := by
  induction entries with
  | nil => rfl
  | cons e es ih =>
    rw [List.forall_mem_cons] at h
    rw [insertKey, h.1, if_neg Bool.false_ne_true, ih h.2, List.cons_append]

/-- Entries that are the same one by one have the same keys, and values that are the same. -/
theorem keys_values {α : Type} {entries entries' : List (α × Value)}
    (h : List.Forall₂ (fun e e' => e.1 = e'.1 ∧ e.2.Same e'.2) entries entries') :
    entries.map Prod.fst = entries'.map Prod.fst ∧
      List.Forall₂ Same (entries.map Prod.snd) (entries'.map Prod.snd) := by
  induction h with
  | nil => exact ⟨rfl, .nil⟩
  | cons h _ ih => exact ⟨congrArg₂ List.cons h.1 ih.1, .cons h.2 ih.2⟩

/-- A scalar is written with a text. -/
theorem isSome_text? {v : Value} (h : v.isScalar = true) :
    (Tree.ofValue v).text?.isSome = true := by
  cases v with
  | text s =>
    rw [Tree.ofValue]
    exact Tree.isSome_text?_string s
  | float x =>
    rw [Tree.ofValue, ofFloat_eq]
    rfl
  | list _ => cases h
  | map _ => cases h
  | table _ => cases h
  | _ =>
    rw [Tree.ofValue]
    rfl

theorem exists_of_isUtf8Text {v : Value} (h : v.isUtf8Text = true) :
    ∃ s, v = .text s ∧ (Utf8.decode? s).isSome = true := by
  cases v with
  | text s => exact ⟨s, rfl, h⟩
  | _ => cases h

end Value

namespace Decoding

variable {d : Document}

/-- The node of an entry that is written with a scalar as its key. -/
structure IsEntry (k : ℕ) (e : Value × Value) (n : Node × Node) : Prop where
  key : (Tree.ofValue e.1).agrees n.1 = true
  value : (Tree.ofValue e.2).agrees n.2 = true
  apart : (Tree.ofValue e.2).KeysApart
  depth : n.2.IsWithin k
  noMerge : n.1.isMerge = false
  isKey : e.1.IsSoundScalar
  isSound : e.2.IsSound

/-- A scalar of any kind is read as a scalar. -/
theorem gives_anyValue_scalar {v : Value} (hv : v.IsSoundScalar) {n : Node}
    (hn : (Tree.ofValue v).agrees n = true) (fuel : ℕ) :
    Gives (fun o => ∃ v', o = some v' ∧ v'.isScalar = true ∧ (v.IsFaithful → v' = v))
      (anyValue d (fuel + 1) n) := by
  obtain ⟨tag, t, line, v', rfl, -, hread⟩ := Value.exists_isReadBy hv hn
  refine Gives.visit rfl ((gives_scalarValue hread.reads).bind ?_)
  rintro _ rfl
  exact gives_pure ⟨v', rfl, hread.isScalar, hread.faithful⟩

/-- What reading values with some fuel gives for those that are nested no deeper than `k`. -/
def ReadsValues (d : Document) (k fuel : ℕ) : Prop :=
  ∀ v n, v.IsSound → (Tree.ofValue v).KeysApart → (Tree.ofValue v).agrees n = true → n.IsWithin k →
    Gives (fun o => ∃ v', o = some v' ∧ (v.IsFaithful → v.Same v')) (anyValue d fuel n)

section

variable {k fuel : ℕ} {entries : List (Value × Value)} {nodes : List (Node × Node)}

/-- What holds of the members of a list holds of those that they are related to. -/
theorem forall_of_forall₂ {α β : Type} {R : α → β → Prop} {P : α → Prop} {Q : β → Prop}
    {as : List α} {bs : List β} (h : List.Forall₂ R as bs) (hP : ∀ a ∈ as, P a)
    (hR : ∀ a b, R a b → P a → Q b) : ∀ b ∈ bs, Q b := by
  induction h with
  | nil => exact List.forall_mem_nil _
  | cons hab _ ih =>
    rw [List.forall_mem_cons] at hP ⊢
    exact ⟨hR _ _ hab hP.1, ih hP.2⟩

/-- Entries in front of another one with a different key. -/
theorem sameKey_of_earlier (hkeys : entries.Pairwise fun a b => Value.sameKey b.1 a.1 = false)
    {done : List (Value × Value)} {e : Value × Value} (hinitial : done ++ [e] <+: entries) :
    ∀ j ∈ done, Value.sameKey e.1 j.1 = false := by
  have hpairwise := hkeys.sublist hinitial.sublist
  rw [List.pairwise_append] at hpairwise
  exact fun j hj => hpairwise.2.2 j hj e (List.mem_singleton.mpr rfl)

/-- A mapping whose keys all have the tag of texts is read as one with strings as keys. -/
theorem gives_textEntries (hany : ReadsValues d k (fuel + 1))
    (hentries : List.Forall₂ (IsEntry k) entries nodes)
    (hapart : nodes.Pairwise fun a b => Node.alike a.1 b.1 = false)
    (hkeys : entries.Pairwise fun a b => Value.sameKey b.1 a.1 = false)
    (htext : hasTextKeys d nodes = true) :
    Gives (fun o => ∃ out, o = some out ∧ ((∀ e ∈ entries, e.1.IsFaithful ∧ e.2.IsFaithful) →
        List.Forall₂ (fun e o => e.1 = .text o.1 ∧ e.2.Same o.2) entries out))
      (textEntries d (anyValue d (fuel + 1)) (fuel + 1) nodes) := by
  have hmerge : ∀ n ∈ nodes, n.1.isMerge = false :=
    forall_of_forall₂ hentries (fun _ _ => trivial) fun _ _ h _ => h.noMerge
  have htags : ∀ n ∈ nodes, (d.tagOf n.1 == Tag.str || d.tagOf n.1 == Tag.merge) = true :=
    List.all_eq_true.mp htext
  refine gives_entriesInto (K := fun e key => e.1.IsFaithful → e.1 = .text key)
    (J := fun done (out : List (Bytes × Value)) =>
      (∀ e ∈ done, e.1.IsFaithful ∧ e.2.IsFaithful) →
        List.Forall₂ (fun e o => e.1 = .text o.1 ∧ e.2.Same o.2) done out)
    (forall₂_and hentries htags) hapart hmerge ?_ ?_ fuel fun _ => .nil
  · rintro e n ⟨hentry, htag⟩
    obtain ⟨tag, t, line, v', hn, -, hread⟩ := Value.exists_isReadBy hentry.isKey hentry.key
    have hnotMerge := hentry.noMerge
    rw [hn] at htag hnotMerge ⊢
    -- The sign for a merge is excluded, so the key is a text.
    obtain rfl : tag = Tag.str := by
      rcases Bool.or_eq_true_iff.mp htag with h | h
      · exact eq_of_beq h
      · obtain rfl : tag = Tag.merge := eq_of_beq h
        rw [hread.merge rfl] at hnotMerge
        cases hnotMerge
    refine (gives_textOf (.plain (.inl rfl))).mono fun o ho => ⟨_, ho, fun hfaithful => ?_⟩
    rw [← hread.faithful hfaithful, hread.text rfl]
  · rintro done i ⟨name, key, value, isRepeated, isOwn⟩ out hinitial ⟨hentry, -⟩ hK - - hout
    refine (hany i.2 value hentry.isSound hentry.apart hentry.value hentry.depth).bind ?_
    rintro _ ⟨v', rfl, hsame⟩
    refine gives_pure fun hfaithful => ?_
    rw [List.forall_mem_append, List.forall_mem_singleton] at hfaithful
    have hout := hout hfaithful.1
    have hkey := hK hfaithful.2.1
    have hnames : ∀ o ∈ out, o.1 ≠ key := by
      refine forall_of_forall₂ hout (sameKey_of_earlier hkeys hinitial) ?_
      rintro j o ⟨hj, -⟩ hne rfl
      rw [hkey, hj, Value.sameKey, beq_self_eq_true] at hne
      cases hne
    rw [Entries.set_eq_append hnames]
    exact List.rel_append hout (.cons ⟨hkey, hsame hfaithful.2.2⟩ .nil)

/-- Any other mapping is read as one with keys of any kind. -/
theorem gives_valueEntries (hany : ReadsValues d k (fuel + 1))
    (hentries : List.Forall₂ (IsEntry k) entries nodes)
    (hapart : nodes.Pairwise fun a b => Node.alike a.1 b.1 = false)
    (hkeys : entries.Pairwise fun a b => Value.sameKey b.1 a.1 = false) :
    Gives (fun o => ∃ out, o = some out ∧ ((∀ e ∈ entries, e.1.IsFaithful ∧ e.2.IsFaithful) →
        List.Forall₂ (fun e o => e.1 = o.1 ∧ e.2.Same o.2) entries out))
      (valueEntries d (anyValue d (fuel + 1)) (fuel + 1) nodes) := by
  have hmerge : ∀ n ∈ nodes, n.1.isMerge = false :=
    forall_of_forall₂ hentries (fun _ _ => trivial) fun _ _ h _ => h.noMerge
  refine @gives_entriesInto _ _ _ ⟨Value.sameKey⟩ (IsEntry k)
    (fun e key => key.isScalar = true ∧ (e.1.IsFaithful → key = e.1))
    (fun done (out : List (Value × Value)) => (∀ e ∈ done, e.1.IsFaithful ∧ e.2.IsFaithful) →
      List.Forall₂ (fun e o => e.1 = o.1 ∧ e.2.Same o.2) done out)
    _ _ _ _ _ _ _ _ hentries hapart hmerge ?_ ?_ fuel [] fun _ => .nil
  · intro e n hentry
    exact gives_anyValue_scalar hentry.isKey hentry.key fuel
  · rintro done i ⟨name, key, value, isRepeated, isOwn⟩ out hinitial hentry ⟨hscalar, hK⟩ - - hout
    have hvalue := hany i.2 value hentry.isSound hentry.apart hentry.value hentry.depth
    have hinsert (v' : Value) (hsame : i.2.IsFaithful → i.2.Same v')
        (hfaithful : ∀ e ∈ done ++ [i], e.1.IsFaithful ∧ e.2.IsFaithful) :
        List.Forall₂ (fun e o : Value × Value => e.1 = o.1 ∧ e.2.Same o.2) (done ++ [i])
          (Value.insertKey key v' out) := by
      rw [List.forall_mem_append, List.forall_mem_singleton] at hfaithful
      have hout := hout hfaithful.1
      obtain rfl : key = i.1 := hK hfaithful.2.1
      have hnew : ∀ o ∈ out, Value.sameKey i.1 o.1 = false := by
        refine forall_of_forall₂ hout (sameKey_of_earlier hkeys hinitial) ?_
        rintro j o ⟨hj, -⟩ hne
        rwa [← hj]
      rw [Value.insertKey_eq_append hnew]
      exact List.rel_append hout (.cons ⟨rfl, hsame hfaithful.2.2⟩ .nil)
    cases key with
    | list _ => cases hscalar
    | map _ => cases hscalar
    | table _ => cases hscalar
    | _ =>
      refine hvalue.bind ?_
      rintro _ ⟨v', rfl, hsame⟩
      exact gives_pure (hinsert v' hsame)

/-- A faithful key has the tag of a text exactly if it is one. -/
theorem IsEntry.tagOf_eq {e : Value × Value} {n : Node × Node} (h : IsEntry k e n)
    (hfaithful : e.1.IsFaithful) :
    (d.tagOf n.1 == Tag.str || d.tagOf n.1 == Tag.merge) = e.1.isUtf8Text := by
  obtain ⟨tag, t, line, v', hn, -, hread⟩ := Value.exists_isReadBy h.isKey h.key
  have hkey := h.key
  have hnotMerge := h.noMerge
  rw [hn] at hkey hnotMerge ⊢
  have hmerge : (tag == Tag.merge) = false := by
    rw [beq_eq_false_iff_ne]
    rintro rfl
    rw [hread.merge rfl] at hnotMerge
    cases hnotMerge
  rw [Document.tagOf, hmerge, Bool.or_false, Bool.eq_iff_iff, beq_iff_eq]
  -- A text that is no UTF-8 is written in Base64, and has the tag of that.
  constructor
  · rintro rfl
    rw [← hread.faithful hfaithful, hread.text rfl, Value.isUtf8Text,
      Utf8.decode?_eq_some_iff.mpr rfl]
    rfl
  · intro hutf8
    obtain ⟨s, hs, hdecode⟩ := Value.exists_of_isUtf8Text hutf8
    rw [hs, Tree.ofValue] at hkey
    cases Tree.isText_of_agrees hkey with
    | plain h => exact h.resolve_right fun h => absurd h.1 (beq_eq_false_iff_ne.mp hmerge)
    | binary h =>
      rw [h] at hdecode
      cases hdecode

theorem hasTextKeys_eq (hentries : List.Forall₂ (IsEntry k) entries nodes)
    (hfaithful : ∀ e ∈ entries, e.1.IsFaithful) :
    hasTextKeys d nodes = entries.all (·.1.isUtf8Text) := by
  unfold hasTextKeys
  induction hentries with
  | nil => rfl
  | cons h _ ih =>
    rw [List.forall_mem_cons] at hfaithful
    rw [List.all_cons, List.all_cons, ih hfaithful.2, ← h.tagOf_eq hfaithful.1]

/-- The node of a mapping, entry by entry. -/
theorem exists_isEntry (hsound : ∀ e ∈ entries, e.1.IsSoundScalar ∧ e.2.IsSound)
    (hapart : Tree.KeysApart (.mapping (entries.map fun e => (Tree.ofValue e.1, Tree.ofValue e.2))))
    {n : Node} (hn : (Tree.mapping (entries.map fun e =>
      (Tree.ofValue e.1, Tree.ofValue e.2))).agrees n = true) (hdepth : n.IsWithin (k + 1)) :
    ∃ nodes line, n = .mapping Tag.map nodes line ∧ List.Forall₂ (IsEntry k) entries nodes ∧
      nodes.Pairwise fun a b => Node.alike a.1 b.1 = false := by
  obtain ⟨nodes, line, rfl, hagrees⟩ := Tree.agrees_mapping hn
  obtain ⟨halike, hmerge⟩ := hapart.nodes (by
    rw [List.forall_mem_map]
    exact fun e he => Value.isSome_text? (hsound e he).1.isScalar) hagrees
  refine ⟨nodes, line, rfl, ?_, halike⟩
  have hwithin : ∀ n ∈ nodes, n.2.IsWithin k := by
    cases hdepth with
    | mapping _ values => exact values
  have hvalues : ∀ e ∈ entries, (Tree.ofValue e.2).KeysApart := by
    cases hapart with
    | mapping _ _ values => exact fun e he => values _ (List.mem_map_of_mem he)
  rw [List.forall₂_map_left_iff] at hagrees
  have hnodes := forall₂_and hagrees fun n hn => And.intro (hmerge n hn) (hwithin n hn)
  have hall := (List.forall₂_and_left _ _).mpr
    ⟨fun e he => And.intro (hsound e he) (hvalues e he), hnodes⟩
  refine hall.imp fun e n h => ?_
  obtain ⟨⟨⟨hkey, hvalue⟩, hvalueApart⟩, ⟨hkeyNode, hvalueNode⟩, hnotMerge, hdepth⟩ := h
  exact
    { key := hkeyNode
      value := hvalueNode
      apart := hvalueApart
      depth := hdepth
      noMerge := hnotMerge
      isKey := hkey
      isSound := hvalue }

/-- A mapping is read back as one of the same kind, if its keys and values are faithful. -/
theorem gives_anyValue_mapping (hany : ReadsValues d k (fuel + 1))
    (hsound : ∀ e ∈ entries, e.1.IsSoundScalar ∧ e.2.IsSound)
    (hkeys : entries.Pairwise fun a b => Value.sameKey b.1 a.1 = false)
    (hapart : Tree.KeysApart (.mapping (entries.map fun e => (Tree.ofValue e.1, Tree.ofValue e.2))))
    {n : Node} (hn : (Tree.mapping (entries.map fun e =>
      (Tree.ofValue e.1, Tree.ofValue e.2))).agrees n = true) (hdepth : n.IsWithin (k + 1)) :
    Gives (fun o => ∃ v', o = some v' ∧ ((∀ e ∈ entries, e.1.IsFaithful ∧ e.2.IsFaithful) →
      if entries.all (·.1.isUtf8Text) then
        ∃ out, v' = .map out ∧
          List.Forall₂ (fun e o => e.1 = .text o.1 ∧ e.2.Same o.2) entries out
      else
        ∃ out, v' = .table out ∧ List.Forall₂ (fun e o => e.1 = o.1 ∧ e.2.Same o.2) entries out))
      (anyValue d (fuel + 2) n) := by
  obtain ⟨nodes, line, rfl, hentries, halike⟩ := exists_isEntry hsound hapart hn hdepth
  refine Gives.visit rfl ?_
  -- Which map is read depends on the tags of the keys, and these say whether all keys are texts.
  by_cases htext : hasTextKeys d nodes = true
  · dsimp only
    rw [if_pos htext]
    refine (gives_textEntries hany hentries halike hkeys htext).bind ?_
    rintro _ ⟨out, rfl, hout⟩
    refine gives_pure ⟨_, rfl, fun hfaithful => ?_⟩
    rw [← hasTextKeys_eq hentries fun e he => (hfaithful e he).1, if_pos htext]
    exact ⟨out, rfl, hout hfaithful⟩
  · dsimp only
    rw [if_neg htext]
    refine (gives_valueEntries hany hentries halike hkeys).bind ?_
    rintro _ ⟨out, rfl, hout⟩
    refine gives_pure ⟨_, rfl, fun hfaithful => ?_⟩
    rw [← hasTextKeys_eq hentries fun e he => (hfaithful e he).1, if_neg htext]
    exact ⟨out, rfl, hout hfaithful⟩

/-- A scalar is read back as itself. -/
theorem gives_anyValue_same {v : Value} (hv : v.IsSoundScalar) {n : Node}
    (hn : (Tree.ofValue v).agrees n = true) :
    Gives (fun o => ∃ v', o = some v' ∧ (v.IsFaithful → v.Same v')) (anyValue d (fuel + 2) n) := by
  refine (gives_anyValue_scalar hv hn (fuel + 1)).mono ?_
  rintro _ ⟨v', rfl, -, hsame⟩
  refine ⟨v', rfl, fun hfaithful => ?_⟩
  rw [hsame hfaithful]
  exact .scalar hv.isScalar

/-- A list is read back item by item. -/
theorem gives_anyValue_list (hany : ReadsValues d k (fuel + 1)) {items : List Value}
    (hsound : ∀ v ∈ items, v.IsSound) (hapart : (Tree.ofValue (.list items)).KeysApart) {n : Node}
    (hn : (Tree.ofValue (.list items)).agrees n = true) (hdepth : n.IsWithin (k + 1)) :
    Gives (fun o => ∃ v', o = some v' ∧
        ((Value.list items).IsFaithful → (Value.list items).Same v')) (anyValue d (fuel + 2) n) := by
  rw [Tree.ofValue, Tree.ofValues_eq] at hapart hn
  obtain ⟨nodes, line, rfl, hagrees⟩ := Tree.agrees_sequence hn
  rw [List.forall₂_map_left_iff] at hagrees
  have hwithin : ∀ n ∈ nodes, n.IsWithin k := by
    cases hdepth with
    | sequence h => exact h
  have hitems : ∀ v ∈ items, (Tree.ofValue v).KeysApart := by
    cases hapart with
    | sequence h => exact fun v hv => h _ (List.mem_map_of_mem hv)
  have hnodes := (List.forall₂_and_left _ _).mpr
    ⟨fun v hv => And.intro (hsound v hv) (hitems v hv), forall₂_and hagrees hwithin⟩
  refine Gives.visit rfl ((Gives.filterMapM (T := fun v v' => v.IsFaithful → v.Same v') ?_
    hnodes).bind fun vs hvs => gives_pure ⟨.list vs, rfl, fun hfaithful => ?_⟩)
  · rintro v n ⟨⟨hsound, hapart⟩, hn, hdepth⟩
    exact hany v n hsound hapart hn hdepth
  · cases hfaithful with
    | list h =>
      exact .list (((List.forall₂_and_left _ _).mpr ⟨h, hvs⟩).imp fun v v' hv => hv.2 hv.1)

/-- Names that are written apart are different keys. -/
theorem sameKey_of_keysApart {named : List (Bytes × Value)}
    (hapart : Tree.KeysApart (.mapping ((named.map fun e => (Value.text e.1, e.2)).map fun e =>
      (Tree.ofValue e.1, Tree.ofValue e.2)))) :
    (named.map fun e => (Value.text e.1, e.2)).Pairwise fun a b =>
      Value.sameKey b.1 a.1 = false := by
  cases hapart with
  | mapping distinct _ _ =>
    rw [List.pairwise_map] at distinct
    refine distinct.imp_of_mem fun {a b} ha hb hne => ?_
    obtain ⟨e, -, rfl⟩ := List.mem_map.mp ha
    obtain ⟨e', -, rfl⟩ := List.mem_map.mp hb
    rw [Value.sameKey, beq_eq_false_iff_ne]
    rintro heq
    exact hne (by rw [heq])

/-- A mapping with strings as keys is read back entry by entry. -/
theorem gives_anyValue_map (hany : ReadsValues d k (fuel + 1)) {named : List (Bytes × Value)}
    (hsound : ∀ e ∈ named, e.2.IsSound) (hapart : (Tree.ofValue (.map named)).KeysApart) {n : Node}
    (hn : (Tree.ofValue (.map named)).agrees n = true) (hdepth : n.IsWithin (k + 1)) :
    Gives (fun o => ∃ v', o = some v' ∧ ((Value.map named).IsFaithful → (Value.map named).Same v'))
      (anyValue d (fuel + 2) n) := by
  obtain ⟨sorted, hperm, htree⟩ := Tree.exists_ofValue_map named
  rw [htree] at hapart hn
  have hentries : ∀ e ∈ sorted.map (fun e => (Value.text e.1, e.2)),
      e.1.IsSoundScalar ∧ e.2.IsSound :=
    List.forall_mem_map.mpr fun e he => ⟨⟨.text, rfl⟩, hsound e (hperm.mem_iff.mpr he)⟩
  have hread := gives_anyValue_mapping hany hentries (sameKey_of_keysApart hapart) hapart hn hdepth
  refine hread.mono ?_
  rintro _ ⟨v', rfl, hv'⟩
  refine ⟨v', rfl, fun hfaithful => ?_⟩
  cases hfaithful with
  | map keys values =>
    have hout := hv' (List.forall_mem_map.mpr fun e he =>
      ⟨.text, values e (hperm.mem_iff.mpr he)⟩)
    have htexts : (sorted.map fun e => (Value.text e.1, e.2)).all (·.1.isUtf8Text) = true := by
      rw [List.all_map, List.all_eq_true]
      exact fun e he => keys e (hperm.mem_iff.mpr he)
    rw [if_pos htexts] at hout
    obtain ⟨out, rfl, hout⟩ := hout
    rw [List.forall₂_map_left_iff] at hout
    obtain ⟨hkeys, hvalues⟩ := Value.keys_values (hout.imp fun e o h =>
      And.intro (Value.text.inj h.1) h.2)
    exact .map hperm hkeys hvalues

/-- A mapping with keys of any kind is read back entry by entry. -/
theorem gives_anyValue_table (hany : ReadsValues d k (fuel + 1))
    (hsound : ∀ e ∈ entries, e.1.IsSoundScalar ∧ e.2.IsSound)
    (hkeys : entries.Pairwise fun a b => Value.sameKey b.1 a.1 = false)
    (hapart : (Tree.ofValue (.table entries)).KeysApart) {n : Node}
    (hn : (Tree.ofValue (.table entries)).agrees n = true) (hdepth : n.IsWithin (k + 1)) :
    Gives (fun o => ∃ v', o = some v' ∧
        ((Value.table entries).IsFaithful → (Value.table entries).Same v'))
      (anyValue d (fuel + 2) n) := by
  obtain ⟨sorted, hperm, htree⟩ := Tree.exists_ofValue_table entries
  rw [htree] at hapart hn
  have hentries : ∀ e ∈ sorted, e.1.IsSoundScalar ∧ e.2.IsSound :=
    fun e he => hsound e (hperm.mem_iff.mpr he)
  have hdifferent : sorted.Pairwise fun a b => Value.sameKey b.1 a.1 = false :=
    (hperm.pairwise_iff fun {a b} h => by rwa [Value.sameKey_comm]).mp hkeys
  refine (gives_anyValue_mapping hany hentries hdifferent hapart hn hdepth).mono ?_
  rintro _ ⟨v', rfl, hv'⟩
  refine ⟨v', rfl, fun hfaithful => ?_⟩
  cases hfaithful with
  | table other keys values =>
    have hout := hv' fun e he =>
      have he := hperm.mem_iff.mpr he
      ⟨keys e he, values e he⟩
    -- One key is no text, so the mapping is read as one with keys of any kind.
    have htexts : ¬ sorted.all (·.1.isUtf8Text) = true := by
      obtain ⟨e, he, hother⟩ := other
      rw [Bool.not_eq_true, List.all_eq_false]
      exact ⟨e, hperm.mem_iff.mp he, by rw [hother]; exact Bool.false_ne_true⟩
    rw [if_neg htexts] at hout
    obtain ⟨out, rfl, hout⟩ := hout
    obtain ⟨hkeys, hvalues⟩ := Value.keys_values hout
    exact .table hperm hkeys hvalues

end

/-- **A value is read back from its node**, as itself if it is faithful. -/
theorem gives_anyValue (d : Document) {k fuel : ℕ} (hfuel : k < fuel) : ReadsValues d k fuel := by
  induction k generalizing fuel with
  | zero =>
    intro v n _ _ _ hdepth
    cases hdepth
  | succ k ih =>
    obtain ⟨fuel, rfl⟩ : ∃ f, fuel = f + 2 := ⟨fuel - 2, by omega⟩
    have hany := ih (show k < fuel + 1 by omega)
    intro v n hsound hapart hn hdepth
    cases v with
    | list items =>
      cases hsound with
      | list h => exact gives_anyValue_list hany h hapart hn hdepth
    | map named =>
      cases hsound with
      | map h => exact gives_anyValue_map hany h hapart hn hdepth
    | table entries =>
      cases hsound with
      | table apart scalars keys values =>
        exact gives_anyValue_table hany (fun e he => ⟨⟨keys e he, scalars e he⟩, values e he⟩)
          apart hapart hn hdepth
    | _ =>
      exact gives_anyValue_same ⟨hsound, rfl⟩ hn

end Decoding

end ScriptLint
