import ScriptLint.Proofs.Yaml.Depth
import ScriptLint.Proofs.Yaml.Scalar

/-!
# Trees and the nodes they are read as

A text that is written from a tree is read as the same tree of nodes, each scalar with the tag that
follows from its style (`Yaml.Tree.agrees`). That holds of the text as it is; what the keys of a
mapping mean beyond that, that two of them are written alike or that one asks for a merge, is what
`Yaml.Tree.KeysApart` excludes.
-/

namespace ScriptLint.Yaml

/-- The tag of a node; an alias has none. -/
def Node.tag : Node → Bytes
  | .scalar tag _ _ | .sequence tag _ _ | .mapping tag _ _ => tag
  | .reference .. => []

/-- Whether a node is written out, and no alias. -/
def Node.isWritten : Node → Bool
  | .reference .. => false
  | _ => true

/-- The text of a scalar node. -/
def Node.scalarText? : Node → Option Text
  | .scalar _ t _ => some t
  | _ => none

theorem Node.exists_ofScalar_eq (tag : Bytes) (t : Text) (style : ScalarStyle) (line : ℕ) :
    Node.ofScalar tag t style line = .scalar (Node.ofScalar tag t style line).tag t line := by
  unfold Node.ofScalar
  split_ifs
  all_goals rfl

namespace Tree

mutual

/-- Whether a node is the one that a tree is written for: the same scalars, sequences and
mappings. -/
def agrees : Tree → Node → Bool
  | .scalar tag t style, .scalar tag' t' line =>
    t' == t && tag' == (Node.ofScalar tag t style line).tag
  | .sequence items, .sequence tag nodes _ => tag == Tag.seq && agreesAll items nodes
  | .mapping entries, .mapping tag nodes _ => tag == Tag.map && agreesEntries entries nodes
  | _, _ => false

/-- Whether nodes are those that trees are written for, one by one. -/
def agreesAll : List Tree → List Node → Bool
  | [], [] => true
  | t :: ts, n :: ns => agrees t n && agreesAll ts ns
  | _, _ => false

/-- Whether the entries of a mapping are those that trees are written for, one by one. -/
def agreesEntries : List (Tree × Tree) → List (Node × Node) → Bool
  | [], [] => true
  | (k, v) :: ts, (m, n) :: ns => agrees k m && agrees v n && agreesEntries ts ns
  | _, _ => false

end

theorem agrees_scalar {tag : Bytes} {t : Text} {style : ScalarStyle} {n : Node}
    (h : (scalar tag t style).agrees n = true) : ∃ line, n = Node.ofScalar tag t style line := by
  cases n with
  | scalar tag' t' line =>
    rw [agrees, Bool.and_eq_true, beq_iff_eq, beq_iff_eq] at h
    obtain ⟨rfl, rfl⟩ := h
    exact ⟨line, (Node.exists_ofScalar_eq _ _ _ _).symm⟩
  | _ => exact absurd h (by simp [agrees])

theorem agrees_sequence {items : List Tree} {n : Node} (h : (sequence items).agrees n = true) :
    ∃ nodes line, n = .sequence Tag.seq nodes line ∧
      List.Forall₂ (fun t n => agrees t n = true) items nodes := by
  cases n with
  | sequence tag nodes line =>
    rw [agrees, Bool.and_eq_true, beq_iff_eq] at h
    obtain ⟨rfl, h⟩ := h
    refine ⟨nodes, line, rfl, ?_⟩
    induction items generalizing nodes with
    | nil =>
      cases nodes with
      | nil => exact .nil
      | cons _ _ => exact absurd h (by simp [agreesAll])
    | cons t ts ih =>
      cases nodes with
      | nil => exact absurd h (by simp [agreesAll])
      | cons n ns =>
        rw [agreesAll, Bool.and_eq_true] at h
        exact .cons h.1 (ih ns h.2)
  | _ => exact absurd h (by simp [agrees])

theorem agrees_mapping {entries : List (Tree × Tree)} {n : Node}
    (h : (mapping entries).agrees n = true) :
    ∃ nodes line, n = .mapping Tag.map nodes line ∧
      List.Forall₂ (fun t n => agrees t.1 n.1 = true ∧ agrees t.2 n.2 = true) entries nodes := by
  cases n with
  | mapping tag nodes line =>
    rw [agrees, Bool.and_eq_true, beq_iff_eq] at h
    obtain ⟨rfl, h⟩ := h
    refine ⟨nodes, line, rfl, ?_⟩
    induction entries generalizing nodes with
    | nil =>
      cases nodes with
      | nil => exact .nil
      | cons _ _ => exact absurd h (by simp [agreesEntries])
    | cons e es ih =>
      cases nodes with
      | nil => exact absurd h (by simp [agreesEntries])
      | cons n ns =>
        rw [agreesEntries, Bool.and_eq_true, Bool.and_eq_true] at h
        exact .cons h.1 (ih ns h.2)
  | _ => exact absurd h (by simp [agrees])

/-- The text of a scalar. -/
def text? : Tree → Option Text
  | .scalar _ t _ => some t
  | _ => none

/-- Whether the keys of every mapping are written differently, and none of them as the sign that
asks for a merge. -/
inductive KeysApart : Tree → Prop
  | scalar {tag : Bytes} {t : Text} {style : ScalarStyle} : KeysApart (.scalar tag t style)
  | sequence {items : List Tree} (h : ∀ t ∈ items, KeysApart t) : KeysApart (.sequence items)
  | mapping {entries : List (Tree × Tree)}
    (distinct : entries.Pairwise fun a b => a.1.text? ≠ b.1.text?)
    (noMerge : ∀ e ∈ entries, e.1.text? ≠ some ['<', '<'])
    (values : ∀ e ∈ entries, KeysApart e.2) : KeysApart (.mapping entries)

mutual

/-- The test for keys apart. -/
def keysApart : Tree → Bool
  | .scalar .. => true
  | .sequence items => keysApartAll items
  | .mapping entries =>
    decide (entries.Pairwise fun a b => a.1.text? ≠ b.1.text?) &&
      entries.all (fun e => e.1.text? ≠ some ['<', '<']) && keysApartValues entries

/-- The test for keys apart in each of some trees. -/
def keysApartAll : List Tree → Bool
  | [] => true
  | t :: ts => keysApart t && keysApartAll ts

/-- The test for keys apart in the values of a mapping. -/
def keysApartValues : List (Tree × Tree) → Bool
  | [] => true
  | (_, t) :: es => keysApart t && keysApartValues es

end

theorem keysApartAll_iff {ts : List Tree} :
    keysApartAll ts = true ↔ ∀ t ∈ ts, t.keysApart = true := by
  induction ts with
  | nil => exact iff_of_true rfl (List.forall_mem_nil _)
  | cons t ts ih => rw [keysApartAll, Bool.and_eq_true, ih, List.forall_mem_cons]

theorem keysApartValues_iff {es : List (Tree × Tree)} :
    keysApartValues es = true ↔ ∀ e ∈ es, e.2.keysApart = true := by
  induction es with
  | nil => exact iff_of_true rfl (List.forall_mem_nil _)
  | cons e es ih => rw [keysApartValues, Bool.and_eq_true, ih, List.forall_mem_cons]

theorem KeysApart.of_keysApart : {t : Tree} → t.keysApart = true → t.KeysApart
  | .scalar .., _ => .scalar
  | .sequence items, h => by
    rw [keysApart, keysApartAll_iff] at h
    exact .sequence fun t ht => of_keysApart (h t ht)
  | .mapping entries, h => by
    rw [keysApart, Bool.and_eq_true, Bool.and_eq_true, keysApartValues_iff, List.all_eq_true] at h
    obtain ⟨⟨hdistinct, hmerge⟩, hvalues⟩ := h
    exact .mapping (of_decide_eq_true hdistinct) (fun e he => of_decide_eq_true (hmerge e he))
      fun e he => of_keysApart (hvalues e he)
termination_by t => t
decreasing_by
  · have := List.sizeOf_lt_of_mem ht
    simp only [sequence.sizeOf_spec]
    omega
  · have := List.sizeOf_lt_of_mem he
    have : sizeOf e.2 < sizeOf e := by
      cases e
      simp only [Prod.mk.sizeOf_spec]
      omega
    simp only [mapping.sizeOf_spec]
    omega

theorem keysApart_iff {t : Tree} : t.keysApart = true ↔ t.KeysApart := by
  refine ⟨.of_keysApart, fun h => ?_⟩
  induction h with
  | scalar => rfl
  | sequence _ ih => rwa [keysApart, keysApartAll_iff]
  | mapping distinct noMerge _ ih =>
    rw [keysApart, Bool.and_eq_true, Bool.and_eq_true, keysApartValues_iff, List.all_eq_true]
    exact ⟨⟨decide_eq_true distinct, fun e he => decide_eq_true (noMerge e he)⟩, ih⟩

instance (t : Tree) : Decidable t.KeysApart := decidable_of_iff _ keysApart_iff

theorem scalarText?_of_agrees {t : Tree} {n : Node} {text : Text} (h : t.agrees n = true)
    (htext : t.text? = some text) : n.scalarText? = some text := by
  cases t with
  | scalar tag t style =>
    obtain ⟨line, rfl⟩ := agrees_scalar h
    rw [Node.exists_ofScalar_eq]
    exact htext
  | _ => cases htext

/-- **Keys apart are read as keys apart**, and none as a request for a merge. -/
theorem KeysApart.nodes {entries : List (Tree × Tree)} (h : KeysApart (.mapping entries))
    (hkeys : ∀ e ∈ entries, e.1.text?.isSome = true) {nodes : List (Node × Node)}
    (hagrees : List.Forall₂ (fun t n => agrees t.1 n.1 = true ∧ agrees t.2 n.2 = true) entries
      nodes) :
    (nodes.Pairwise fun a b => Node.alike a.1 b.1 = false) ∧
      ∀ n ∈ nodes, n.1.isMerge = false := by
  cases h with
  | mapping distinct noMerge values =>
  -- The nodes have the texts of the keys, so that they differ where the keys do.
  have htexts : nodes.map (·.1.scalarText?) = entries.map (·.1.text?) := by
    clear distinct noMerge values
    induction hagrees with
    | nil => rfl
    | cons hn _ ih =>
      rw [List.forall_mem_cons] at hkeys
      obtain ⟨text, htext⟩ := Option.isSome_iff_exists.mp hkeys.1
      rw [List.map_cons, List.map_cons, ih hkeys.2, scalarText?_of_agrees hn.1 htext, htext]
  have hscalar : ∀ n ∈ nodes, ∃ tag t line, n.1 = .scalar tag t line ∧ t ≠ ['<', '<'] := by
    intro n hn
    have hmem : n.1.scalarText? ∈ entries.map (·.1.text?) :=
      htexts ▸ List.mem_map_of_mem hn
    obtain ⟨e, he, heq⟩ := List.mem_map.mp hmem
    obtain ⟨text, htext⟩ := Option.isSome_iff_exists.mp (hkeys e he)
    have hne := noMerge e he
    rw [htext] at heq hne
    cases hn1 : n.1 with
    | scalar tag t line =>
      rw [hn1] at heq
      obtain rfl : text = t := Option.some.inj heq
      exact ⟨tag, text, line, rfl, fun h => hne (congrArg some h)⟩
    | _ =>
      rw [hn1] at heq
      cases heq
  constructor
  · have hpairwise : nodes.Pairwise fun a b => a.1.scalarText? ≠ b.1.scalarText? := by
      rw [← List.pairwise_map (f := fun n : Node × Node => n.1.scalarText?) (R := (· ≠ ·)), htexts,
        List.pairwise_map]
      exact distinct
    refine hpairwise.imp_of_mem fun {a b} ha hb hne => ?_
    obtain ⟨tag, t, line, ha, -⟩ := hscalar a ha
    obtain ⟨tag', t', line', hb, -⟩ := hscalar b hb
    rw [ha, hb] at hne ⊢
    rw [Node.alike, beq_eq_false_iff_ne]
    exact fun h => hne (congrArg some h)
  · intro n hn
    obtain ⟨tag, t, line, hn, hne⟩ := hscalar n hn
    rw [hn, Node.isMerge, beq_eq_false_iff_ne.mpr hne, Bool.and_false]

end Tree

/-- A string as a key is a scalar. -/
theorem Tree.isSome_text?_string (s : Bytes) : (Tree.string s).text?.isSome = true := by
  obtain ⟨tag, t, style, h, -⟩ := exists_string s
  rw [h]
  rfl

/-- The node of a string is read as this string. -/
theorem Tree.isText_of_agrees {s : Bytes} {n : Node} (h : (Tree.string s).agrees n = true) :
    n.IsText s := by
  obtain ⟨tag, t, style, hstring, htext⟩ := exists_string s
  rw [hstring] at h
  obtain ⟨line, rfl⟩ := Tree.agrees_scalar h
  exact htext line

end ScriptLint.Yaml
