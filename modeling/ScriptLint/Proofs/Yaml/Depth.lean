import ScriptLint.Proofs.Except
import ScriptLint.Yaml.Node
import Mathlib.Tactic.SplitIfs

/-!
# The depth of a document

The nodes of a document are nested no deeper than the number of steps that were allowed for reading
them (`Yaml.Document.isWithin_of_parse?`).
-/

namespace ScriptLint.Yaml

/-- Whether nodes are nested at most so deep. -/
inductive Node.IsWithin : Nat → Node → Prop
  | scalar {k : Nat} {tag : Bytes} {t : Text} {line : Nat} : IsWithin (k + 1) (.scalar tag t line)
  | reference {k serial : Nat} {name : Bytes} {place line : Nat} :
    IsWithin (k + 1) (.reference serial name place line)
  | sequence {k : Nat} {tag : Bytes} {items : List Node} {line : Nat}
    (h : ∀ n ∈ items, IsWithin k n) : IsWithin (k + 1) (.sequence tag items line)
  | mapping {k : Nat} {tag : Bytes} {entries : List (Node × Node)} {line : Nat}
    (keys : ∀ e ∈ entries, IsWithin k e.1) (values : ∀ e ∈ entries, IsWithin k e.2) :
    IsWithin (k + 1) (.mapping tag entries line)

namespace Node

theorem IsWithin.mono {k l : Nat} {n : Node} (h : n.IsWithin k) (hle : k ≤ l) : n.IsWithin l := by
  induction h generalizing l with
  | scalar =>
    obtain ⟨l, rfl⟩ := Nat.exists_eq_add_of_le' (Nat.le_of_add_left_le hle)
    exact .scalar
  | reference =>
    obtain ⟨l, rfl⟩ := Nat.exists_eq_add_of_le' (Nat.le_of_add_left_le hle)
    exact .reference
  | sequence h ih =>
    obtain ⟨l, rfl⟩ := Nat.exists_eq_add_of_le' (Nat.le_of_add_left_le hle)
    exact .sequence fun n hn => ih n hn (Nat.le_of_add_le_add_right hle)
  | mapping keys values ihkeys ihvalues =>
    obtain ⟨l, rfl⟩ := Nat.exists_eq_add_of_le' (Nat.le_of_add_left_le hle)
    exact .mapping (fun e he => ihkeys e he (Nat.le_of_add_le_add_right hle))
      fun e he => ihvalues e he (Nat.le_of_add_le_add_right hle)

theorem isWithin_ofScalar (k : Nat) (tag : Bytes) (t : Text) (style : ScalarStyle) (line : Nat) :
    (ofScalar tag t style line).IsWithin (k + 1) := by
  unfold ofScalar
  split_ifs
  all_goals exact .scalar

theorem isWithin_empty (k : Nat) (place : Mark) : (empty place).IsWithin (k + 1) := .scalar

theorem isWithin_default (k : Nat) : (default : Node).IsWithin (k + 1) := .scalar

end Node

namespace Reading

variable {α β : Type} {P : α → Prop} {Q : β → Prop}

/-! ### The steps of reading -/

theorem yields_fault (context problem : Mark) (cause : Cause) :
    Yields P (fault (α := α) context problem cause) := yields_throw _

theorem yields_keep {P : Node → Prop} {n : Node} (place : Option Nat) (h : P n) :
    Yields P (keep place n) := by
  cases place with
  | none => exact yields_pure h
  | some p => exact yields_bind fun _ => yields_pure h

theorem yields_referenceNode (k : Nat) (name : Bytes) (start : Mark) :
    Yields (Node.IsWithin (k + 1)) (referenceNode name start) := by
  unfold referenceNode
  refine yields_bind fun s => ?_
  split
  · exact yields_bind fun _ => yields_pure .reference
  · exact yields_throw _

/-! ### Nodes -/

/-- What is read with an amount of fuel is nested no deeper than one more than it. -/
structure StaysWithin (fuel : Nat) : Prop where
  node : ∀ block unindented, Yields (Node.IsWithin (fuel + 1)) (node block unindented fuel)
  blockItems : ∀ start, Yields (fun ns => ∀ n ∈ ns, n.IsWithin (fuel + 1)) (blockItems start fuel)
  unindentedItems :
    Yields (fun ns => ∀ n ∈ ns, n.IsWithin (fuel + 1)) (unindentedItems fuel)
  blockEntries : ∀ start, Yields (fun es => ∀ e ∈ es, e.1.IsWithin (fuel + 1) ∧
    e.2.IsWithin (fuel + 1)) (blockEntries start fuel)
  blockPart : ∀ place, Yields (Node.IsWithin (fuel + 1)) (blockPart place fuel)
  flowItems : ∀ start isFirst, Yields (fun ns => ∀ n ∈ ns, n.IsWithin (fuel + 1))
    (flowItems start isFirst fuel)
  flowPair : Yields (fun e => e.1.IsWithin (fuel + 1) ∧ e.2.IsWithin (fuel + 1)) (flowPair fuel)
  flowEntries : ∀ start isFirst, Yields (fun es => ∀ e ∈ es, e.1.IsWithin (fuel + 1) ∧
    e.2.IsWithin (fuel + 1)) (flowEntries start isFirst fuel)
  flowValue : Yields (Node.IsWithin (fuel + 1)) (flowValue fuel)

theorem staysWithin_zero : StaysWithin 0 where
  node block unindented := by
    rw [node]
    exact yields_pure (Node.isWithin_default 0)
  blockItems start := by
    rw [blockItems]
    exact yields_pure (List.forall_mem_nil _)
  unindentedItems := by
    rw [unindentedItems]
    exact yields_pure (List.forall_mem_nil _)
  blockEntries start := by
    rw [blockEntries]
    exact yields_pure (List.forall_mem_nil _)
  blockPart place := by
    rw [blockPart]
    exact yields_pure (Node.isWithin_default 0)
  flowItems start isFirst := by
    rw [flowItems]
    exact yields_pure (List.forall_mem_nil _)
  flowPair := by
    rw [flowPair]
    exact yields_pure ⟨Node.isWithin_default 0, Node.isWithin_default 0⟩
  flowEntries start isFirst := by
    rw [flowEntries]
    exact yields_pure (List.forall_mem_nil _)
  flowValue := by
    rw [flowValue]
    exact yields_pure (Node.isWithin_default 0)

section

variable {fuel : Nat}

theorem yields_keep_sequence {tag : Bytes} {line : Nat} {m : Reading (List Node)}
    (hm : Yields (fun ns => ∀ n ∈ ns, n.IsWithin (fuel + 1)) m) (place : Option Nat) :
    Yields (Node.IsWithin (fuel + 2)) (do keep place (.sequence tag (← m) line)) :=
  hm.bind fun _ hitems => yields_keep place (.sequence hitems)

theorem yields_keep_mapping {tag : Bytes} {line : Nat} {m : Reading (List (Node × Node))}
    (hm : Yields (fun es => ∀ e ∈ es, e.1.IsWithin (fuel + 1) ∧ e.2.IsWithin (fuel + 1)) m)
    (place : Option Nat) :
    Yields (Node.IsWithin (fuel + 2)) (do keep place (.mapping tag (← m) line)) :=
  hm.bind fun _ hentries => yields_keep place (.mapping (fun e he => (hentries e he).1)
    fun e he => (hentries e he).2)

theorem yields_node (h : StaysWithin fuel) (block unindented : Bool) :
    Yields (Node.IsWithin (fuel + 2)) (node block unindented (fuel + 1)) := by
  rw [node]
  refine yields_bind fun first => ?_
  dsimp only
  split
  · exact yields_bind fun _ => yields_referenceNode _ _ _
  refine yields_bind fun ⟨anchor, tag, t⟩ => ?_
  dsimp only
  split
  · exact yields_bind fun _ => yields_bind fun _ =>
      yields_keep _ (Node.isWithin_ofScalar _ _ _ _ _)
  · exact yields_bind fun place => yields_bind fun _ =>
      yields_keep_sequence (h.flowItems _ _) place
  · exact yields_bind fun place => yields_bind fun _ =>
      yields_keep_mapping (h.flowEntries _ _) place
  · split_ifs
    · exact yields_bind fun place => yields_keep_sequence h.unindentedItems place
    · exact yields_bind fun place => yields_bind fun _ =>
        yields_keep_sequence (h.blockItems _) place
    · exact yields_bind fun place => yields_bind fun _ =>
        yields_keep_mapping (h.blockEntries _) place
    · exact yields_bind fun _ => yields_keep _ (Node.isWithin_ofScalar _ _ _ _ _)
    · exact yields_fault _ _ _

/-- An item and those behind it. -/
theorem yields_cons {P : α → Prop} {m : Reading α} {rest : Reading (List α)} (hm : Yields P m)
    (hrest : Yields (fun as => ∀ a ∈ as, P a) rest) :
    Yields (fun as => ∀ a ∈ as, P a) (do return (← m) :: (← rest)) :=
  hm.bind fun _ ha => hrest.bind fun _ has => yields_pure (List.forall_mem_cons.mpr ⟨ha, has⟩)

theorem yields_succ {m : Reading Node} (hm : Yields (Node.IsWithin (fuel + 1)) m) :
    Yields (Node.IsWithin (fuel + 2)) m := hm.mono fun _ hn => hn.mono (Nat.le_succ _)

theorem yields_succ_all {m : Reading (List Node)}
    (hm : Yields (fun ns => ∀ n ∈ ns, n.IsWithin (fuel + 1)) m) :
    Yields (fun ns => ∀ n ∈ ns, n.IsWithin (fuel + 2)) m :=
  hm.mono fun _ hns n hn => (hns n hn).mono (Nat.le_succ _)

theorem yields_succ_entries {m : Reading (List (Node × Node))}
    (hm : Yields (fun es => ∀ e ∈ es, e.1.IsWithin (fuel + 1) ∧ e.2.IsWithin (fuel + 1)) m) :
    Yields (fun es => ∀ e ∈ es, e.1.IsWithin (fuel + 2) ∧ e.2.IsWithin (fuel + 2)) m :=
  hm.mono fun _ hes e he => ⟨(hes e he).1.mono (Nat.le_succ _), (hes e he).2.mono (Nat.le_succ _)⟩

theorem yields_empty (place : Mark) :
    Yields (Node.IsWithin (fuel + 2)) (pure (Node.empty place) : Reading Node) :=
  yields_pure (Node.isWithin_empty _ place)

theorem yields_blockItems (h : StaysWithin fuel) (start : Mark) :
    Yields (fun ns => ∀ n ∈ ns, n.IsWithin (fuel + 2)) (blockItems start (fuel + 1)) := by
  have hrest := yields_succ_all (h.blockItems start)
  rw [blockItems]
  refine yields_bind fun t => yields_bind fun _ => ?_
  split
  · refine yields_bind fun next => ?_
    dsimp only
    split_ifs
    · exact yields_cons (yields_empty _) hrest
    · exact yields_cons (yields_succ (h.node _ _)) hrest
  · exact yields_pure (List.forall_mem_nil _)
  · exact yields_fault _ _ _

theorem yields_unindentedItems (h : StaysWithin fuel) :
    Yields (fun ns => ∀ n ∈ ns, n.IsWithin (fuel + 2)) (unindentedItems (fuel + 1)) := by
  have hrest := yields_succ_all h.unindentedItems
  rw [unindentedItems]
  refine yields_bind fun t => ?_
  dsimp only
  split_ifs
  · exact yields_pure (List.forall_mem_nil _)
  · refine yields_bind fun _ => yields_bind fun next => ?_
    split_ifs
    · exact yields_cons (yields_empty _) hrest
    · exact yields_cons (yields_succ (h.node _ _)) hrest

theorem yields_blockPart (h : StaysWithin fuel) (place : Mark) :
    Yields (Node.IsWithin (fuel + 2)) (blockPart place (fuel + 1)) := by
  rw [blockPart]
  refine yields_bind fun next => ?_
  dsimp only
  split_ifs
  · exact yields_empty _
  · exact yields_succ (h.node _ _)

theorem yields_blockEntries (h : StaysWithin fuel) (start : Mark) :
    Yields (fun es => ∀ e ∈ es, e.1.IsWithin (fuel + 2) ∧ e.2.IsWithin (fuel + 2))
      (blockEntries start (fuel + 1)) := by
  have hrest := yields_succ_entries (h.blockEntries start)
  rw [blockEntries]
  refine yields_bind fun t => yields_bind fun _ => ?_
  split
  · refine (yields_succ (h.blockPart _)).bind fun key hkey => yields_bind fun v => ?_
    extract_lets entry
    have hentry (value : Node) (hvalue : value.IsWithin (fuel + 2)) :
        Yields (fun es => ∀ e ∈ es, e.1.IsWithin (fuel + 2) ∧ e.2.IsWithin (fuel + 2))
          (entry value) :=
      hrest.bind fun _ hes => yields_pure (List.forall_mem_cons.mpr ⟨⟨hkey, hvalue⟩, hes⟩)
    split_ifs
    · exact yields_bind fun _ => (yields_succ (h.blockPart _)).bind hentry
    · exact hentry _ (Node.isWithin_empty _ _)
  · exact yields_pure (List.forall_mem_nil _)
  · exact yields_fault _ _ _

theorem yields_flowItems (h : StaysWithin fuel) (start : Mark) (isFirst : Bool) :
    Yields (fun ns => ∀ n ∈ ns, n.IsWithin (fuel + 2)) (flowItems start isFirst (fuel + 1)) := by
  have hrest := yields_succ_all (h.flowItems start false)
  rw [flowItems]
  refine yields_bind fun t => ?_
  extract_lets withItem behind
  have hitem (item : Node) (hitem : item.IsWithin (fuel + 2)) :
      Yields (fun ns => ∀ n ∈ ns, n.IsWithin (fuel + 2)) (withItem item) :=
    hrest.bind fun _ hns => yields_pure (List.forall_mem_cons.mpr ⟨hitem, hns⟩)
  have hbehind (t : Token) : Yields (fun ns => ∀ n ∈ ns, n.IsWithin (fuel + 2)) (behind t) := by
    simp only [behind]
    split_ifs
    · exact yields_bind fun _ => yields_pure (List.forall_mem_nil _)
    · refine yields_bind fun _ => h.flowPair.bind fun entry hentry => hitem _ (.mapping ?_ ?_)
      · exact List.forall_mem_singleton.mpr hentry.1
      · exact List.forall_mem_singleton.mpr hentry.2
    · exact (yields_succ (h.node _ _)).bind hitem
  split_ifs
  · exact yields_bind fun _ => yields_pure (List.forall_mem_nil _)
  · exact hbehind t
  · exact yields_bind fun _ => yields_bind hbehind
  · exact (yields_fault (P := fun _ => True) _ _ _).bind fun t _ => hbehind t

theorem yields_flowPair (h : StaysWithin fuel) :
    Yields (fun e => e.1.IsWithin (fuel + 2) ∧ e.2.IsWithin (fuel + 2)) (flowPair (fuel + 1)) := by
  rw [flowPair]
  refine yields_bind fun k => ?_
  extract_lets behind
  have hbehind (key : Node) (hkey : key.IsWithin (fuel + 2)) :
      Yields (fun e => e.1.IsWithin (fuel + 2) ∧ e.2.IsWithin (fuel + 2)) (behind key) := by
    refine yields_bind fun v => ?_
    split_ifs
    · refine yields_bind fun _ => yields_bind fun next => ?_
      dsimp only
      split_ifs
      · exact (yields_succ (h.node _ _)).bind fun value hvalue => yields_pure ⟨hkey, hvalue⟩
      · exact yields_pure ⟨hkey, Node.isWithin_empty _ _⟩
    · exact yields_pure ⟨hkey, Node.isWithin_empty _ _⟩
  split_ifs
  · exact yields_bind fun _ => (yields_empty _).bind hbehind
  · exact (yields_succ (h.node _ _)).bind hbehind

theorem yields_flowEntries (h : StaysWithin fuel) (start : Mark) (isFirst : Bool) :
    Yields (fun es => ∀ e ∈ es, e.1.IsWithin (fuel + 2) ∧ e.2.IsWithin (fuel + 2))
      (flowEntries start isFirst (fuel + 1)) := by
  have hrest := yields_succ_entries (h.flowEntries start false)
  rw [flowEntries]
  refine yields_bind fun t => ?_
  extract_lets withEntry withKey behind
  -- The continuations from the last to the first: behind an entry, behind a key, and at an entry.
  have hentry (entry : Node × Node)
      (hentry : entry.1.IsWithin (fuel + 2) ∧ entry.2.IsWithin (fuel + 2)) :
      Yields (fun es => ∀ e ∈ es, e.1.IsWithin (fuel + 2) ∧ e.2.IsWithin (fuel + 2))
        (withEntry entry) :=
    hrest.bind fun _ hes => yields_pure (List.forall_mem_cons.mpr ⟨hentry, hes⟩)
  have hkey (key : Node) (hkey : key.IsWithin (fuel + 2)) :
      Yields (fun es => ∀ e ∈ es, e.1.IsWithin (fuel + 2) ∧ e.2.IsWithin (fuel + 2))
        (withKey key) :=
    (yields_succ h.flowValue).bind fun value hvalue => hentry (key, value) ⟨hkey, hvalue⟩
  have hbehind (t : Token) :
      Yields (fun es => ∀ e ∈ es, e.1.IsWithin (fuel + 2) ∧ e.2.IsWithin (fuel + 2))
        (behind t) := by
    simp only [behind]
    split_ifs
    · exact yields_bind fun _ => yields_pure (List.forall_mem_nil _)
    · refine yields_bind fun _ => yields_bind fun k => ?_
      split_ifs
      · exact (yields_empty _).bind hkey
      · exact (yields_succ (h.node _ _)).bind hkey
    · exact (yields_succ (h.node _ _)).bind fun key hkey => yields_bind fun _ =>
        hentry (key, _) ⟨hkey, Node.isWithin_empty _ _⟩
  split_ifs
  · exact yields_bind fun _ => yields_pure (List.forall_mem_nil _)
  · exact hbehind t
  · exact yields_bind fun _ => yields_bind hbehind
  · exact (yields_fault (P := fun _ => True) _ _ _).bind fun t _ => hbehind t

theorem yields_flowValue (h : StaysWithin fuel) :
    Yields (Node.IsWithin (fuel + 2)) (flowValue (fuel + 1)) := by
  rw [flowValue]
  refine yields_bind fun v => ?_
  split_ifs
  · refine yields_bind fun _ => yields_bind fun behind => ?_
    split_ifs
    · exact yields_succ (h.node _ _)
    · exact yields_empty _
  · exact yields_empty _

/-- **Each step of reading goes one level deeper at most.** -/
theorem staysWithin (fuel : Nat) : StaysWithin fuel := by
  induction fuel with
  | zero => exact staysWithin_zero
  | succ fuel ih =>
    exact
      { node := yields_node ih
        blockItems := yields_blockItems ih
        unindentedItems := yields_unindentedItems ih
        blockEntries := yields_blockEntries ih
        blockPart := yields_blockPart ih
        flowItems := yields_flowItems ih
        flowPair := yields_flowPair ih
        flowEntries := yields_flowEntries ih
        flowValue := yields_flowValue ih }

end

/-! ### Documents -/

theorem yields_root (fuel : Nat) :
    Yields (fun o => ∀ n ∈ o, n.IsWithin (fuel + 1)) (root fuel) := by
  have hsome {n : Node} (hn : n.IsWithin (fuel + 1)) : ∀ m ∈ some n, m.IsWithin (fuel + 1) :=
    fun m hm => Option.mem_some.mp hm ▸ hn
  have hnode : Yields (fun o => ∀ n ∈ o, n.IsWithin (fuel + 1))
      (do return some (← node true false fuel)) :=
    ((staysWithin fuel).node true false).bind fun n hn => yields_pure (hsome hn)
  unfold root
  refine yields_bind fun _ => yields_bind fun t => ?_
  split
  · exact yields_pure fun _ h => absurd h (Option.not_mem_none _)
  rotate_left 3
  · exact yields_bind fun _ => hnode
  -- Behind directives and the start of a document there may be no node.
  all_goals
    refine yields_bind fun _ => yields_bind fun t => ?_
    extract_lets behind
    have hbehind (u : Unit) : Yields (fun o => ∀ n ∈ o, n.IsWithin (fuel + 1)) (behind u) := by
      refine yields_bind fun _ => yields_bind fun t => ?_
      split
      all_goals first
        | exact yields_pure (hsome (Node.isWithin_empty _ _))
        | exact hnode
    split_ifs
    · exact yields_bind hbehind
    · exact hbehind ()

end Reading

/-- **A document is nested no deeper than its size tells.** -/
theorem Document.isWithin_of_parse? {data : Bytes} {d : Document}
    (h : Document.parse? data = .ok (some d)) : d.root.IsWithin (d.size + 1) := by
  have hdocument (fuel : Nat) : Yields (fun o : Option Document => ∀ d ∈ o,
      d.root.IsWithin (d.size + 1)) (Reading.document fuel) := by
    unfold Reading.document
    refine yields_bind fun _ => (Reading.yields_root fuel).bind fun root hroot => ?_
    split
    · exact yields_pure fun _ h => absurd h (Option.not_mem_none _)
    · next n =>
      refine yields_bind fun _ => yields_bind fun s => yields_pure ?_
      rintro _ ⟨⟩
      exact hroot n rfl
  unfold Document.parse? at h
  split at h
  · exact absurd h (by simp)
  · next t _ =>
    cases hrun : (Reading.document (4 * t.length + 16)).run { tokens := .ofText t } with
    | error f =>
      rw [hrun] at h
      cases h
    | ok r =>
      rw [hrun] at h
      exact hdocument _ _ _ _ hrun d (Except.ok.inj h)

end ScriptLint.Yaml
