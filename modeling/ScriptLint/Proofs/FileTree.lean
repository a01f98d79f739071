import ScriptLint.Discovery
import ScriptLint.Proofs.Entries
import ScriptLint.Proofs.Path

/-!
# Directory trees

A tree is proper when each directory holds distinct names that a file system accepts. In a proper
tree a list of names leads to at most one node (`FileTree.at?`), which neither the order of entries
(`FileTree.at?_sorted`) nor the way of getting there (`FileTree.isProper_of_lookup`) changes.
-/

namespace ScriptLint

namespace FileTree

/-- A tree as a file system holds it: the entries of every directory have distinct names. -/
inductive IsProper : FileTree → Prop where
  | file (content : Bytes) : IsProper (.file content)
  | dir (entries : Entries FileTree) (distinct : entries.IsDistinct)
    (names : ∀ e ∈ entries, Path.IsName e.1) (below : ∀ e ∈ entries, IsProper e.2) :
    IsProper (.dir entries)

end FileTree

/-- A proper tree, and a working directory whose components are names. -/
structure World.IsProper (w : World) : Prop where
  tree : w.tree.IsProper
  cwd : Path.IsClean w.cwd

namespace FileTree

/-- What a list of names leads to. -/
def at? : FileTree → List Bytes → Option FileTree
  | t, [] => some t
  | t, n :: ns => (t.child? n).bind (·.at? ns)

/-- Whether a list of names leads to a file. -/
def HasFile (t : FileTree) (names : List Bytes) : Prop :=
  ∃ content, t.at? names = some (.file content)

/-! ### Entries -/

theorem child?_eq_get? (name : Bytes) (t : FileTree) :
    t.child? name = Entries.get? t.entries name := by
  rw [child?, Entries.get?]
  congr 2
  funext e
  by_cases h : e.1 = name
  · simp [h]
  · simp [h]

@[simp]
theorem child?_file (content name : Bytes) : (FileTree.file content).child? name = none := rfl

/-- The entries of a directory are what is listed in it. -/
theorem child?_dir_eq_some_iff {es : Entries FileTree} (hes : es.IsDistinct) {name : Bytes}
    {t : FileTree} : (FileTree.dir es).child? name = some t ↔ (name, t) ∈ es := by
  rw [child?_eq_get?]
  exact Entries.get?_eq_some_iff hes

theorem IsProper.of_child? {t u : FileTree} {name : Bytes} (ht : t.IsProper)
    (h : t.child? name = some u) : Path.IsName name ∧ u.IsProper := by
  cases ht with
  | file content => simp at h
  | dir es distinct names below =>
    rw [child?_dir_eq_some_iff distinct] at h
    exact ⟨names _ h, below _ h⟩

/-- The names that lead anywhere in a proper tree are names. -/
theorem IsProper.isClean_of_at? {t u : FileTree} {ns : List Bytes} (ht : t.IsProper)
    (h : t.at? ns = some u) : Path.IsClean ns := by
  induction ns generalizing t with
  | nil => exact fun c hc => absurd hc List.not_mem_nil
  | cons n ns ih =>
    obtain ⟨v, hv, hu⟩ := Option.bind_eq_some_iff.mp h
    obtain ⟨hname, hproper⟩ := ht.of_child? hv
    intro c hc
    rcases List.mem_cons.mp hc with rfl | hc
    · exact hname
    · exact ih hproper hu c hc

/-! ### Following paths -/

/-- What a path leads to in a proper tree is proper. -/
theorem IsProper.follow {above : List FileTree} {t u : FileTree} {cs : List Bytes}
    (ht : t.IsProper) (habove : ∀ d ∈ above, IsProper d) (h : follow above t cs = .ok u) :
    u.IsProper := by
  -- The directories above are kept proper too, since a step up leads to one of them.
  induction cs generalizing above t with
  | nil =>
    simp only [FileTree.follow, Except.ok.injEq] at h
    exact h ▸ ht
  | cons c cs ih =>
    cases t with
    | file content => simp [FileTree.follow] at h
    | dir es =>
      simp only [FileTree.follow] at h
      split_ifs at h
      · exact ih ht habove h
      · cases above with
        | nil => exact ih ht habove h
        | cons d ds =>
          exact ih (habove d (List.mem_cons_self ..))
            (fun x hx => habove x (List.mem_cons_of_mem _ hx)) h
      · split at h
        · simp at h
        · rename_i e he
          cases ht with
          | dir _ distinct names below =>
            refine ih (below e (List.mem_of_find?_eq_some he)) (fun x hx => ?_) h
            rcases List.mem_cons.mp hx with rfl | hx
            · exact .dir es distinct names below
            · exact habove x hx

theorem isProper_of_lookup {w : World} (hw : w.IsProper) {p : Bytes} {t : FileTree}
    (h : w.lookup p = .ok t) : t.IsProper := by
  simp only [World.lookup] at h
  split_ifs at h
  · exact hw.tree.follow (fun d hd => absurd hd List.not_mem_nil) h
  · exact hw.tree.follow (fun d hd => absurd hd List.not_mem_nil) h

/-! ### Entries in order -/

theorem sortedEntries_eq_map (es : Entries FileTree) :
    sorted.sortedEntries es = es.map fun e => (e.1, e.2.sorted) := by
  induction es with
  | nil => rfl
  | cons e es ih =>
    obtain ⟨name, t⟩ := e
    rw [sorted.sortedEntries, ih, List.map_cons]

/-- Ordering entries only moves them. -/
theorem sorted_dir_perm (es : Entries FileTree) :
    (FileTree.dir es).sorted.entries.Perm (es.map fun e => (e.1, e.2.sorted)) := by
  rw [sorted, sortedEntries_eq_map]
  exact List.mergeSort_perm _ _

theorem child?_sorted {t : FileTree} (ht : t.IsProper) (name : Bytes) :
    t.sorted.child? name = (t.child? name).map sorted := by
  cases ht with
  | file content => rfl
  | dir es distinct names below =>
    have hperm := sorted_dir_perm es
    have hdistinct : Entries.IsDistinct (es.map fun e => (e.1, e.2.sorted)) := by
      rw [Entries.IsDistinct, List.map_map]
      exact distinct
    rw [child?_eq_get?, child?_eq_get?, ← Entries.get?_perm hdistinct hperm.symm,
      Entries.get?_map]
    rfl

theorem IsProper.sorted {t : FileTree} (ht : t.IsProper) : t.sorted.IsProper := by
  induction ht with
  | file content => exact .file content
  | dir es distinct names below ih =>
    have hperm := sorted_dir_perm es
    rw [FileTree.sorted] at hperm ⊢
    refine .dir _ ?_ ?_ ?_
    · refine (hperm.map fun e : Bytes × FileTree => e.1).nodup_iff.mpr ?_
      rw [List.map_map]
      exact distinct
    · intro e he
      obtain ⟨x, hx, rfl⟩ := List.mem_map.mp (hperm.mem_iff.mp he)
      exact names x hx
    · intro e he
      obtain ⟨x, hx, rfl⟩ := List.mem_map.mp (hperm.mem_iff.mp he)
      exact ih x hx

/-- The order of entries does not change what names lead to. -/
theorem at?_sorted {t : FileTree} (ht : t.IsProper) (ns : List Bytes) :
    t.sorted.at? ns = (t.at? ns).map sorted := by
  induction ns generalizing t with
  | nil => rfl
  | cons n ns ih =>
    rw [at?, at?, child?_sorted ht]
    cases h : t.child? n with
    | none => rfl
    | some u => exact ih (ht.of_child? h).2

theorem hasFile_sorted {t : FileTree} (ht : t.IsProper) (ns : List Bytes) :
    t.sorted.HasFile ns ↔ t.HasFile ns := by
  simp only [HasFile, at?_sorted ht]
  cases t.at? ns with
  | none => simp
  | some u =>
    cases u with
    | file content => simp [sorted]
    | dir es => simp [sorted]

/-! ### Trees without contents -/

/-- A tree with the same names in which every file is empty. -/
def blank : FileTree → FileTree
  | .file _ => .file []
  | .dir entries => .dir (blankEntries entries)
where
  /-- Empties the files below each entry. -/
  blankEntries : List (Bytes × FileTree) → List (Bytes × FileTree)
    | [] => []
    | (name, t) :: es => (name, t.blank) :: blankEntries es

theorem blankEntries_eq_map (es : Entries FileTree) :
    blank.blankEntries es = es.map fun e => (e.1, e.2.blank) := by
  induction es with
  | nil => rfl
  | cons e es ih =>
    obtain ⟨name, t⟩ := e
    rw [blank.blankEntries, ih, List.map_cons]

theorem isDir_blank (t : FileTree) : t.blank.isDir = t.isDir := by
  cases t with
  | file content => rfl
  | dir es => rfl

/-- Following components sees names only. -/
theorem follow_blank (above : List FileTree) (t : FileTree) (cs : List Bytes) :
    t.blank.follow (above.map blank) cs = (t.follow above cs).map blank := by
  induction cs generalizing above t with
  | nil => rfl
  | cons c cs ih =>
    cases t with
    | file content => rfl
    | dir es =>
      simp only [blank, follow]
      split_ifs
      · exact ih above (.dir es)
      · cases above with
        | nil => exact ih [] (.dir es)
        | cons d ds => exact ih ds d
      · rfl
      · -- An entry is found by its name, which stays.
        have hfind : (blank.blankEntries es).find? (·.1 == c)
            = (es.find? (·.1 == c)).map fun e => (e.1, e.2.blank) := by
          rw [blankEntries_eq_map, List.find?_map]
          rfl
        rw [hfind]
        cases es.find? (·.1 == c) with
        | none => rfl
        | some e => exact ih (.dir es :: above) e.2

mutual

theorem sorted_blank : ∀ t : FileTree, t.blank.sorted = t.sorted.blank
  | .file _ => rfl
  | .dir es => by
    rw [blank, sorted, sorted, blank, sortedEntries_blankEntries es, blankEntries_eq_map,
      blankEntries_eq_map]
    congr 1
    unfold Entries.sorted
    -- The order looks at names, which stay.
    refine (List.map_mergeSort ?_).symm
    intro a _ b _
    rfl

theorem sortedEntries_blankEntries : ∀ es : List (Bytes × FileTree),
    sorted.sortedEntries (blank.blankEntries es) = blank.blankEntries (sorted.sortedEntries es)
  | [] => rfl
  | (name, t) :: es => by
    rw [blank.blankEntries, sorted.sortedEntries, sorted.sortedEntries, blank.blankEntries,
      sorted_blank t, sortedEntries_blankEntries es]

end

end FileTree

namespace World

/-! ### What is at a path -/

theorem exists?_iff {w : World} {p : Bytes} : w.exists? p = true ↔ ∃ t, w.lookup p = .ok t := by
  rw [exists?]
  cases w.lookup p with
  | error cause => simp [Except.isOk, Except.toBool]
  | ok t => simp [Except.isOk, Except.toBool]

theorem isDirectory_iff {w : World} {p : Bytes} :
    w.isDirectory p = true ↔ ∃ es, w.lookup p = .ok (.dir es) := by
  rw [isDirectory]
  cases w.lookup p with
  | error cause => simp
  | ok t => cases t <;> simp [FileTree.isDir]

/-! ### A world without contents -/

/-- The world with every file empty. -/
def blank (w : World) : World := { w with tree := w.tree.blank }

@[simp]
theorem cwd_blank (w : World) : w.blank.cwd = w.cwd := rfl

theorem lookup_blank (w : World) (p : Bytes) :
    w.blank.lookup p = (w.lookup p).map FileTree.blank := by
  unfold lookup
  split_ifs
  · rfl
  · rfl
  · rfl
  · exact FileTree.follow_blank [] w.tree _
  · exact FileTree.follow_blank [] w.tree _

theorem exists?_blank (w : World) (p : Bytes) : w.blank.exists? p = w.exists? p := by
  rw [exists?, exists?, lookup_blank]
  cases w.lookup p with
  | error cause => rfl
  | ok t => rfl

theorem isDirectory_blank (w : World) (p : Bytes) : w.blank.isDirectory p = w.isDirectory p := by
  rw [isDirectory, isDirectory, lookup_blank]
  cases w.lookup p with
  | error cause => rfl
  | ok t => exact FileTree.isDir_blank t

end World

end ScriptLint
