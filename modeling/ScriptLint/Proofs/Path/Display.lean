import ScriptLint.Proofs.Path

/-!
# Paths for showing

The path that is shown leads from the root to where it is given for. Behind the root it is read as
the steps of `Path.between`: those up take back what the root has below the shared part, and those
down add what the target has (`settle_append_between`). So joining undoes relativising
(`clean_append_relative`), and what is shown tells places apart (`display_identifies`). The way from
one absolute path to another can always be told (`relative?_render`).
-/

namespace ScriptLint.Path

/-! ### Absolute forms -/

theorem absolute_eq_clean {cwd : List Bytes} (hcwd : IsClean cwd) (p : Bytes) :
    absolute cwd p = clean (if isAbsolute p then p else render cwd ++ slash :: p) := by
  rw [absolute, locate]
  split_ifs with hp
  · rw [clean, if_pos hp]
  · rw [clean, isAbsolute_render_append, if_pos rfl, components_append_cons,
      components_render hcwd]

/-! ### The way from an absolute path -/

/-- **The way from one absolute path to another can be told**: no `..` is left in either of them. -/
theorem relative?_render {base target : List Bytes} (hbase : IsClean base)
    (htarget : IsClean target) :
    relative? (render base) (render target) = some (relative base target) := by
  -- A way is refused for a `..` where the two part, and a clean list has none anywhere.
  have hup : (afterShared base target).1.head? ≠ some up := fun h =>
    (isClean_afterShared_left hbase target up (List.mem_of_head? h)).ne_up rfl
  simp only [relative?, isAbsolute_render, components_render hbase, components_render htarget,
    settle_isClean hbase, settle_isClean htarget]
  rw [if_neg (by simpa using hup)]

theorem relative?_absolute {cwd : List Bytes} (hcwd : IsClean cwd) (root path : Bytes) :
    relative? (absolute cwd root) (absolute cwd path)
      = some (relative (locate cwd root) (locate cwd path)) :=
  relative?_render (locate_isClean hcwd root) (locate_isClean hcwd path)

/-- What is shown is the way from the place of the root. -/
theorem display_eq {cwd : List Bytes} (hcwd : IsClean cwd) {root : Bytes} (hroot : root ≠ [])
    (path : Bytes) : display cwd root path = relative (locate cwd root) (locate cwd path) := by
  rw [display, if_neg hroot, relative?_absolute hcwd, Option.getD_some]

/-! ### Going the way -/

theorem components_relative {base target : List Bytes} (htarget : IsClean target) :
    components (relative base target) = between base target := by
  rw [components, splitBytes_relative htarget]
  split_ifs with hnil
  · rw [hnil]
    decide
  · exact List.filter_eq_self.mpr fun c hc => decide_eq_true (of_mem_between htarget hc).2

/-- As many steps up as there are names take these names back. -/
theorem foldl_step_replicate_up {names : List Bytes} (hnames : IsClean names)
    (before : List Bytes) :
    (List.replicate names.length up).foldl (step true) (names ++ before) = before := by
  induction names with
  | nil => rfl
  | cons n names ih =>
    have hn := hnames n (List.mem_cons_self ..)
    rw [List.length_cons, List.replicate_succ, List.foldl_cons, List.cons_append]
    simp only [step, if_true, if_neg hn.ne_up]
    exact ih fun c hc => hnames c (List.mem_cons_of_mem n hc)

/-- **The way from a place leads to its target.** -/
theorem settle_append_between {base target : List Bytes} (hbase : IsClean base)
    (htarget : IsClean target) : settle true (base ++ between base target) = target := by
  obtain ⟨shared, hb, ht⟩ := exists_shared base target
  set left := (afterShared base target).1 with hleft
  set right := (afterShared base target).2 with hright
  have hrest : IsClean right := isClean_afterShared_right base htarget
  have htaken : IsClean left.reverse := (isClean_afterShared_left hbase target).reverse
  -- The names of the base stand in reverse, and those behind the shared ones are taken back first.
  have hup : (List.replicate left.length up).foldl (step true) base.reverse = shared.reverse := by
    have h := foldl_step_replicate_up htaken shared.reverse
    rwa [List.length_reverse, ← List.reverse_append, ← hb] at h
  rw [settle, between, ← hleft, ← hright, List.foldl_append, foldl_step_of_isClean hbase,
    List.append_nil, List.foldl_append, hup, foldl_step_of_isClean hrest, List.reverse_append,
    List.reverse_reverse, List.reverse_reverse, ← ht]

/-- **Joining undoes relativising.** -/
theorem clean_append_relative {base target : List Bytes} (hbase : IsClean base)
    (htarget : IsClean target) :
    clean (render base ++ slash :: relative base target) = render target := by
  rw [clean, isAbsolute_render_append, if_pos rfl, components_append_cons, components_render hbase,
    components_relative htarget, settle_append_between hbase htarget]

/-- A way does not start at the root. -/
theorem isAbsolute_relative {base target : List Bytes} (htarget : IsClean target) :
    isAbsolute (relative base target) = false := by
  by_contra habsolute
  rw [Bool.not_eq_false, isAbsolute, beq_iff_eq] at habsolute
  obtain ⟨r, hr⟩ := List.head?_eq_some_iff.mp habsolute
  -- A slash at the front has an empty part before it, and no part of a way is empty.
  have hempty : [] ∈ splitBytes slash (relative base target) := by
    rw [hr, splitBytes, if_pos rfl]
    exact List.mem_cons_self
  rw [splitBytes_relative htarget] at hempty
  split_ifs at hempty
  · exact absurd (List.mem_singleton.mp hempty) (by decide)
  · exact (of_mem_between htarget hempty).2.1 rfl

/-! ### What is shown -/

/-- **Shown paths identify files.** From every working directory and for every root that is given,
the way from the root to a path can be told, so that the path is never shown as it was given. Behind
the absolute form of the root, what is shown is the absolute form of the path again, when it is
cleaned. It does not start at the root, and two paths are shown alike exactly if their absolute
forms are equal. The absolute form of a path is the path itself, or what it is behind the working
directory, cleaned. -/
theorem display_identifies {cwd : List Bytes} (hcwd : IsClean cwd) {root : Bytes}
    (hroot : root ≠ []) (path : Bytes) :
    let place (p : Bytes) := clean (if isAbsolute p then p else render cwd ++ slash :: p)
    relative? (place root) (place path) = some (display cwd root path) ∧
    clean (place root ++ slash :: display cwd root path) = place path ∧
    isAbsolute (display cwd root path) = false ∧
    ∀ other, display cwd root path = display cwd root other ↔ place path = place other := by
  intro place
  have hplace (p : Bytes) : place p = absolute cwd p := (absolute_eq_clean hcwd p).symm
  have hway (p : Bytes) : relative? (place root) (place p) = some (display cwd root p) := by
    rw [hplace, hplace, relative?_absolute hcwd, display_eq hcwd hroot]
  have hback (p : Bytes) : clean (place root ++ slash :: display cwd root p) = place p := by
    rw [hplace, hplace, display_eq hcwd hroot]
    exact clean_append_relative (locate_isClean hcwd root) (locate_isClean hcwd p)
  refine ⟨hway path, hback path, ?_, fun other => ⟨fun h => ?_, fun h => ?_⟩⟩
  · rw [display_eq hcwd hroot]
    exact isAbsolute_relative (locate_isClean hcwd path)
  · rw [← hback path, h, hback other]
  · exact Option.some.inj ((hway path).symm.trans (h ▸ hway other))

/-- A root beside the working directory, with a doubled slash, a `.` and a name that is taken
back. -/
theorem display_identifies_beside :
    let cwd := [bytes "p", bytes "q"]
    let root := bytes "..//r/./s/.."
    IsClean cwd ∧ root ≠ [] ∧ display cwd root (bytes "t") = bytes "../q/t" ∧
      clean (bytes "/p/r" ++ slash :: bytes "../q/t") = bytes "/p/q/t" := by
  intro cwd root
  have hcwd : IsClean cwd := by unfold IsClean; decide
  have hroot : root ≠ [] := by decide
  have hshown : display cwd root (bytes "t") = bytes "../q/t" := by decide
  obtain ⟨-, hback, -⟩ := display_identifies hcwd hroot (bytes "t")
  rw [hshown] at hback
  exact ⟨hcwd, hroot, hshown, hback⟩

end ScriptLint.Path
