import ScriptLint.Config.Basic
import ScriptLint.Proofs.FileTree
import Mathlib.Logic.Function.Iterate

/-!
# The nearest configuration file

The search for a configuration file goes from a directory to the one above it, again and again. The
directories on its way are the ancestors of the start, up to the root, where going up goes nowhere
(`Path.iterate_directory_render`). Each of them is asked for the file first and for a repository
after it (`searchIn_eq_some_iff`, `searchIn_eq_none_iff`), and the first one with an answer decides
(`discoverFrom_eq_some_iff`).
-/

namespace ScriptLint

namespace Path

/-- Going up takes names off the end, until none is left. -/
theorem iterate_directory_render {reversed : List Bytes} (hclean : IsClean reversed) (k : ℕ) :
    directory^[k] (render reversed.reverse) = render (reversed.drop k).reverse := by
  induction k generalizing reversed with
  | zero => rfl
  | succ k ih =>
    rw [Function.iterate_succ_apply]
    cases reversed with
    | nil =>
      have hroot : directory (render [].reverse) = render [].reverse := by decide
      rw [hroot, ih hclean, List.drop_nil, List.drop_nil]
    | cons c above =>
      obtain ⟨hc, habove⟩ := List.forall_mem_cons.mp hclean
      have hbelow : IsClean above.reverse := IsClean.reverse habove
      rw [List.reverse_cons, directory_render hbelow hc, ih habove, List.drop_succ_cons]

end Path

namespace Config

variable {w : World}

/-! ### One directory -/

/-- The directories from a start upwards: its absolute form, and so many steps above it. -/
def ancestor (w : World) (start : Bytes) (k : ℕ) : Bytes :=
  Path.directory^[k] (Path.absolute w.cwd start)

theorem ancestor_eq_render (hcwd : Path.IsClean w.cwd) (start : Bytes) (k : ℕ) :
    ancestor w start k = Path.render ((Path.locate w.cwd start).reverse.drop k).reverse := by
  have hclean := (Path.locate_isClean hcwd start).reverse
  rw [ancestor, Path.absolute, ← Path.iterate_directory_render hclean, List.reverse_reverse]

/-- A directory with the file answers with its path, whether or not it holds a repository. -/
theorem searchIn_eq_some_iff {reversed : List Bytes} {path : Bytes} :
    discoverFrom.searchIn w reversed = some (some path) ↔
      (∃ t, w.lookup (Path.join (Path.render reversed.reverse) fileName) = .ok t) ∧
        path = Path.join (Path.render reversed.reverse) fileName := by
  simp only [discoverFrom.searchIn, ← World.exists?_iff]
  split_ifs with hfile hmark
  · simp [hfile, eq_comm]
  · simp [hfile]
  · simp [hfile]

/-- A directory without the file lets the search pass unless it holds a repository. -/
theorem searchIn_eq_none_iff {reversed : List Bytes} :
    discoverFrom.searchIn w reversed = none ↔
      (∀ t, w.lookup (Path.join (Path.render reversed.reverse) fileName) ≠ .ok t) ∧
        ∀ es, w.lookup (Path.join (Path.render reversed.reverse) repositoryMark) ≠ .ok (.dir es) := by
  simp only [ne_eq, ← not_exists, ← World.exists?_iff, ← World.isDirectory_iff,
    discoverFrom.searchIn]
  split_ifs with hfile hmark
  · simp [hfile]
  · simp [hmark]
  · simp [hfile, hmark]

/-! ### All of them -/

/-- **The first directory with an answer decides**, by induction on the way up. -/
theorem discoverFrom_eq_some_iff {reversed : List Bytes} {path : Bytes} :
    discoverFrom w reversed = some path ↔
      ∃ k, discoverFrom.searchIn w (reversed.drop k) = some (some path) ∧
        ∀ j < k, discoverFrom.searchIn w (reversed.drop j) = none := by
  induction reversed with
  | nil =>
    -- From the root the way up stays at the root, so every step has the same answer.
    simp only [discoverFrom, List.drop_nil]
    cases discoverFrom.searchIn w [] with
    | none => simp
    | some answer =>
      rw [Option.getD_some, Option.some.injEq]
      exact ⟨fun h => ⟨0, h, fun j hj => absurd hj (Nat.not_lt_zero j)⟩, fun ⟨_, h, _⟩ => h⟩
  | cons c above ih =>
    rw [discoverFrom]
    cases hhere : discoverFrom.searchIn w (c :: above) with
    | none =>
      rw [Option.getD_none, ih]
      constructor
      · rintro ⟨k, hk, hbelow⟩
        refine ⟨k + 1, hk, fun j hj => ?_⟩
        cases j with
        | zero => exact hhere
        | succ j => exact hbelow j (Nat.lt_of_succ_lt_succ hj)
      · rintro ⟨k, hk, hbelow⟩
        cases k with
        | zero => exact absurd (hhere.symm.trans hk) (by simp)
        | succ k => exact ⟨k, hk, fun j hj => hbelow (j + 1) (Nat.succ_lt_succ hj)⟩
    | some answer =>
      -- An answer here leaves no other step: those above it would need this directory to let pass.
      rw [Option.getD_some]
      constructor
      · rintro rfl
        exact ⟨0, hhere, fun j hj => absurd hj (Nat.not_lt_zero j)⟩
      · rintro ⟨k, hk, hbelow⟩
        cases k with
        | zero => exact Option.some.inj (hhere.symm.trans hk)
        | succ k => exact absurd (hhere.symm.trans (hbelow 0 k.succ_pos)) (by simp)

/-- Whether the nearest configuration file is so many steps above a start: it is there, and below it
there is neither another one nor a directory that marks a repository. -/
structure IsNearest (w : World) (start : Bytes) (k : ℕ) : Prop where
  found : ∃ t, w.lookup (Path.join (ancestor w start k) fileName) = .ok t
  first : ∀ j < k, ∀ t, w.lookup (Path.join (ancestor w start j) fileName) ≠ .ok t
  inside : ∀ j < k, ∀ es,
    w.lookup (Path.join (ancestor w start j) repositoryMark) ≠ .ok (.dir es)

/-- What is found is the file of the nearest directory. -/
theorem discover?_eq_some_iff (hcwd : Path.IsClean w.cwd) {start path : Bytes} :
    discover? w start = some path ↔
      ∃ k, IsNearest w start k ∧ path = Path.join (ancestor w start k) fileName := by
  rw [discover?, discoverFrom_eq_some_iff]
  simp only [searchIn_eq_some_iff, searchIn_eq_none_iff, ← ancestor_eq_render hcwd]
  constructor
  · rintro ⟨k, ⟨hfound, hpath⟩, hbelow⟩
    exact ⟨k, ⟨hfound, fun j hj => (hbelow j hj).1, fun j hj => (hbelow j hj).2⟩, hpath⟩
  · rintro ⟨k, hnearest, hpath⟩
    exact ⟨k, ⟨hnearest.found, hpath⟩, fun j hj => ⟨hnearest.first j hj, hnearest.inside j hj⟩⟩

/-- **The nearest configuration file is found inside the repository.** From every start in every
world, the search asks its absolute form and the directories above it, of which the last one is the
root. It gives the path of the file in the nearest directory that holds one, unless a directory
below that one holds the mark of a repository; otherwise it gives nothing. A mark that is a file
does not count, nor does one beside the configuration file. -/
theorem discover_finds_nearest (hcwd : Path.IsClean w.cwd) (start : Bytes) :
    (∃ n, ∀ k, n ≤ k ↔ ancestor w start k = Path.render []) ∧
    (∀ k, IsNearest w start k →
      discover? w start = some (Path.join (ancestor w start k) fileName)) ∧
    ((∀ k, ¬ IsNearest w start k) → discover? w start = none) := by
  refine ⟨⟨(Path.locate w.cwd start).length, fun k => ?_⟩, fun k hk => ?_, fun hnone => ?_⟩
  · have hclean := ((Path.locate_isClean hcwd start).reverse.drop k).reverse
    rw [ancestor_eq_render hcwd]
    constructor
    · intro hk
      rw [List.drop_of_length_le (by rwa [List.length_reverse]), List.reverse_nil]
    · intro h
      have hnil : ((Path.locate w.cwd start).reverse.drop k).reverse = [] := by
        rw [← Path.components_render hclean, h]
        decide
      rwa [List.reverse_eq_nil_iff, List.drop_eq_nil_iff, List.length_reverse] at hnil
  · exact (discover?_eq_some_iff hcwd).mpr ⟨k, hk, rfl⟩
  · cases hfound : discover? w start with
    | none => rfl
    | some path =>
      obtain ⟨k, hk, -⟩ := (discover?_eq_some_iff hcwd).mp hfound
      exact absurd hk (hnone k)

/-- From a directory that is not there, past a mark that is a file, to a configuration file beside a
mark that is a directory. -/
theorem discover_finds_nearest_past_file :
    let w : World := ⟨.dir [(bytes "p", .dir [(repositoryMark, .file [])]),
      (repositoryMark, .dir []), (fileName, .file [])], [bytes "p"]⟩
    let start := bytes "q/../r"
    Path.IsClean w.cwd ∧ IsNearest w start 2 ∧
      discover? w start = some (bytes "/.ahklint.yml") := by
  intro w start
  have hcwd : Path.IsClean w.cwd := by unfold Path.IsClean; decide
  have hfound : w.exists? (Path.join (ancestor w start 2) fileName) = true := by decide
  have hbelow : ∀ j < 2, w.exists? (Path.join (ancestor w start j) fileName) = false ∧
      w.isDirectory (Path.join (ancestor w start j) repositoryMark) = false := by decide
  have hnearest : IsNearest w start 2 := by
    refine ⟨World.exists?_iff.mp hfound, fun j hj t ht => ?_, fun j hj es hes => ?_⟩
    · exact absurd (World.exists?_iff.mpr ⟨t, ht⟩) (by rw [(hbelow j hj).1]; decide)
    · exact absurd (World.isDirectory_iff.mpr ⟨es, hes⟩) (by rw [(hbelow j hj).2]; decide)
  have hpath : Path.join (ancestor w start 2) fileName = bytes "/.ahklint.yml" := by decide
  rw [← hpath]
  exact ⟨hcwd, hnearest, (discover_finds_nearest hcwd start).2.1 2 hnearest⟩

end Config

end ScriptLint
