import ScriptLint.Proofs.Except
import ScriptLint.Proofs.FileTree
import ScriptLint.Proofs.Path.Display
import Mathlib.Data.List.Sort

/-!
# Which scripts are found, and in what order

A search finds exactly the files below its directory that an include pattern matches and that no
ignore pattern shuts out, neither by themselves nor by a directory above them
(`Search.mem_results_iff`). Every file is found once, and the files stand in the strict order of
their shown paths (`Search.results_pairwise`), so that the result depends on nothing but which files
there are (`Search.results_congr`).
-/

namespace ScriptLint.Discovery

namespace Search

variable (s : Search)

/-! ### The walk -/

/-- Whether the way down from a place is open: nothing on it is left out. -/
def IsOpen (rel names : List Bytes) : Prop :=
  ∀ part, part ≠ [] → part <+: names → s.isIgnored (rel ++ part) = false

theorem isOpen_nil (rel : List Bytes) : s.IsOpen rel [] :=
  fun _ hne hpart => absurd (List.prefix_nil.mp hpart) hne

/-- The way down is open if its first step is and the rest is. -/
theorem isOpen_cons_iff (rel : List Bytes) (n : Bytes) (ns : List Bytes) :
    s.IsOpen rel (n :: ns) ↔ s.isIgnored (rel ++ [n]) = false ∧ s.IsOpen (rel ++ [n]) ns := by
  constructor
  · intro h
    refine ⟨h [n] (List.cons_ne_nil n []) (by simp), fun part _ hpart => ?_⟩
    have := h (n :: part) (List.cons_ne_nil n part) (by simpa using hpart)
    rwa [← List.singleton_append, ← List.append_assoc] at this
  · rintro ⟨hfirst, hrest⟩ part hne hpart
    obtain ⟨p, ps, rfl⟩ := List.exists_cons_of_ne_nil hne
    obtain ⟨rfl, hps⟩ := List.cons_prefix_cons.mp hpart
    by_cases hnil : ps = []
    · rw [hnil]
      exact hfirst
    · have := hrest ps hnil hps
      rwa [List.append_assoc, List.singleton_append] at this

theorem walkEntries_eq_flatMap (rel : List Bytes) (es : Entries FileTree) :
    s.walkEntries rel es = es.flatMap fun e =>
      if s.isIgnored (rel ++ [e.1]) then [] else s.walk (rel ++ [e.1]) e.2 := by
  induction es with
  | nil => rw [walkEntries, List.flatMap_nil]
  | cons e es ih =>
    obtain ⟨name, t⟩ := e
    rw [walkEntries, ih, List.flatMap_cons]

/-- **The walk finds the included files to which the way down is open.** A directory that is left
out takes with it everything below it, and nothing else. -/
theorem mem_walk_iff {t : FileTree} (ht : t.IsProper) (rel found : List Bytes) :
    found ∈ s.walk rel t ↔ ∃ names, found = rel ++ names ∧ t.HasFile names ∧
      s.includes (below found) = true ∧ s.IsOpen rel names := by
  -- The name of an entry is the first one on the way to what is found below it, so that the entries
  -- of a directory are told apart by it.
  induction ht generalizing rel with
  | file content =>
    rw [walk]
    constructor
    · intro h
      split_ifs at h with hinc
      · rw [List.mem_singleton] at h
        subst h
        exact ⟨[], (List.append_nil _).symm, ⟨content, rfl⟩, hinc, s.isOpen_nil _⟩
      · exact absurd h List.not_mem_nil
    · rintro ⟨names, rfl, ⟨c, hc⟩, hinc, -⟩
      cases names with
      | nil =>
        rw [List.append_nil] at hinc ⊢
        rw [if_pos hinc]
        exact List.mem_singleton_self _
      | cons n ns => simp [FileTree.at?] at hc
  | dir es distinct names below ih =>
    rw [walk, walkEntries_eq_flatMap, List.mem_flatMap]
    constructor
    · rintro ⟨e, he, hfound⟩
      split_ifs at hfound with hign
      · exact absurd hfound List.not_mem_nil
      · obtain ⟨ns, rfl, ⟨c, hc⟩, hinc, hopen⟩ := (ih e he _).mp hfound
        refine ⟨e.1 :: ns, by simp, ⟨c, ?_⟩, hinc, ?_⟩
        · rw [FileTree.at?, (FileTree.child?_dir_eq_some_iff distinct).mpr he, Option.bind_some, hc]
        · rw [isOpen_cons_iff]
          exact ⟨by simpa using hign, hopen⟩
    · rintro ⟨ns, rfl, ⟨c, hc⟩, hinc, hopen⟩
      cases ns with
      | nil => simp [FileTree.at?] at hc
      | cons n ns =>
        obtain ⟨u, hu, hc⟩ := Option.bind_eq_some_iff.mp hc
        rw [FileTree.child?_dir_eq_some_iff distinct] at hu
        rw [isOpen_cons_iff] at hopen
        refine ⟨(n, u), hu, ?_⟩
        rw [if_neg (by simp [hopen.1])]
        refine (ih (n, u) hu _).mpr ⟨ns, by simp, ⟨c, hc⟩, ?_, hopen.2⟩
        exact hinc

/-- The walk meets no file twice. -/
theorem nodup_walk {t : FileTree} (ht : t.IsProper) (rel : List Bytes) : (s.walk rel t).Nodup := by
  induction ht generalizing rel with
  | file content =>
    rw [walk]
    split_ifs
    · exact List.nodup_singleton _
    · exact List.nodup_nil
  | dir es distinct names below ih =>
    rw [walk, walkEntries_eq_flatMap, List.nodup_flatMap]
    constructor
    · intro e he
      split_ifs
      · exact List.nodup_nil
      · exact ih e he _
    · -- What is found below one entry starts with its name, so two entries share nothing.
      refine (List.pairwise_map.mp distinct).imp_of_mem ?_
      intro a b ha hb hab found hfa hfb
      dsimp only at hfa hfb
      split_ifs at hfa hfb
      · exact List.not_mem_nil hfa
      · exact List.not_mem_nil hfa
      · exact List.not_mem_nil hfb
      · obtain ⟨xs, hxs, -⟩ := (s.mem_walk_iff (below a ha) _ _).mp hfa
        obtain ⟨ys, hys, -⟩ := (s.mem_walk_iff (below b hb) _ _).mp hfb
        rw [hxs, List.append_assoc, List.append_assoc] at hys
        exact hab (List.cons.inj (List.append_cancel_left hys)).1

/-! ### The results -/

/-- The components of a shown path as lists of numbers, by which results are ordered. -/
def key (rel : List Bytes) : List (List ℕ) :=
  Path.componentsKey (splitBytes Path.slash (s.display rel))

theorem before_iff (a b : List Bytes) : s.before a b = true ↔ s.key a < s.key b :=
  Path.componentsLt_iff _ _

/-- Shown paths tell files apart. -/
theorem key_injective (hbase : Path.IsClean s.base) {a b : List Bytes} (ha : Path.IsClean a)
    (hb : Path.IsClean b) (h : s.key a = s.key b) : a = b := by
  have hsame := Path.splitBytes_relative_injective (hbase.append ha) (hbase.append hb)
    (Path.componentsKey_injective h)
  exact List.append_cancel_left hsame

variable {s} {t : FileTree}

/-- **A search finds the included files below its directory to which the way down is open.** -/
theorem mem_results_iff (ht : t.IsProper) (found : List Bytes) :
    found ∈ s.results t ↔ found ≠ [] ∧ t.HasFile found ∧ s.includes (below found) = true ∧
      s.IsOpen [] found := by
  rw [results, (List.mergeSort_perm _ _).mem_iff]
  cases ht with
  | file content =>
    constructor
    · intro h
      simp [FileTree.sorted, FileTree.entries, walkEntries] at h
    · rintro ⟨hne, ⟨c, hc⟩, -⟩
      obtain ⟨n, ns, rfl⟩ := List.exists_cons_of_ne_nil hne
      simp [FileTree.at?] at hc
  | dir es distinct names below =>
    have ht : (FileTree.dir es).IsProper := .dir es distinct names below
    have hwalk := s.mem_walk_iff ht.sorted [] found
    simp only [List.nil_append, exists_eq_left', FileTree.hasFile_sorted ht] at hwalk
    rw [FileTree.sorted, walk] at hwalk
    rw [FileTree.sorted]
    refine hwalk.trans ⟨fun h => ⟨?_, h⟩, fun h => h.2⟩
    rintro rfl
    obtain ⟨c, hc⟩ := h.1
    simp [FileTree.at?] at hc

theorem nodup_results (ht : t.IsProper) : (s.results t).Nodup := by
  rw [results, (List.mergeSort_perm _ _).nodup_iff]
  cases ht with
  | file content => simp [FileTree.sorted, FileTree.entries, walkEntries]
  | dir es distinct names below =>
    have hwalk := s.nodup_walk (FileTree.IsProper.dir es distinct names below).sorted []
    rw [FileTree.sorted, walk] at hwalk
    rw [FileTree.sorted]
    exact hwalk

theorem isClean_of_mem_results (ht : t.IsProper) {found : List Bytes} (h : found ∈ s.results t) :
    Path.IsClean found := by
  obtain ⟨-, ⟨c, hc⟩, -⟩ := (mem_results_iff ht found).mp h
  exact ht.isClean_of_at? hc

/-- **The results are strictly increasing in the order of their shown paths.** -/
theorem results_pairwise (hbase : Path.IsClean s.base) (ht : t.IsProper) :
    (s.results t).Pairwise fun a b => s.before a b = true := by
  have hle : (s.results t).Pairwise fun a b => s.key a ≤ s.key b :=
    pairwise_mergeSort_of_key s.before_iff _
  -- Distinct files have distinct keys, so none of the inequalities is an equality.
  refine (hle.and (nodup_results ht)).imp_of_mem ?_
  rintro a b ha hb ⟨hab, hne⟩
  rw [before_iff]
  refine lt_of_le_of_ne hab fun h => hne ?_
  exact s.key_injective hbase (isClean_of_mem_results ht ha) (isClean_of_mem_results ht hb) h

/-- Results that list the same files list them in the same order. -/
theorem results_ext {t' : FileTree} (hbase : Path.IsClean s.base) (ht : t.IsProper)
    (ht' : t'.IsProper) (h : ∀ found, found ∈ s.results t' ↔ found ∈ s.results t) :
    s.results t' = s.results t := by
  have hperm : (s.results t').Perm (s.results t) :=
    (List.perm_ext_iff_of_nodup (nodup_results ht') (nodup_results ht)).mpr h
  refine hperm.eq_of_pairwise ?_ (results_pairwise hbase ht') (results_pairwise hbase ht)
  intro a b _ _ hab hba
  rw [before_iff] at hab hba
  exact absurd hba (lt_asymm hab)

/-- **The results depend on nothing but which files there are**, in particular not on the order in
which directories list their entries. -/
theorem results_congr {t' : FileTree} (hbase : Path.IsClean s.base) (ht : t.IsProper)
    (ht' : t'.IsProper) (h : ∀ names, names ≠ [] → (t'.HasFile names ↔ t.HasFile names)) :
    s.results t' = s.results t := by
  refine results_ext hbase ht ht' fun found => ?_
  rw [mem_results_iff ht', mem_results_iff ht]
  exact and_congr_right fun hne => and_congr_left fun _ => h found hne

/-! ### Contents -/

mutual

theorem walk_blank (s : Search) : ∀ (rel : List Bytes) (t : FileTree),
    s.walk rel t.blank = s.walk rel t
  | _, .file _ => by rw [FileTree.blank, walk, walk]
  | rel, .dir es => by rw [FileTree.blank, walk, walk, walkEntries_blankEntries s rel es]

theorem walkEntries_blankEntries (s : Search) : ∀ (rel : List Bytes) (es : List (Bytes × FileTree)),
    s.walkEntries rel (FileTree.blank.blankEntries es) = s.walkEntries rel es
  | _, [] => rfl
  | rel, (name, t) :: es => by
    rw [FileTree.blank.blankEntries, walkEntries, walkEntries, walk_blank s _ t,
      walkEntries_blankEntries s rel es]

end

theorem results_blank (s : Search) (t : FileTree) : s.results t.blank = s.results t := by
  rw [results, results, FileTree.sorted_blank]
  cases t.sorted with
  | file content => rfl
  | dir es =>
    rw [FileTree.blank, FileTree.entries, FileTree.entries, walkEntries_blankEntries]

end Search

/-! ### From patterns to a search -/

/-- The directory that is searched, as components. -/
def baseOf (w : World) (base : Bytes) : List Bytes :=
  Path.locate w.cwd (if base = [] then Path.here else base)

/-- The root that paths are shown from, as components. -/
def rootOf (w : World) (base root : Bytes) : List Bytes :=
  if root = [] then baseOf w base else Path.locate w.cwd root

/-- The search that usable patterns ask for. -/
def searchOf (w : World) (base root : Bytes) (patterns ignored : List Bytes) : Search where
  base := baseOf w base
  root := rootOf w base root
  includes rel := patterns.any fun p => Include.accepts p rel
  ignores path := ignored.any (Config.matchesPattern path)

/-- Patterns that compile give matchers that accept what the patterns match. -/
theorem compileIgnored_eq_ok {ignored : List Bytes}
    (h : ∀ p ∈ ignored, ∃ m, Glob.compile p = .ok m) :
    ∃ ms, compileIgnored ignored = .ok ms ∧
      ∀ path, ms.any (fun m => Glob.accepts m path) = ignored.any (Config.matchesPattern path) := by
  induction ignored with
  | nil => exact ⟨[], rfl, fun _ => rfl⟩
  | cons p ps ih =>
    obtain ⟨m, hm⟩ := h p (List.mem_cons_self ..)
    obtain ⟨ms, hms, hsame⟩ := ih fun q hq => h q (List.mem_cons_of_mem _ hq)
    refine ⟨m :: ms, ?_, fun path => ?_⟩
    · rw [compileIgnored] at hms ⊢
      rw [List.mapM_cons, hms, hm]
      rfl
    · rw [List.any_cons, List.any_cons, hsame, Config.matchesPattern, hm]

theorem forM_isValid {patterns : List Bytes} (h : ∀ p ∈ patterns, Include.isValid p = true) :
    (patterns.forM fun p =>
      if Include.isValid p then (.ok () : Except Error Unit) else .error (.badInclude p))
      = .ok () := by
  rw [forM_eq_ok_iff]
  intro p hp
  rw [if_pos (h p hp)]

/-- With usable patterns and a directory that exists, the scripts are the results of the search. -/
theorem discover_eq_results {w : World} {base root : Bytes} {patterns : Option (List Bytes)}
    {ignored : List Bytes} {t : FileTree}
    (hbase : w.lookup (Path.render (baseOf w base)) = .ok t)
    (hpatterns : ∀ p ∈ patterns.getD Config.defaultPatterns, Include.isValid p = true)
    (hignored : ∀ p ∈ ignored, ∃ m, Glob.compile p = .ok m) :
    discover w base root patterns ignored
      = .ok (((searchOf w base root (patterns.getD Config.defaultPatterns) ignored).results t).map
          fun rel => Path.render (baseOf w base ++ rel)) := by
  obtain ⟨ms, hms, hsame⟩ := compileIgnored_eq_ok hignored
  simp only [baseOf] at hbase
  simp only [discover, forM_isValid hpatterns, hms, bind, Except.bind, hsame, hbase]
  rfl

/-- Ignore patterns that give matchers compile. -/
theorem compile_of_compileIgnored {ignored : List Bytes} {ms : List Glob.Matcher}
    (h : compileIgnored ignored = .ok ms) : ∀ p ∈ ignored, ∃ m, Glob.compile p = .ok m := by
  unfold compileIgnored at h
  induction ignored generalizing ms with
  | nil => exact List.forall_mem_nil _
  | cons p ps ih =>
    rw [List.mapM_cons, bind_eq_ok_iff] at h
    obtain ⟨m, hm, h⟩ := h
    obtain ⟨rest, hrest, -⟩ := bind_eq_ok_iff.mp h
    refine List.forall_mem_cons.mpr ⟨?_, ih hrest⟩
    split at hm
    · next m' hcompile => exact ⟨m', hcompile⟩
    · exact absurd hm (by simp)

/-- Scripts are found with usable patterns only. -/
theorem usable_of_discover {w : World} {base root : Bytes} {patterns : Option (List Bytes)}
    {ignored paths : List Bytes} (h : discover w base root patterns ignored = .ok paths) :
    (∀ p ∈ patterns.getD Config.defaultPatterns, Include.isValid p = true) ∧
      ∀ p ∈ ignored, ∃ m, Glob.compile p = .ok m := by
  unfold discover at h
  obtain ⟨⟨⟩, hvalid, h⟩ := bind_eq_ok_iff.mp h
  obtain ⟨ms, hms, -⟩ := bind_eq_ok_iff.mp h
  refine ⟨fun p hp => ?_, compile_of_compileIgnored hms⟩
  have hp := forM_eq_ok_iff.mp hvalid p hp
  by_contra hbad
  simp [hbad] at hp

/-- Scripts that are found are the results of the search, in a directory that exists. -/
theorem discover_eq_ok {w : World} {base root : Bytes} {patterns : Option (List Bytes)}
    {ignored paths : List Bytes} (h : discover w base root patterns ignored = .ok paths) :
    ∃ t, w.lookup (Path.render (baseOf w base)) = .ok t ∧
      paths = ((searchOf w base root (patterns.getD Config.defaultPatterns) ignored).results t).map
        fun rel => Path.render (baseOf w base ++ rel) := by
  obtain ⟨hpatterns, hignored⟩ := usable_of_discover h
  cases hlookup : w.lookup (Path.render (baseOf w base)) with
  | error cause =>
    unfold discover at h
    obtain ⟨⟨⟩, -, h⟩ := bind_eq_ok_iff.mp h
    obtain ⟨ms, -, h⟩ := bind_eq_ok_iff.mp h
    rw [baseOf] at hlookup
    simp [hlookup] at h
  | ok t =>
    rw [discover_eq_results hlookup hpatterns hignored] at h
    exact ⟨t, rfl, (Except.ok.inj h).symm⟩

/-- **The path that a found script is shown under is the one it is ignored and ordered by.** The two
are made independently: one from the components of the directory and of what is below it, the other
from the absolute path of the script and the root as it was given. -/
theorem display_of_mem_results {w : World} (hw : w.IsProper) {base root : Bytes} (hroot : root ≠ [])
    {patterns ignored : List Bytes} {t : FileTree} (ht : t.IsProper) {rel : List Bytes}
    (hrel : rel ∈ (searchOf w base root patterns ignored).results t) :
    Path.display w.cwd root (Path.absolute w.cwd (Path.render (baseOf w base ++ rel)))
      = (searchOf w base root patterns ignored).display rel := by
  have hclean : Path.IsClean (baseOf w base ++ rel) :=
    (Path.locate_isClean hw.cwd _).append (Search.isClean_of_mem_results ht hrel)
  rw [Path.display_eq hw.cwd hroot, Path.absolute, Path.locate_render hclean,
    Path.locate_render hclean, Search.display, searchOf, rootOf, if_neg hroot]

/-! ### The scripts of a project -/

/-- Whether an ignore pattern matches one of the three names of something below a directory: its
path from the root, its path from the directory, or the last component of these. -/
def IsMatched (dir root ignored rel : List Bytes) : Prop :=
  ∃ q ∈ ignored, Config.matchesPattern (Path.relative root (dir ++ rel)) q = true ∨
    Config.matchesPattern (joinBytes [Path.slash] rel) q = true ∨
    Config.matchesPattern (rel.getLastD []) q = true

theorem isIgnored_searchOf_eq_false_iff (w : World) (base root : Bytes)
    (patterns ignored rel : List Bytes) :
    (searchOf w base root patterns ignored).isIgnored rel = false ↔
      ¬ IsMatched (baseOf w base) (rootOf w base root) ignored rel := by
  rw [← Bool.not_eq_true, not_iff_not]
  simp only [Search.isIgnored, Search.display, Search.below, searchOf, Bool.or_eq_true,
    List.any_eq_true, IsMatched]
  constructor
  · rintro ((⟨q, hq, h⟩ | ⟨q, hq, h⟩) | ⟨q, hq, h⟩)
    · exact ⟨q, hq, .inl h⟩
    · exact ⟨q, hq, .inr (.inl h)⟩
    · exact ⟨q, hq, .inr (.inr h)⟩
  · rintro ⟨q, hq, h | h | h⟩
    · exact .inl (.inl ⟨q, hq, h⟩)
    · exact .inl (.inr ⟨q, hq, h⟩)
    · exact .inr ⟨q, hq, h⟩

/-- **The scripts are exactly the right files in exactly one order.** In a directory that exists,
with patterns that can be used, the scripts are the files below the directory that an include
pattern matches and that no ignore pattern matches, neither them nor a directory between. Each is
found once, and they stand strictly in the order of their paths from the root; so another tree with
the same files gives the same scripts, however its directories list their entries. -/
theorem discover_finds_exactly {w : World} (hw : w.IsProper) (base root : Bytes)
    (patterns : Option (List Bytes)) (ignored : List Bytes) {t : FileTree}
    (hbase : w.lookup (Path.render (baseOf w base)) = .ok t)
    (hpatterns : ∀ p ∈ patterns.getD Config.defaultPatterns, Include.isValid p = true)
    (hignored : ∀ p ∈ ignored, ∃ m, Glob.compile p = .ok m) :
    ∃ paths, discover w base root patterns ignored = .ok paths ∧ paths.Nodup ∧
      (∀ path, path ∈ paths ↔ ∃ rel, path = Path.render (baseOf w base ++ rel) ∧ rel ≠ [] ∧
        t.HasFile rel ∧
        (∃ q ∈ patterns.getD Config.defaultPatterns,
          Include.accepts q (joinBytes [Path.slash] rel) = true) ∧
        ∀ part, part ≠ [] → part <+: rel →
          ¬ IsMatched (baseOf w base) (rootOf w base root) ignored part) ∧
      paths.Pairwise (fun a b => Path.componentsLt
        (splitBytes Path.slash (Path.relative (rootOf w base root) (Path.locate w.cwd a)))
        (splitBytes Path.slash (Path.relative (rootOf w base root) (Path.locate w.cwd b)))
          = true) ∧
      ∀ (w' : World) (t' : FileTree), w'.IsProper → w'.cwd = w.cwd →
        w'.lookup (Path.render (baseOf w' base)) = .ok t' →
        (∀ names, names ≠ [] → (t'.HasFile names ↔ t.HasFile names)) →
        discover w' base root patterns ignored = .ok paths := by
  have ht : t.IsProper := FileTree.isProper_of_lookup hw hbase
  have hdir : Path.IsClean (baseOf w base) := Path.locate_isClean hw.cwd _
  set s := searchOf w base root (patterns.getD Config.defaultPatterns) ignored with hs
  -- A path that was found leads back to the components it was made of.
  have hback : ∀ rel ∈ s.results t,
      Path.locate w.cwd (Path.render (baseOf w base ++ rel)) = baseOf w base ++ rel :=
    fun rel hrel => Path.locate_render (hdir.append (Search.isClean_of_mem_results ht hrel)) _
  refine ⟨_, discover_eq_results hbase hpatterns hignored, ?_, ?_, ?_, ?_⟩
  · refine (Search.nodup_results ht).map_on ?_
    intro a ha b hb hab
    have hsame := (hback a ha).symm.trans ((congrArg _ hab).trans (hback b hb))
    exact List.append_cancel_left hsame
  · intro path
    rw [List.mem_map]
    constructor
    · rintro ⟨rel, hrel, rfl⟩
      obtain ⟨hne, hfile, hinc, hopen⟩ := (Search.mem_results_iff ht rel).mp hrel
      refine ⟨rel, rfl, hne, hfile, List.any_eq_true.mp hinc, fun part hpart hle => ?_⟩
      exact (isIgnored_searchOf_eq_false_iff ..).mp (hopen part hpart hle)
    · rintro ⟨rel, rfl, hne, hfile, hinc, hopen⟩
      refine ⟨rel, (Search.mem_results_iff ht rel).mpr ⟨hne, hfile, ?_, ?_⟩, rfl⟩
      · exact List.any_eq_true.mpr hinc
      · intro part hpart hle
        exact (isIgnored_searchOf_eq_false_iff ..).mpr (hopen part hpart hle)
  · rw [List.pairwise_map]
    refine (Search.results_pairwise hdir ht).imp_of_mem ?_
    intro a b ha hb hab
    rw [hback a ha, hback b hb]
    exact hab
  · intro w' t' hw' hcwd hbase' hfiles
    rw [discover_eq_results hbase' hpatterns hignored]
    have hsame : baseOf w' base = baseOf w base := by rw [baseOf, baseOf, hcwd]
    have hsearch : searchOf w' base root (patterns.getD Config.defaultPatterns) ignored = s := by
      rw [hs, searchOf, searchOf, rootOf, rootOf, hsame, hcwd]
    rw [hsearch, hsame]
    rw [Search.results_congr hdir ht (FileTree.isProper_of_lookup hw' hbase') hfiles]

/-- A script beside a directory that is left out with the script in it. -/
theorem discover_finds_exactly_beside_ignored :
    let name := bytes "x.ahk"
    let w : World := ⟨.dir [([0x62], .dir [(name, .file [])]), (name, .file [])], []⟩
    ∃ paths, discover w [] [] none [[0x62]] = .ok paths ∧ paths.Nodup ∧
      ∀ path ∈ paths, ∃ rel, path = Path.render rel ∧ ¬ [[0x62]] <+: rel := by
  intro name w
  have hname : Path.IsName name := by decide
  have hw : w.IsProper := by
    refine ⟨.dir _ (by decide) ?_ ?_, List.forall_mem_nil _⟩
    · simpa using ⟨by decide, hname⟩
    · simpa using ⟨.dir _ (by decide) (by simpa using hname) (by simpa using .file []),
        .file []⟩
  obtain ⟨paths, hpaths, hnodup, hmem, -⟩ := discover_finds_exactly hw [] [] none [[0x62]] rfl
    (by decide) (by simpa using ⟨_, rfl⟩)
  refine ⟨paths, hpaths, hnodup, fun path hpath => ?_⟩
  obtain ⟨rel, rfl, -, -, -, hopen⟩ := (hmem path).mp hpath
  refine ⟨rel, rfl, fun hle => hopen [[0x62]] (by decide) hle ?_⟩
  exact ⟨[0x62], List.mem_singleton_self _, .inl (by decide)⟩

/-! ### What is not read -/

/-- **Finding scripts reads no file**: it goes the same way when every file is empty. -/
theorem discover_blank (w : World) (base root : Bytes) (patterns : Option (List Bytes))
    (ignored : List Bytes) :
    discover w.blank base root patterns ignored = discover w base root patterns ignored := by
  unfold discover
  simp only [World.lookup_blank, World.cwd_blank]
  refine congrArg _ (funext fun _ => congrArg _ (funext fun matchers => ?_))
  cases w.lookup (Path.render (Path.locate w.cwd (if base = [] then Path.here else base))) with
  | error cause => rfl
  | ok t => simp only [Except.map, Search.results_blank]

end ScriptLint.Discovery
