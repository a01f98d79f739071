import ScriptLint.Discovery.Walk
import ScriptLint.Proofs.Discovery
import ScriptLint.Proofs.Run.Order
import Mathlib.Data.List.Pairwise

/-!
# The order of a walk

A visitor that is given the path of a node works out from it the names that the search knows the
node by (`Search.run_visit`), so a walk collects the files that the search finds, in the order in
which it finds them (`Search.collect_eq`). When paths are shown from the directory or from one above
it, this order is the order of the results already: what is below two entries of a directory differs
first at their names, and the entries stand in the order of these (`Search.pairwise_walk`). So the
order at the end has nothing to do, and what paths are shown from does not matter to it
(`walk_is_in_order`).
-/

namespace ScriptLint

/-! ### Ways down -/

namespace Path

theorem afterShared_append (shared as bs : List Bytes) :
    afterShared (shared ++ as) (shared ++ bs) = afterShared as bs := by
  induction shared with
  | nil => rfl
  | cons c shared ih => rw [List.cons_append, List.cons_append, afterShared, if_pos rfl, ih]

/-- The way from a place to what is below it leads down only. -/
theorem between_append (base rel : List Bytes) : between base (base ++ rel) = rel := by
  have hshared : afterShared base (base ++ rel) = ([], rel) := by
    conv_lhs => rw [← List.append_nil base, List.append_assoc, afterShared_append]
    cases rel <;> rfl
  rw [between, hshared]
  rfl

theorem relative_append (base : List Bytes) {rel : List Bytes} (hne : rel ≠ []) :
    relative base (base ++ rel) = joinBytes [slash] rel := by
  obtain ⟨c, cs, rfl⟩ := List.exists_cons_of_ne_nil hne
  rw [relative, between_append]

theorem relative_self (base : List Bytes) : relative base base = here := by
  have h := between_append base []
  rw [List.append_nil] at h
  rw [relative, h]

/-- Names that follow the same ones are ordered by the first in which they differ. -/
theorem componentsKey_append_lt (front : List Bytes) {a b : List Bytes}
    (h : componentsKey a < componentsKey b) :
    componentsKey (front ++ a) < componentsKey (front ++ b) := by
  unfold componentsKey at h ⊢
  rw [List.map_append, List.map_append]
  exact List.append_left_lt h

end Path

/-- The entries of a directory in order have increasing names. -/
theorem Entries.pairwise_sorted {α : Type} {es : Entries α} (distinct : es.IsDistinct) :
    es.sorted.Pairwise fun a b => byteKey a.1 < byteKey b.1 := by
  have hle : es.sorted.Pairwise fun a b => byteKey a.1 ≤ byteKey b.1 :=
    pairwise_mergeSort_of_key (fun a b => bytesLt_iff a.1 b.1) es
  have hdistinct : (es.sorted.map (·.1)).Nodup := distinct.perm (List.mergeSort_perm _ _).symm
  refine (hle.and (List.pairwise_map.mp hdistinct)).imp ?_
  rintro a b ⟨hab, hne⟩
  exact lt_of_le_of_ne hab fun h => hne (byteKey_injective h)

namespace Discovery

namespace Search

variable {s : Search}

/-! ### Visits -/

/-- A script that is found, from its components below the directory. -/
def foundAt (s : Search) (rel : List Bytes) : Found :=
  ⟨Path.render (s.base ++ rel), s.display rel⟩

/-- Collects a file that has not been seen. -/
def keep (s : Search) (c : Collected) (rel : List Bytes) : Collected :=
  if c.seen.contains (Path.render (s.base ++ rel)) then c
  else { seen := Path.render (s.base ++ rel) :: c.seen, found := c.found ++ [s.foundAt rel] }

theorem lastName_below {rel : List Bytes} (hrel : Path.IsClean rel) (hne : rel ≠ []) :
    lastName (below rel) = rel.getLastD [] := by
  rw [lastName, below, splitBytes_joinBytes hne fun c hc => (hrel c hc).no_slash]

theorem below_ne_here {rel : List Bytes} (hrel : Path.IsClean rel) (hne : rel ≠ []) :
    below rel ≠ Path.here := by
  intro h
  have hsplit : splitBytes Path.slash (below rel) = rel :=
    splitBytes_joinBytes hne fun c hc => (hrel c hc).no_slash
  have hsingle : splitBytes Path.slash Path.here = [Path.here] := by decide
  rw [h, hsingle] at hsplit
  exact (hrel Path.here (hsplit ▸ List.mem_singleton_self _)).ne_here rfl

/-- The node that stands for the directory is passed. -/
theorem run_visit_base (hbase : Path.IsClean s.base) (isDir : Bool) (c : Collected) :
    (s.visit (Path.render s.base) isDir).run c = (.proceed, c) := by
  unfold visit
  rw [Path.relative?_render hbase hbase, Path.relative_self]
  rfl

/-- **A visitor knows a node by its names**: what it does depends on whether the node is left out,
and whether it is a directory or an included file. -/
theorem run_visit (hbase : Path.IsClean s.base) (hroot : Path.IsClean s.root) {rel : List Bytes}
    (hrel : Path.IsClean rel) (hne : rel ≠ []) (isDir : Bool) (c : Collected) :
    (s.visit (Path.render (s.base ++ rel)) isDir).run c =
      if s.isIgnored rel then (if isDir then .shut else .proceed, c)
      else (.proceed, if !isDir && s.includes (below rel) then s.keep c rel else c) := by
  have hclean : Path.IsClean (s.base ++ rel) := hbase.append hrel
  have hbelow : Path.relative s.base (s.base ++ rel) = below rel := Path.relative_append _ hne
  have hout : s.leavesOut (below rel) (Path.relative s.root (s.base ++ rel)) = s.isIgnored rel := by
    rw [leavesOut, isIgnored, lastName_below hrel hne]
    rfl
  unfold visit
  rw [Path.relative?_render hbase hclean, hbelow, Path.relative?_render hroot hclean]
  dsimp only [Option.getD_some]
  rw [if_neg (below_ne_here hrel hne), hout]
  by_cases hignored : s.isIgnored rel = true
  · rw [if_pos hignored, if_pos hignored]
    rfl
  rw [if_neg hignored, if_neg hignored]
  -- Only a file is kept, if it is included, and once.
  cases isDir with
  | true => rfl
  | false =>
    simp only [Bool.false_eq_true, if_false, StateT.run_bind, StateT.run_get, pure_bind, keep]
    cases s.includes (below rel) with
    | false => rfl
    | true =>
      by_cases hseen : c.seen.contains (Path.render (s.base ++ rel)) = true
      · rw [if_neg (by rw [hseen]; decide), if_pos hseen]
        rfl
      · rw [if_pos (by simpa using hseen), if_neg hseen]
        rfl

/-! ### Collecting on a walk -/

/-- Entries are walked one after the other, as long as none of them ends the walk. -/
theorem run_walkNodes (hbase : Path.IsClean s.base) {rel : List Bytes} (hrel : Path.IsClean rel)
    {es : List (Bytes × FileTree)} (names : ∀ e ∈ es, Path.IsName e.1)
    (below : ∀ e ∈ es, ∀ c, (walkNode s.visit (Path.render (s.base ++ (rel ++ [e.1]))) e.2).run c =
      (.proceed,
        (if s.isIgnored (rel ++ [e.1]) then [] else s.walk (rel ++ [e.1]) e.2).foldl s.keep c))
    (c : Collected) :
    (walkNodes s.visit (Path.render (s.base ++ rel)) es).run c =
      ((), (s.walkEntries rel es).foldl s.keep c) := by
  induction es generalizing c with
  | nil => rfl
  | cons e es ih =>
    obtain ⟨name, t⟩ := e
    rw [List.forall_mem_cons] at names below
    have hjoin : Path.join (Path.render (s.base ++ rel)) name
        = Path.render (s.base ++ (rel ++ [name])) := by
      rw [Path.join_render (hbase.append hrel) names.1, List.append_assoc]
    rw [walkNodes, hjoin, StateT.run_bind, below.1 c, walkEntries, List.foldl_append]
    exact ih names.2 below.2 _

section Walk

variable (hbase : Path.IsClean s.base) (hroot : Path.IsClean s.root)

include hbase hroot

/-- **A walk below a node collects what the search finds there**, one file after the other. -/
theorem run_walkNode {t : FileTree} (ht : t.IsProper) {rel : List Bytes} (hrel : Path.IsClean rel)
    (hne : rel ≠ []) (c : Collected) :
    (walkNode s.visit (Path.render (s.base ++ rel)) t).run c =
      (.proceed, (if s.isIgnored rel then [] else s.walk rel t).foldl s.keep c) := by
  induction ht generalizing rel c with
  | file content =>
    rw [walkNode, run_visit hbase hroot hrel hne, walk]
    cases s.isIgnored rel with
    | true => rfl
    | false => cases s.includes (Search.below rel) <;> rfl
  | dir es distinct names below ih =>
    rw [walkNode, StateT.run_bind, run_visit hbase hroot hrel hne, walk]
    cases s.isIgnored rel with
    | true => rfl
    | false =>
      have hentries := run_walkNodes hbase hrel names (fun e he c =>
        ih e he (hrel.concat (names e he)) (List.append_ne_nil_of_right_ne_nil rel (by simp)) c) c
      have hthen : (walkNodes s.visit (Path.render (s.base ++ rel)) es >>= fun _ =>
          pure Visited.proceed).run c = (.proceed, (s.walkEntries rel es).foldl s.keep c) := by
        rw [StateT.run_bind, hentries]
        rfl
      exact hthen

/-- A walk from the directory collects what the search finds in its entries. -/
theorem run_walkNode_base {t : FileTree} (ht : t.IsProper) :
    ((walkNode s.visit (Path.render s.base) t).run {}).2
      = (s.walkEntries [] t.entries).foldl s.keep {} := by
  cases ht with
  | file content =>
    rw [walkNode, run_visit_base hbase]
    rfl
  | dir es distinct names below =>
    have hnil : Path.IsClean [] := List.forall_mem_nil _
    have hnames := run_walkNodes hbase hnil names (fun e he c =>
      run_walkNode hbase hroot (below e he) (List.forall_mem_singleton.mpr (names e he))
        (List.cons_ne_nil e.1 []) c) {}
    rw [List.append_nil] at hnames
    have hthen : ((walkNodes s.visit (Path.render s.base) es >>= fun _ =>
        pure Visited.proceed).run {}).2 = (s.walkEntries [] es).foldl s.keep {} := by
      rw [StateT.run_bind, hnames]
      rfl
    rw [walkNode, StateT.run_bind, run_visit_base hbase]
    exact hthen

end Walk

/-- Files that are told apart by their paths and have not been seen are all collected. -/
theorem found_foldl_keep {rels : List (List Bytes)} (hnodup : rels.Nodup)
    (hclean : ∀ rel ∈ rels, Path.IsClean (s.base ++ rel)) {c : Collected}
    (hnew : ∀ rel ∈ rels, Path.render (s.base ++ rel) ∉ c.seen) :
    (rels.foldl s.keep c).found = c.found ++ rels.map s.foundAt := by
  induction rels generalizing c with
  | nil => exact (List.append_nil _).symm
  | cons rel rels ih =>
    rw [List.nodup_cons] at hnodup
    rw [List.forall_mem_cons] at hclean hnew
    have hkeep : s.keep c rel =
        { seen := Path.render (s.base ++ rel) :: c.seen, found := c.found ++ [s.foundAt rel] } := by
      rw [keep, if_neg (by simpa using hnew.1)]
    rw [List.foldl_cons, hkeep, ih hnodup.2 hclean.2, List.append_assoc]
    · rfl
    · intro other hother hseen
      rcases List.mem_cons.mp hseen with hsame | hseen
      · -- The components of a path can be read off from it.
        have hback := congrArg (Path.locate []) hsame
        rw [Path.locate_render (hclean.2 other hother), Path.locate_render hclean.1] at hback
        exact hnodup.1 (List.append_cancel_left hback ▸ hother)
      · exact hnew.2 other hother hseen

/-- What a search finds is in its results, up to order. -/
theorem results_perm (s : Search) (t : FileTree) :
    (s.results t).Perm (s.walkEntries [] t.sorted.entries) := List.mergeSort_perm _ _

theorem of_mem_walkEntries {t : FileTree} (ht : t.IsProper) {rel : List Bytes}
    (h : rel ∈ s.walkEntries [] t.sorted.entries) : Path.IsClean rel ∧ rel ≠ [] := by
  have hmem : rel ∈ s.results t := (s.results_perm t).mem_iff.mpr h
  exact ⟨isClean_of_mem_results ht hmem, ((mem_results_iff ht rel).mp hmem).1⟩

/-- **A walk collects the files that the search finds, in the order in which it finds them.** -/
theorem collect_eq (hbase : Path.IsClean s.base) (hroot : Path.IsClean s.root) {t : FileTree}
    (ht : t.IsProper) : s.collect t = (s.walkEntries [] t.sorted.entries).map s.foundAt := by
  have hnodup := (s.results_perm t).nodup_iff.mp (nodup_results ht)
  rw [collect, run_walkNode_base hbase hroot ht.sorted, found_foldl_keep hnodup
    (fun rel hrel => hbase.append (of_mem_walkEntries ht hrel).1) (fun _ _ => List.not_mem_nil)]
  rfl

/-! ### The order of a walk -/

/-- **A walk goes through files in the order of their components.** What is below two entries of a
directory has the same components in front, and then their names. -/
theorem pairwise_walk {t : FileTree} (ht : t.IsProper) (rel : List Bytes) :
    (s.walk rel t.sorted).Pairwise fun a b => Path.componentsKey a < Path.componentsKey b := by
  induction ht generalizing rel with
  | file content =>
    rw [FileTree.sorted, walk]
    split_ifs
    · exact List.pairwise_singleton _ _
    · exact List.Pairwise.nil
  | dir es distinct names below ih =>
    have hdistinct : Entries.IsDistinct (es.map fun e => (e.1, e.2.sorted)) := by
      rw [Entries.IsDistinct, List.map_map]
      exact distinct
    -- The entries in order are the entries, each sorted below.
    have hentry : ∀ e ∈ Entries.sorted (es.map fun e => (e.1, e.2.sorted)),
        ∃ x ∈ es, (x.1, x.2.sorted) = e := fun e he =>
      List.mem_map.mp ((List.mergeSort_perm _ _).mem_iff.mp he)
    rw [FileTree.sorted, FileTree.sortedEntries_eq_map, walk, walkEntries_eq_flatMap,
      List.pairwise_flatMap]
    constructor
    · intro e he
      obtain ⟨x, hx, rfl⟩ := hentry e he
      split_ifs
      · exact List.Pairwise.nil
      · exact ih x hx _
    · refine (Entries.pairwise_sorted hdistinct).imp_of_mem ?_
      intro d e hd he hlt a ha b hb
      obtain ⟨x, hx, rfl⟩ := hentry d hd
      obtain ⟨y, hy, rfl⟩ := hentry e he
      split_ifs at ha hb
      · exact absurd ha List.not_mem_nil
      · exact absurd ha List.not_mem_nil
      · exact absurd hb List.not_mem_nil
      · obtain ⟨as, rfl, -⟩ := (s.mem_walk_iff (below x hx).sorted _ _).mp ha
        obtain ⟨bs, rfl, -⟩ := (s.mem_walk_iff (below y hy).sorted _ _).mp hb
        rw [List.append_assoc, List.append_assoc]
        exact Path.componentsKey_append_lt rel (List.cons_lt_cons_iff.mpr (.inl hlt))

/-- The components of a path that is shown from the directory or from one above it. -/
theorem key_eq_append (hbase : Path.IsClean s.base) {front : List Bytes}
    (hroot : s.root ++ front = s.base) {rel : List Bytes} (hrel : Path.IsClean rel)
    (hne : rel ≠ []) : s.key rel = Path.componentsKey (front ++ rel) := by
  have hway : Path.between s.root (s.base ++ rel) = front ++ rel := by
    rw [← hroot, List.append_assoc, Path.between_append]
  rw [key, display, Path.splitBytes_relative (hbase.append hrel), hway,
    if_neg (List.append_ne_nil_of_right_ne_nil front hne)]

/-- Shown from the directory or from one above it, the files of a walk are in order. -/
theorem pairwise_key_walkEntries (hbase : Path.IsClean s.base) (hroot : s.root <+: s.base)
    {t : FileTree} (ht : t.IsProper) :
    (s.walkEntries [] t.sorted.entries).Pairwise fun a b => s.key a < s.key b := by
  obtain ⟨front, hfront⟩ := hroot
  have hordered : (s.walkEntries [] t.sorted.entries).Pairwise fun a b =>
      Path.componentsKey a < Path.componentsKey b := by
    cases ht with
    | file content => exact List.Pairwise.nil
    | dir es distinct names below =>
      have hwalk := s.pairwise_walk (.dir es distinct names below) []
      rwa [FileTree.sorted, walk] at hwalk
  refine hordered.imp_of_mem ?_
  intro a b ha hb hab
  have hfound : ∀ rel ∈ s.walkEntries [] t.sorted.entries,
      s.key rel = Path.componentsKey (front ++ rel) := fun rel hrel =>
    key_eq_append hbase hfront (of_mem_walkEntries ht hrel).1 (of_mem_walkEntries ht hrel).2
  rw [hfound a ha, hfound b hb]
  exact Path.componentsKey_append_lt front hab

end Search

/-! ### Scripts in order -/

theorem Found.precedes_iff {s : Search} {a b : List Bytes} :
    Path.Precedes (s.foundAt a).shown (s.foundAt b).shown ↔ s.key a < s.key b :=
  s.before_iff a b

/-- Putting scripts in order is putting the files of a search in order. -/
theorem inOrder_map_foundAt (s : Search) (rels : List (List Bytes)) :
    inOrder (rels.map s.foundAt)
      = (rels.mergeSort fun a b => !s.before b a).map s.foundAt := by
  rw [inOrder]
  refine (List.map_mergeSort ?_).symm
  intro a _ b _
  rfl

/-- A list that is strictly in order is the only order of its scripts. -/
theorem eq_of_perm_of_pairwise {found collected : List Found}
    (hstrict : collected.Pairwise fun a b => Path.Precedes a.shown b.shown)
    (hperm : found.Perm collected)
    (hordered : found.Pairwise fun a b => ¬ Path.Precedes b.shown a.shown) : found = collected := by
  -- Of two scripts one precedes the other, so none that are in no order differ.
  have : Std.Symm fun a b : Found =>
      Path.Precedes a.shown b.shown ∨ Path.Precedes b.shown a.shown := ⟨fun _ _ => Or.symm⟩
  have hapart : collected.Pairwise fun a b =>
      Path.Precedes a.shown b.shown ∨ Path.Precedes b.shown a.shown := hstrict.imp Or.inl
  refine hperm.eq_of_pairwise ?_ hordered (hstrict.imp Path.Precedes.not_precedes)
  intro a b ha hb hba hab
  by_contra hne
  rcases hapart.forall (hperm.mem_iff.mp ha) hb hne with h | h
  · exact hab h
  · exact hba h

/-- The scripts that are collected on a walk are in order already. -/
theorem pairwise_collect {s : Search} (hbase : Path.IsClean s.base) (hroot : s.root <+: s.base)
    {t : FileTree} (ht : t.IsProper) :
    (s.collect t).Pairwise fun a b => Path.Precedes a.shown b.shown := by
  have hclean : Path.IsClean s.root := fun c hc => hbase c (hroot.subset hc)
  rw [Search.collect_eq hbase hclean ht, List.pairwise_map]
  exact (Search.pairwise_key_walkEntries hbase hroot ht).imp Found.precedes_iff.mpr

/-- Putting them in order moves nothing. -/
theorem inOrder_collect {s : Search} (hbase : Path.IsClean s.base) (hroot : s.root <+: s.base)
    {t : FileTree} (ht : t.IsProper) : inOrder (s.collect t) = s.collect t := by
  refine List.mergeSort_of_pairwise ((pairwise_collect hbase hroot ht).imp fun hab => ?_)
  rw [Bool.not_eq_true', Bool.eq_false_iff]
  exact hab.not_precedes

/-! ### From a walk to the result -/

namespace Search

variable {s s' : Search}

mutual

/-- A walk depends on which nodes are left out and which files are included, and on nothing else. -/
theorem walk_congr (hignored : ∀ rel, s'.isIgnored rel = s.isIgnored rel)
    (hincludes : s'.includes = s.includes) :
    ∀ (rel : List Bytes) (t : FileTree), s'.walk rel t = s.walk rel t
  | rel, .file _ => by rw [walk, walk, hincludes]
  | rel, .dir es => by rw [walk, walk, walkEntries_congr hignored hincludes rel es]

theorem walkEntries_congr (hignored : ∀ rel, s'.isIgnored rel = s.isIgnored rel)
    (hincludes : s'.includes = s.includes) :
    ∀ (rel : List Bytes) (es : List (Bytes × FileTree)),
      s'.walkEntries rel es = s.walkEntries rel es
  | _, [] => rfl
  | rel, (name, t) :: es => by
    rw [walkEntries, walkEntries, hignored, walk_congr hignored hincludes _ t,
      walkEntries_congr hignored hincludes rel es]

end

/-- Two searches below a directory that differ in a root above it collect the same files in the same
order, if they leave out the same. -/
theorem path_collect_congr (hbase : Path.IsClean s.base) (hsame : s'.base = s.base)
    (hroot : s.root <+: s.base) (hroot' : s'.root <+: s.base)
    (hignored : ∀ rel, s'.isIgnored rel = s.isIgnored rel) (hincludes : s'.includes = s.includes)
    {t : FileTree} (ht : t.IsProper) :
    (s'.collect t).map (·.path) = (s.collect t).map (·.path) := by
  have hclean : Path.IsClean s.root := fun c hc => hbase c (hroot.subset hc)
  have hclean' : Path.IsClean s'.root := fun c hc => hbase c (hroot'.subset hc)
  have hbase' : Path.IsClean s'.base := hsame ▸ hbase
  rw [collect_eq hbase hclean ht, collect_eq hbase' hclean' ht,
    walkEntries_congr hignored hincludes, List.map_map, List.map_map]
  refine List.map_congr_left fun rel _ => ?_
  show Path.render (s'.base ++ rel) = Path.render (s.base ++ rel)
  rw [hsame]

end Search

theorem isClean_rootOf {w : World} (hw : w.IsProper) (base root : Bytes) :
    Path.IsClean (rootOf w base root) := by
  unfold rootOf
  split_ifs
  · exact Path.locate_isClean hw.cwd _
  · exact Path.locate_isClean hw.cwd _

/-- **A walk finds the scripts**, and puts them in the order in which they are listed. -/
theorem discoverOnWalk_eq_discover {w : World} (hw : w.IsProper) (base root : Bytes)
    (patterns : Option (List Bytes)) (ignored : List Bytes) :
    discoverOnWalk w base root patterns ignored = discover w base root patterns ignored := by
  unfold discoverOnWalk discover searchFor
  simp only [bind_assoc, pure_bind]
  refine congrArg _ (funext fun _ => congrArg _ (funext fun matchers => ?_))
  have hplace : Path.locate w.cwd (if base = [] then Path.here else base) = baseOf w base := rfl
  rw [hplace]
  cases hlookup : w.lookup (Path.render (baseOf w base)) with
  | error cause => rfl
  | ok t =>
    have ht : t.IsProper := FileTree.isProper_of_lookup hw hlookup
    dsimp only
    rw [Search.collect_eq (Path.locate_isClean hw.cwd _) (isClean_rootOf hw base root) ht,
      inOrder_map_foundAt, List.map_map]
    rfl

theorem searchFor_eq_ok {w : World} {base root : Bytes} {patterns ignored : List Bytes} {s : Search}
    (h : searchFor w base root patterns ignored = .ok s) :
    s.base = Path.locate w.cwd base ∧
      s.root = if root = [] then Path.locate w.cwd base else Path.locate w.cwd root := by
  unfold searchFor at h
  obtain ⟨⟨⟩, -, h⟩ := bind_eq_ok_iff.mp h
  obtain ⟨ms, -, h⟩ := bind_eq_ok_iff.mp h
  obtain rfl := Except.ok.inj h
  exact ⟨rfl, rfl⟩

/-- The scripts found in a directory that exists. -/
theorem discoverOnWalk_eq_ok {w : World} {base root : Bytes} {patterns : Option (List Bytes)}
    {ignored : List Bytes} {s : Search} {t : FileTree}
    (hs : searchFor w (if base = [] then Path.here else base) root
      (patterns.getD Config.defaultPatterns) ignored = .ok s)
    (ht : w.lookup (Path.render s.base) = .ok t) :
    discoverOnWalk w base root patterns ignored = .ok ((inOrder (s.collect t)).map (·.path)) := by
  simp only [discoverOnWalk, hs, ht, bind, Except.bind]
  rfl

/-- Without ignore patterns the scripts are the same, and in the same order, from every root above
the directory. -/
theorem discoverOnWalk_congr_root {w : World} (hw : w.IsProper) {base root root' : Bytes}
    (hroot : rootOf w base root <+: baseOf w base) (hroot' : rootOf w base root' <+: baseOf w base)
    (patterns : Option (List Bytes)) :
    discoverOnWalk w base root' patterns [] = discoverOnWalk w base root patterns [] := by
  have hbase : Path.IsClean (baseOf w base) := Path.locate_isClean hw.cwd _
  have hnone : compileIgnored [] = .ok [] := rfl
  unfold discoverOnWalk searchFor
  simp only [bind_assoc, pure_bind, hnone]
  refine congrArg _ (funext fun _ => ?_)
  cases hlookup : w.lookup (Path.render (baseOf w base)) with
  | error cause =>
    simp only [baseOf] at hlookup
    simp only [hlookup]
  | ok t =>
    have ht : t.IsProper := FileTree.isProper_of_lookup hw hlookup
    simp only [baseOf] at hlookup
    simp only [hlookup]
    refine congrArg Except.ok ?_
    rw [inOrder_collect hbase hroot' ht, inOrder_collect hbase hroot ht]
    refine Search.path_collect_congr ?base ?same ?root ?root' ?ignored ?includes ht
    case base => exact hbase
    case root => exact hroot
    case root' => exact hroot'
    case ignored => exact fun _ => rfl
    case same => rfl
    case includes => rfl

/-- **A walk is in order already.** From a root that is the directory or is above it, the scripts
that a walk collects are strictly in the order of the paths that they are shown by. So whichever way
they are put in order, none of them is moved, and what is found are the scripts as they were met.
Without ignore patterns these are the same for all such roots. -/
theorem walk_is_in_order {w : World} (hw : w.IsProper) (base : Bytes) {root : Bytes}
    (hroot : rootOf w base root <+: baseOf w base) (patterns : Option (List Bytes))
    (ignored : List Bytes) :
    (∀ s t, searchFor w (if base = [] then Path.here else base) root
        (patterns.getD Config.defaultPatterns) ignored = .ok s →
      w.lookup (Path.render s.base) = .ok t →
      (s.collect t).Pairwise (fun a b => Path.Precedes a.shown b.shown) ∧
      (∀ found : List Found, found.Perm (s.collect t) →
        found.Pairwise (fun a b => ¬ Path.Precedes b.shown a.shown) → found = s.collect t) ∧
      discoverOnWalk w base root patterns ignored = .ok ((s.collect t).map (·.path))) ∧
    ∀ root', rootOf w base root' <+: baseOf w base →
      discoverOnWalk w base root' patterns [] = discoverOnWalk w base root patterns [] := by
  refine ⟨fun s t hs hlookup => ?_, fun root' hroot' => ?_⟩
  · obtain ⟨hsbase, hsroot⟩ := searchFor_eq_ok hs
    have ht : t.IsProper := FileTree.isProper_of_lookup hw hlookup
    have hbase : Path.IsClean s.base := hsbase ▸ Path.locate_isClean hw.cwd _
    have habove : s.root <+: s.base := by
      rw [hsbase, hsroot]
      exact hroot
    have hstrict := pairwise_collect hbase habove ht
    refine ⟨hstrict, fun found => eq_of_perm_of_pairwise hstrict, ?_⟩
    rw [discoverOnWalk_eq_ok hs hlookup, inOrder_collect hbase habove ht]
  · exact discoverOnWalk_congr_root hw hroot hroot' patterns

/-- A script in a directory and one beside it, whose name comes first byte by byte and second
component by component; seen from above the directory and from the directory itself. -/
theorem walk_is_in_order_two_scripts :
    let base := bytes "/scripts"
    let w : World := ⟨.dir [(bytes "scripts", .dir [(bytes "a-b.ahk", .file []),
      (bytes "a", .dir [(bytes "x.ahk", .file [])])])], []⟩
    ∃ s t, searchFor w base (bytes "/") Config.defaultPatterns [] = .ok s ∧
      w.lookup (Path.render s.base) = .ok t ∧
      (s.collect t).Pairwise (fun a b => Path.Precedes a.shown b.shown) ∧
      discoverOnWalk w base base none [] = .ok ((s.collect t).map (·.path)) := by
  intro base w
  have hw : w.IsProper := by
    refine ⟨.dir _ (by decide) (by decide) ?_, List.forall_mem_nil _⟩
    refine List.forall_mem_singleton.mpr (.dir _ (by decide) (by decide) ?_)
    rw [List.forall_mem_cons, List.forall_mem_singleton]
    refine ⟨.file _, .dir _ (by decide) (by decide) ?_⟩
    exact List.forall_mem_singleton.mpr (.file _)
  have hroot : rootOf w base (bytes "/") <+: baseOf w base := by decide
  have hroot' : rootOf w base base <+: baseOf w base := List.prefix_rfl
  obtain ⟨hwalk, hroots⟩ := walk_is_in_order hw base hroot none []
  have hsearch : ∃ s, searchFor w base (bytes "/") Config.defaultPatterns [] = .ok s := ⟨_, rfl⟩
  obtain ⟨s, hs⟩ := hsearch
  have hlookup : ∃ t, w.lookup (Path.render s.base) = .ok t := by
    rw [(searchFor_eq_ok hs).1]
    exact World.exists?_iff.mp (by decide)
  obtain ⟨t, ht⟩ := hlookup
  obtain ⟨hstrict, -, hfound⟩ := hwalk s t hs ht
  exact ⟨s, t, hs, ht, hstrict, (hroots base hroot').trans hfound⟩

end Discovery

end ScriptLint
