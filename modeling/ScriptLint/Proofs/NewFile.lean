import ScriptLint.Proofs.Discovery

/-!
# A new file

A path that is followed stands at the place that `Path.locate` names (`World.at?_of_lookup`), and
whether it gets there depends on directories only (`World.lookup_of_at?`). So a file that is added
to a tree (`World.AddsFile`) changes nothing for any path that does not name it: the same places
exist, the same of them are directories, and the others have the same contents. `World.addsFile_put`
says that writing a file into a directory adds it in this sense.
-/

namespace ScriptLint

namespace FileTree

/-- The content of a file; a directory has none. -/
def content? : FileTree → Option Bytes
  | .file content => some content
  | .dir _ => none

theorem at?_append (t : FileTree) (as bs : List Bytes) :
    t.at? (as ++ bs) = (t.at? as).bind (·.at? bs) := by
  induction as generalizing t with
  | nil => rfl
  | cons a as ih =>
    rw [List.cons_append, at?, at?, Option.bind_assoc]
    exact congrArg _ (funext fun u => ih u)

/-! ### Following paths by place -/

/-- Whether a walk from the top of a tree has come to a node, down the names in reverse, with the
directories above it. -/
inductive Stands (t : FileTree) : List Bytes → List FileTree → FileTree → Prop where
  | top : Stands t [] [] t
  | under {before : List Bytes} {above : List FileTree} {d u : FileTree} {c : Bytes}
    (h : Stands t before above d) (hc : c ≠ Path.up) (hu : d.child? c = some u) :
    Stands t (c :: before) (d :: above) u

/-- The names in reverse at which a path stands that starts at some names in reverse. -/
def standing (before cs : List Bytes) : List Bytes :=
  (cs.filter fun c => c ≠ [] ∧ c ≠ Path.here).foldl (Path.step true) before

section Standing

variable {c d : Bytes} (before cs : List Bytes)

theorem standing_skip (h : c = [] ∨ c = Path.here) :
    standing before (c :: cs) = standing before cs := by
  rw [standing, List.filter_cons_of_neg (by simpa [or_iff_not_imp_left] using h), standing]

theorem standing_up_top : standing [] (Path.up :: cs) = standing [] cs := by
  rw [standing, List.filter_cons_of_pos (by decide), List.foldl_cons]
  rfl

theorem standing_up (hd : d ≠ Path.up) :
    standing (d :: before) (Path.up :: cs) = standing before cs := by
  rw [standing, List.filter_cons_of_pos (by decide), List.foldl_cons]
  simp only [Path.step, if_true, if_neg hd, standing]

theorem standing_name (h : ¬ (c = [] ∨ c = Path.here)) (hup : c ≠ Path.up) :
    standing before (c :: cs) = standing (c :: before) cs := by
  rw [standing, List.filter_cons_of_pos (by simpa using h), List.foldl_cons]
  simp only [Path.step, if_neg hup, standing]

end Standing

variable {t t' node node' u u' : FileTree} {before cs : List Bytes} {above above' : List FileTree}

theorem Stands.at?_eq (h : t.Stands before above node) : t.at? before.reverse = some node := by
  induction h with
  | top => rfl
  | under h hc hu ih =>
    rw [List.reverse_cons, at?_append, ih, Option.bind_some, at?, hu]
    rfl

theorem child?_dir (es : Entries FileTree) (c : Bytes) :
    (FileTree.dir es).child? c = (es.find? (·.1 == c)).map (·.2) := rfl

/-- **A path that is followed ends at its place.** -/
theorem Stands.follow (h : t.Stands before above node) (hf : node.follow above cs = .ok u) :
    ∃ above', t.Stands (standing before cs) above' u := by
  -- The way down is known step by step, so a step up leads back to the directory before.
  induction cs generalizing before above node with
  | nil =>
    obtain rfl := Except.ok.inj hf
    exact ⟨above, h⟩
  | cons c cs ih =>
    cases node with
    | file content => cases hf
    | dir es =>
      simp only [FileTree.follow] at hf
      split_ifs at hf with hskip hup hlong
      · rw [standing_skip before cs hskip]
        exact ih h hf
      · subst hup
        cases h with
        | top =>
          rw [standing_up_top]
          exact ih .top hf
        | under h hc hu =>
          rw [standing_up _ _ hc]
          exact ih h hf
      · rw [standing_name before cs hskip hup]
        cases hfind : es.find? (·.1 == c) with
        | none =>
          rw [hfind] at hf
          cases hf
        | some e =>
          rw [hfind] at hf
          exact ih (h.under hup (by rw [child?_dir, hfind]; rfl)) hf

/-- **Where a path leads depends on the directories that it passes.** If these are directories in
another tree too, the path leads to whatever is at its place there. -/
theorem Stands.follow_of_at?
    (hdirs : ∀ ns es, t.at? ns = some (.dir es) → ∃ es', t'.at? ns = some (.dir es'))
    (h : t.Stands before above node) (h' : t'.Stands before above' node')
    (hf : node.follow above cs = .ok u) (hend : t'.at? (standing before cs).reverse = some u') :
    node'.follow above' cs = .ok u' := by
  induction cs generalizing before above above' node node' with
  | nil =>
    have hnode : t'.at? before.reverse = some u' := hend
    rw [h'.at?_eq] at hnode
    exact congrArg Except.ok (Option.some.inj hnode)
  | cons c cs ih =>
    cases node with
    | file content => cases hf
    | dir es =>
      obtain ⟨es', hes'⟩ := hdirs _ _ h.at?_eq
      obtain rfl : node' = .dir es' := Option.some.inj (h'.at?_eq.symm.trans hes')
      simp only [FileTree.follow] at hf ⊢
      split_ifs at hf ⊢ with hskip hup hlong
      · rw [standing_skip before cs hskip] at hend
        exact ih h h' hf hend
      · subst hup
        cases h with
        | top =>
          cases h' with
          | top =>
            rw [standing_up_top] at hend
            exact ih .top .top hf hend
        | under h hc hu =>
          cases h' with
          | under h' _ hu' =>
            rw [standing_up _ _ hc] at hend
            exact ih h h' hf hend
      · rw [standing_name before cs hskip hup] at hend
        cases hfind : es.find? (·.1 == c) with
        | none =>
          rw [hfind] at hf
          cases hf
        | some e =>
          rw [hfind] at hf
          dsimp only at hf
          have hnext : t.Stands (c :: before) (.dir es :: above) e.2 :=
            h.under hup (by rw [child?_dir, hfind]; rfl)
          -- Behind a file nothing follows, so the entry is the end of the path or a directory.
          have hentry : ∃ v, t'.at? (c :: before).reverse = some v := by
            cases hnode : e.2 with
            | dir ds =>
              obtain ⟨ds', hds'⟩ := hdirs _ ds (by rw [hnext.at?_eq, hnode])
              exact ⟨_, hds'⟩
            | file content =>
              rw [hnode] at hf
              cases cs with
              | nil => exact ⟨u', hend⟩
              | cons _ _ => cases hf
          obtain ⟨v, hv⟩ := hentry
          rw [List.reverse_cons, at?_append, h'.at?_eq, Option.bind_some, at?,
            Option.bind_eq_some_iff] at hv
          obtain ⟨child, hchild, -⟩ := hv
          obtain ⟨e', he', rfl⟩ := Option.map_eq_some_iff.mp hchild
          have hfind' : es'.find? (·.1 == c) = some e' := he'
          rw [hfind']
          exact ih hnext (h'.under hup hchild) hf hend

/-! ### Writing into a directory -/

theorem child?_put (es : Entries FileTree) (c : Bytes) (cs : List Bytes) (new : FileTree)
    (n : Bytes) :
    ((FileTree.dir es).put (c :: cs) new).child? n =
      if n = c then some ((((FileTree.dir es).child? c).getD (.dir [])).put cs new)
      else (FileTree.dir es).child? n := by
  rw [put, child?_dir, child?_dir, child?_dir, List.find?_append]
  by_cases hn : n = c
  · subst hn
    have hgone : (es.filter (·.1 != n)).find? (·.1 == n) = none := by
      rw [List.find?_eq_none]
      intro e he
      simpa using (List.mem_filter.mp he).2
    rw [hgone, if_pos rfl]
    simp
  · have hkeep : (es.filter (·.1 != c)).find? (·.1 == n) = es.find? (·.1 == n) := by
      rw [List.find?_filter]
      congr 1
      funext e
      by_cases he : e.1 = n
      · simp [he, hn]
      · simp [he]
    rw [hkeep, if_neg hn]
    simp [Ne.symm hn]

/-- What is written in a directory is there. -/
theorem at?_put {dir : List Bytes} {es : List (Bytes × FileTree)} (name : Bytes) (new : FileTree)
    (hdir : t.at? dir = some (.dir es)) :
    (t.put (dir ++ [name]) new).at? (dir ++ [name]) = some new := by
  induction dir generalizing t with
  | nil =>
    obtain rfl := Option.some.inj hdir
    rw [List.nil_append, at?, child?_put, if_pos rfl]
    rfl
  | cons d ds ih =>
    obtain ⟨v, hv, hds⟩ := Option.bind_eq_some_iff.mp hdir
    cases t with
    | file content => cases hv
    | dir top =>
      rw [List.cons_append, at?, child?_put, if_pos rfl, hv]
      exact ih hds

/-- And everything else is as it was. -/
theorem at?_put_of_ne {dir : List Bytes} {es : List (Bytes × FileTree)} {name : Bytes}
    (content : Bytes) (hdir : t.at? dir = some (.dir es)) (hfresh : t.at? (dir ++ [name]) = none)
    {ns : List Bytes} (hns : ns ≠ dir ++ [name]) :
    ((t.put (dir ++ [name]) (.file content)).at? ns).map content? = (t.at? ns).map content? := by
  -- Along the way to the new file the other way either leaves it, where nothing is changed, or goes
  -- on with it to the directory, where only the new name is added.
  induction dir generalizing t ns with
  | nil =>
    obtain rfl := Option.some.inj hdir
    cases ns with
    | nil => rfl
    | cons n ns =>
      rw [List.nil_append, at?, child?_put, at?]
      by_cases hn : n = name
      · subst hn
        have hnone : (FileTree.dir es).child? n = none := by
          simpa [at?] using hfresh
        have hrest : ns ≠ [] := fun h => hns (by rw [h]; rfl)
        obtain ⟨m, ms, rfl⟩ := List.exists_cons_of_ne_nil hrest
        rw [if_pos rfl, hnone]
        rfl
      · rw [if_neg hn]
  | cons d ds ih =>
    obtain ⟨v, hv, hds⟩ := Option.bind_eq_some_iff.mp hdir
    cases t with
    | file content => cases hv
    | dir top =>
      cases ns with
      | nil => rfl
      | cons n ns =>
        rw [List.cons_append, at?, child?_put, at?]
        by_cases hn : n = d
        · subst hn
          rw [List.cons_append, at?, hv] at hfresh
          rw [if_pos rfl, hv]
          exact ih hds hfresh fun h => hns (by rw [h]; rfl)
        · rw [if_neg hn]

theorem IsProper.put {new : FileTree} (ht : t.IsProper) (hnew : new.IsProper) {place : List Bytes}
    (hplace : Path.IsClean place) : (t.put place new).IsProper := by
  induction place generalizing t with
  | nil =>
    cases t with
    | file content => exact hnew
    | dir es => exact hnew
  | cons c cs ih =>
    have hcs : Path.IsClean cs := fun n hn => hplace n (List.mem_cons_of_mem _ hn)
    cases ht with
    | file content => exact .file content
    | dir es distinct names below =>
      -- Below the name the tree goes on with what was there, or with an empty directory.
      have hold : (((FileTree.dir es).child? c).getD (.dir [])).IsProper := by
        cases hchild : (FileTree.dir es).child? c with
        | none => exact .dir [] List.nodup_nil (List.forall_mem_nil _) (List.forall_mem_nil _)
        | some v => exact ((IsProper.dir es distinct names below).of_child? hchild).2
      rw [FileTree.put]
      refine .dir _ ?_ ?_ ?_
      · -- The entry of that name is taken out before the new one is put at the end.
        rw [Entries.IsDistinct, List.map_append, List.nodup_append]
        refine ⟨distinct.sublist (List.filter_sublist.map _), List.nodup_singleton _, ?_⟩
        intro a ha b hb
        obtain ⟨e, he, rfl⟩ := List.mem_map.mp ha
        obtain rfl := List.mem_singleton.mp hb
        simpa using (List.mem_filter.mp he).2
      · intro e he
        rcases List.mem_append.mp he with he | he
        · exact names e (List.mem_filter.mp he).1
        · rw [List.mem_singleton.mp he]
          exact hplace c (List.mem_cons_self ..)
      · intro e he
        rcases List.mem_append.mp he with he | he
        · exact below e (List.mem_filter.mp he).1
        · rw [List.mem_singleton.mp he]
          exact ih hold hcs

end FileTree

/-! ### Paths in a world -/

namespace World

variable {w w' : World} {p : Bytes} {t t' : FileTree}

/-- The components that a path is followed by. -/
def parts (w : World) (p : Bytes) : List Bytes :=
  if Path.isAbsolute p then splitBytes Path.slash p else w.cwd ++ splitBytes Path.slash p

theorem follow_of_lookup (h : w.lookup p = .ok t) : w.tree.follow [] (w.parts p) = .ok t := by
  simp only [lookup] at h
  rw [parts]
  split_ifs at h ⊢ <;> exact h

theorem lookup_of_follow (h : w.lookup p = .ok t) (hcwd : w'.cwd = w.cwd)
    (h' : w'.tree.follow [] (w.parts p) = .ok t') : w'.lookup p = .ok t' := by
  simp only [lookup] at h ⊢
  rw [parts] at h'
  rw [hcwd]
  split_ifs at h h' ⊢ <;> exact h'

theorem standing_parts (hcwd : Path.IsClean w.cwd) (p : Bytes) :
    (FileTree.standing [] (w.parts p)).reverse = Path.locate w.cwd p := by
  have hkeep : w.cwd.filter (fun c => c ≠ [] ∧ c ≠ Path.here) = w.cwd := by
    rw [List.filter_eq_self]
    intro c hc
    exact decide_eq_true ⟨(hcwd c hc).nonempty, (hcwd c hc).ne_here⟩
  rw [FileTree.standing, parts, Path.locate, Path.settle, Path.components]
  split_ifs
  · rfl
  · rw [List.filter_append, hkeep]

/-- **What a path leads to is at its place.** -/
theorem at?_of_lookup (hcwd : Path.IsClean w.cwd) (h : w.lookup p = .ok t) :
    w.tree.at? (Path.locate w.cwd p) = some t := by
  obtain ⟨above, hstands⟩ := FileTree.Stands.top.follow (follow_of_lookup h)
  rw [← standing_parts hcwd]
  exact hstands.at?_eq

/-- **A path leads to its place in every world with the same directories.** -/
theorem lookup_of_at? (hcwd : Path.IsClean w.cwd) (hsame : w'.cwd = w.cwd)
    (hdirs : ∀ ns es, w.tree.at? ns = some (.dir es) → ∃ es', w'.tree.at? ns = some (.dir es'))
    (h : w.lookup p = .ok t) (h' : w'.tree.at? (Path.locate w.cwd p) = some t') :
    w'.lookup p = .ok t' := by
  rw [← standing_parts hcwd] at h'
  exact lookup_of_follow h hsame
    (FileTree.Stands.top.follow_of_at? hdirs .top (follow_of_lookup h) h')

/-! ### What a path shows -/

/-- What a path shows: nothing, a directory, or the content of a file. -/
def shows (w : World) (p : Bytes) : Option (Option Bytes) :=
  (w.lookup p).toOption.map FileTree.content?

theorem exists?_eq_shows (w : World) (p : Bytes) : w.exists? p = (w.shows p).isSome := by
  rw [exists?, shows]
  cases w.lookup p <;> rfl

theorem isDirectory_eq_shows (w : World) (p : Bytes) :
    w.isDirectory p = decide (w.shows p = some none) := by
  rw [isDirectory, shows]
  cases w.lookup p with
  | error cause => rfl
  | ok t => cases t <;> rfl

theorem toOption_readFile (w : World) (p : Bytes) :
    (w.readFile p).toOption = (w.shows p).join := by
  rw [readFile, shows]
  cases w.lookup p with
  | error cause => rfl
  | ok t => cases t <;> rfl

/-- What is shown is read alike. -/
theorem readFile_congr (h : w'.shows p = w.shows p) (hsome : (w.shows p).isSome = true) :
    w'.readFile p = w.readFile p := by
  rw [shows, shows] at h
  rw [shows] at hsome
  rw [readFile, readFile]
  cases hw : w.lookup p with
  | error cause =>
    rw [hw] at hsome
    cases hsome
  | ok t =>
    cases hw' : w'.lookup p with
    | error cause =>
      rw [hw, hw'] at h
      cases h
    | ok t' =>
      rw [hw, hw'] at h
      have hcontent : t'.content? = t.content? := Option.some.inj h
      cases t with
      | file content =>
        cases t' with
        | file content' =>
          obtain rfl := Option.some.inj hcontent
          rfl
        | dir es => cases hcontent
      | dir es =>
        cases t' with
        | file content' => cases hcontent
        | dir es' => rfl

/-! ### One more file -/

/-- Whether a world is another one with a file at a place where nothing was. -/
structure AddsFile (w w' : World) (place : List Bytes) (content : Bytes) : Prop where
  cwd : w'.cwd = w.cwd
  proper : w'.IsProper
  fresh : w.tree.at? place = none
  new : w'.tree.at? place = some (.file content)
  elsewhere : ∀ ns, ns ≠ place →
    (w'.tree.at? ns).map FileTree.content? = (w.tree.at? ns).map FileTree.content?

/-- **Writing a file into a directory adds it.** -/
theorem addsFile_put (hw : w.IsProper) {dir : List Bytes} {es : List (Bytes × FileTree)}
    (hdir : w.tree.at? dir = some (.dir es)) {name : Bytes} (hname : Path.IsName name)
    (hfresh : w.tree.at? (dir ++ [name]) = none) (content : Bytes) :
    AddsFile w { w with tree := w.tree.put (dir ++ [name]) (.file content) } (dir ++ [name])
      content where
  cwd := rfl
  proper := by
    have hclean : Path.IsClean (dir ++ [name]) := (hw.tree.isClean_of_at? hdir).concat hname
    exact ⟨hw.tree.put (.file content) hclean, hw.cwd⟩
  fresh := hfresh
  new := FileTree.at?_put name _ hdir
  elsewhere := fun ns hns => FileTree.at?_put_of_ne content hdir hfresh hns

namespace AddsFile

variable {place : List Bytes} {content : Bytes}

theorem exists_dir_of_map_content? {o : Option FileTree}
    (h : o.map FileTree.content? = some none) : ∃ es, o = some (.dir es) := by
  obtain ⟨t, rfl, ht⟩ := Option.map_eq_some_iff.mp h
  cases t with
  | file content => cases ht
  | dir es => exact ⟨es, rfl⟩

variable (h : AddsFile w w' place content)
include h

theorem dirs (ns : List Bytes) (es : List (Bytes × FileTree))
    (hes : w.tree.at? ns = some (.dir es)) : ∃ es', w'.tree.at? ns = some (.dir es') := by
  have hns : ns ≠ place := by
    rintro rfl
    rw [h.fresh] at hes
    cases hes
  refine exists_dir_of_map_content? ?_
  rw [h.elsewhere ns hns, hes]
  rfl

theorem dirs_back (ns : List Bytes) (es : List (Bytes × FileTree))
    (hes : w'.tree.at? ns = some (.dir es)) : ∃ es', w.tree.at? ns = some (.dir es') := by
  have hns : ns ≠ place := by
    rintro rfl
    rw [h.new] at hes
    cases hes
  refine exists_dir_of_map_content? ?_
  rw [← h.elsewhere ns hns, hes]
  rfl

/-- **A path to anywhere else shows what it showed.** -/
theorem shows_eq (hw : w.IsProper) (hp : Path.locate w.cwd p ≠ place) : w'.shows p = w.shows p := by
  have hplace := h.elsewhere _ hp
  rw [shows, shows]
  cases hlookup : w.lookup p with
  | ok t =>
    rw [at?_of_lookup hw.cwd hlookup] at hplace
    obtain ⟨t', ht', hcontent⟩ := Option.map_eq_some_iff.mp hplace
    rw [lookup_of_at? hw.cwd h.cwd h.dirs hlookup ht']
    exact congrArg some hcontent
  | error cause =>
    cases hlookup' : w'.lookup p with
    | error cause' => rfl
    | ok t' =>
      -- What the path leads to now was there before, so the path led to it.
      have hcwd : Path.locate w'.cwd p = Path.locate w.cwd p := by rw [h.cwd]
      have ht' := at?_of_lookup h.proper.cwd hlookup'
      rw [hcwd] at ht'
      rw [ht'] at hplace
      obtain ⟨t, ht, -⟩ := Option.map_eq_some_iff.mp hplace.symm
      rw [← hcwd] at ht
      rw [lookup_of_at? h.proper.cwd h.cwd.symm h.dirs_back hlookup' ht] at hlookup
      cases hlookup

/-- A path to the new file showed nothing. -/
theorem shows_eq_none (hw : w.IsProper) (hp : Path.locate w.cwd p = place) : w.shows p = none := by
  rw [shows]
  cases hlookup : w.lookup p with
  | error cause => rfl
  | ok t =>
    have hplace := at?_of_lookup hw.cwd hlookup
    rw [hp, h.fresh] at hplace
    cases hplace

/-- A path to the new file shows it, unless the path is refused. -/
theorem shows_new (hp : Path.locate w.cwd p = place) (hsome : (w'.shows p).isSome = true) :
    w'.shows p = some (some content) := by
  rw [shows] at hsome ⊢
  cases hlookup : w'.lookup p with
  | error cause =>
    rw [hlookup] at hsome
    cases hsome
  | ok t =>
    have hplace := at?_of_lookup h.proper.cwd hlookup
    rw [h.cwd, hp, h.new] at hplace
    obtain rfl := Option.some.inj hplace
    rfl

theorem isDirectory_eq (hw : w.IsProper) (p : Bytes) : w'.isDirectory p = w.isDirectory p := by
  rw [isDirectory_eq_shows, isDirectory_eq_shows]
  by_cases hp : Path.locate w.cwd p = place
  · rw [h.shows_eq_none hw hp]
    cases hsome : (w'.shows p).isSome with
    | false => rw [Option.isSome_eq_false_iff, Option.isNone_iff_eq_none] at hsome; rw [hsome]
    | true => rw [h.shows_new hp hsome]; rfl
  · rw [h.shows_eq hw hp]

/-- What was there is read as before. -/
theorem readFile_eq (hw : w.IsProper) (hp : w.exists? p = true) :
    w'.readFile p = w.readFile p := by
  rw [exists?_eq_shows] at hp
  refine readFile_congr (h.shows_eq hw fun hplace => ?_) hp
  rw [h.shows_eq_none hw hplace] at hp
  cases hp

/-- A file elsewhere can be read exactly if it could, and reads the same. -/
theorem readFile_eq_ok_iff (hw : w.IsProper) (hp : Path.locate w.cwd p ≠ place) (data : Bytes) :
    w'.readFile p = .ok data ↔ w.readFile p = .ok data := by
  refine toOption_eq_iff.mp ?_ data
  rw [toOption_readFile, toOption_readFile, h.shows_eq hw hp]

end AddsFile

end World

/-! ### Writing a file beside others -/

/-- A name leads to the entry of the directory, if it is not too long. -/
theorem FileTree.follow_name {c : Bytes} (hc : Path.IsName c) (ds : List (Bytes × FileTree))
    (above : List FileTree) (cs : List Bytes) :
    (FileTree.dir ds).follow above (c :: cs) =
      if nameLimit < c.length then .error .nameTooLong
      else match (FileTree.dir ds).child? c with
        | none => .error .notFound
        | some u => u.follow (.dir ds :: above) cs := by
  have hskip : ¬ (c = [] ∨ c = Path.here) := not_or.mpr ⟨hc.nonempty, hc.ne_here⟩
  simp only [FileTree.follow, if_neg hskip, if_neg hc.ne_up, child?_dir]
  cases ds.find? (·.1 == c) <;> rfl

/-- A path through names to a directory goes on from it. -/
theorem FileTree.follow_here {node : FileTree} {above : List FileTree} {cs : List Bytes}
    (hcs : Path.IsClean cs) {es : List (Bytes × FileTree)}
    (h : node.follow above (cs ++ [Path.here]) = .ok (.dir es)) :
    ∃ above', ∀ c, node.follow above (cs ++ [c]) = (FileTree.dir es).follow above' [c] := by
  induction cs generalizing node above with
  | nil =>
    cases node with
    | file content => cases h
    | dir ds =>
      obtain rfl := FileTree.dir.inj (Except.ok.inj h)
      exact ⟨above, fun c => rfl⟩
  | cons n ns ih =>
    cases node with
    | file content => cases h
    | dir ds =>
      have hn := hcs n (List.mem_cons_self ..)
      have hns : Path.IsClean ns := fun c hc => hcs c (List.mem_cons_of_mem _ hc)
      simp only [List.cons_append, follow_name hn] at h ⊢
      split_ifs at h ⊢
      cases hchild : (FileTree.dir ds).child? n with
      | none =>
        rw [hchild] at h
        cases h
      | some u =>
        rw [hchild] at h
        exact ih hns h

namespace World

variable {w w' : World} {name content : Bytes}

theorem parts_name (hname : Path.IsName name) : w.parts name = w.cwd ++ [name] := by
  have hsplit : splitBytes Path.slash name = [name] :=
    splitBytes_joinBytes (List.cons_ne_nil name []) (by simpa using hname.no_slash)
  rw [parts, Path.isAbsolute_name hname, hsplit]
  rfl

/-- A name that is refused because nothing is there is refused in no other world for itself. -/
theorem lookup_eq_follow (hne : name ≠ []) (h : w.lookup name = .error .notFound) (v : World) :
    v.lookup name = v.tree.follow [] (v.parts name) := by
  simp only [lookup] at h
  simp only [lookup, parts]
  split_ifs at h ⊢
  all_goals first | rfl | cases h

/-- A new file is written into the working directory only. -/
theorem writeFile_cases (hw : w.IsProper) (hname : Path.IsName name)
    (hexists : w.exists? name = false) (h : w.writeFile name content = .ok w') :
    w.lookup name = .error .notFound ∧ ∃ es, w.lookup Path.here = .ok (.dir es) ∧
      w' = { w with tree := w.tree.put (w.cwd ++ [name]) (.file content) } := by
  rw [exists?] at hexists
  rw [writeFile, Path.directory_name hname, Path.locate_name hw.cwd hname] at h
  cases hlookup : w.lookup name with
  | ok t =>
    rw [hlookup] at hexists
    cases hexists
  | error cause =>
    rw [hlookup] at h
    cases cause with
    | notFound =>
      cases hdir : w.lookup Path.here with
      | error cause =>
        rw [hdir] at h
        cases h
      | ok t =>
        rw [hdir] at h
        cases t with
        | file content => cases h
        | dir es => exact ⟨rfl, es, rfl, (Except.ok.inj h).symm⟩
    | _ => cases h

/-- **A file that is written where none is, is added, and can be read.** -/
theorem addsFile_of_writeFile (hw : w.IsProper) (hname : Path.IsName name)
    (hexists : w.exists? name = false) (h : w.writeFile name content = .ok w') :
    AddsFile w w' (w.cwd ++ [name]) content ∧ w'.lookup name = .ok (.file content) := by
  obtain ⟨hmissing, es, hdir, hw'⟩ := writeFile_cases hw hname hexists h
  have hparts (v : World) (hv : v.cwd = w.cwd) :
      v.lookup name = v.tree.follow [] (w.cwd ++ [name]) := by
    rw [lookup_eq_follow hname.nonempty hmissing, parts_name hname, hv]
  have hcwd : w.tree.at? w.cwd = some (.dir es) := by
    rw [← Path.locate_here hw.cwd]
    exact at?_of_lookup hw.cwd hdir
  -- What the name leads to is the entry of the working directory, before and after.
  obtain ⟨above, hfollow⟩ := FileTree.follow_here hw.cwd (follow_of_lookup hdir)
  rw [hparts w rfl, hfollow, FileTree.follow_name hname] at hmissing
  have hlong : ¬ FileTree.nameLimit < name.length := by
    intro hlong
    rw [if_pos hlong] at hmissing
    cases hmissing
  rw [if_neg hlong] at hmissing
  have hfresh : (FileTree.dir es).child? name = none := by
    cases hchild : (FileTree.dir es).child? name with
    | none => rfl
    | some u =>
      rw [hchild] at hmissing
      cases hmissing
  have hadds : AddsFile w w' (w.cwd ++ [name]) content := by
    rw [hw']
    refine addsFile_put hw hcwd hname ?_ content
    rw [FileTree.at?_append, hcwd, Option.bind_some, FileTree.at?, hfresh]
    rfl
  refine ⟨hadds, ?_⟩
  obtain ⟨es', hcwd'⟩ := hadds.dirs _ _ hcwd
  have hdir' : w'.lookup Path.here = .ok (.dir es') :=
    lookup_of_at? hw.cwd hadds.cwd hadds.dirs hdir (by rw [Path.locate_here hw.cwd, hcwd'])
  obtain ⟨above', hfollow'⟩ := FileTree.follow_here hadds.proper.cwd (follow_of_lookup hdir')
  have hchild : (FileTree.dir es').child? name = some (.file content) := by
    have hnew := hadds.new
    rw [FileTree.at?_append, hcwd', Option.bind_some, FileTree.at?] at hnew
    obtain ⟨u, hu, hcontent⟩ := Option.bind_eq_some_iff.mp hnew
    rwa [Option.some.inj hcontent] at hu
  rw [hadds.cwd] at hfollow'
  rw [hparts w' hadds.cwd, hfollow', FileTree.follow_name hname, if_neg hlong, hchild]
  rfl

end World

/-! ### Finding scripts beside a new file -/

namespace Discovery

/-- Whether a search takes a file at a place. -/
def Search.Takes (s : Search) (place : List Bytes) : Prop :=
  ∃ rel, place = s.base ++ rel ∧ s.includes (Search.below rel) = true ∧ s.IsOpen [] rel

variable {w w' : World} {place : List Bytes} {content : Bytes}

theorem hasFile_congr {t t' : FileTree} {ns : List Bytes}
    (h : (t'.at? ns).map FileTree.content? = (t.at? ns).map FileTree.content?) :
    t'.HasFile ns ↔ t.HasFile ns := by
  have hfile (t : FileTree) :
      t.HasFile ns ↔ ∃ content, (t.at? ns).map FileTree.content? = some (some content) := by
    refine exists_congr fun content => ?_
    cases t.at? ns with
    | none => simp
    | some u => cases u <;> simp [FileTree.content?]
  rw [hfile, hfile, h]

variable (h : w.AddsFile w' place content) (hw : w.IsProper)
include h hw

/-- A search that does not take a new file gives the same results. -/
theorem results_addsFile {s : Search} (hclean : Path.IsClean s.base) (htakes : ¬ s.Takes place)
    {t t' : FileTree} (ht : w.lookup (Path.render s.base) = .ok t)
    (ht' : w'.lookup (Path.render s.base) = .ok t') : s.results t' = s.results t := by
  have hplace := World.at?_of_lookup hw.cwd ht
  have hplace' := World.at?_of_lookup h.proper.cwd ht'
  rw [Path.locate_render hclean] at hplace hplace'
  have hproper := FileTree.isProper_of_lookup hw ht
  have hproper' := FileTree.isProper_of_lookup h.proper ht'
  refine Search.results_ext hclean hproper hproper' fun found => ?_
  rw [Search.mem_results_iff hproper', Search.mem_results_iff hproper]
  by_cases hfound : s.base ++ found = place
  · have hout : ¬ (s.includes (Search.below found) = true ∧ s.IsOpen [] found) :=
      fun hin => htakes ⟨found, hfound.symm, hin⟩
    exact iff_of_false (fun hin => hout hin.2.2) (fun hin => hout hin.2.2)
  · have hsame := h.elsewhere _ hfound
    rw [FileTree.at?_append, FileTree.at?_append, hplace, hplace'] at hsame
    exact and_congr_right fun _ => and_congr_left fun _ => hasFile_congr hsame

/-- **A file that a search neither starts at nor takes does not change which scripts are found.** -/
theorem discover_addsFile {base root : Bytes} {patterns : Option (List Bytes)}
    {ignored : List Bytes} (hbase : baseOf w base ≠ place)
    (htakes : ¬ (searchOf w base root (patterns.getD Config.defaultPatterns) ignored).Takes place)
    (paths : List Bytes) :
    discover w' base root patterns ignored = .ok paths ↔
      discover w base root patterns ignored = .ok paths := by
  have hclean : Path.IsClean (baseOf w base) := Path.locate_isClean hw.cwd _
  have hbase' : baseOf w' base = baseOf w base := by rw [baseOf, baseOf, h.cwd]
  have hsearch (patterns ignored : List Bytes) :
      searchOf w' base root patterns ignored = searchOf w base root patterns ignored := by
    rw [searchOf, searchOf, rootOf, rootOf, hbase', h.cwd]
  have hshows : w'.shows (Path.render (baseOf w base)) = w.shows (Path.render (baseOf w base)) :=
    h.shows_eq hw (by rwa [Path.locate_render hclean])
  have hresults {t t' : FileTree} (ht : w.lookup (Path.render (baseOf w base)) = .ok t)
      (ht' : w'.lookup (Path.render (baseOf w base)) = .ok t') :=
    results_addsFile h hw hclean htakes ht ht'
  -- Either directory exists if the other one does.
  have hlookup {v v' : World}
      (hsame : v'.shows (Path.render (baseOf w base)) = v.shows (Path.render (baseOf w base)))
      {t : FileTree} (ht : v.lookup (Path.render (baseOf w base)) = .ok t) :
      ∃ t', v'.lookup (Path.render (baseOf w base)) = .ok t' := by
    rw [World.shows, World.shows, ht] at hsame
    cases ht' : v'.lookup (Path.render (baseOf w base)) with
    | error cause =>
      rw [ht'] at hsame
      cases hsame
    | ok t' => exact ⟨t', rfl⟩
  constructor
  · intro hfound
    obtain ⟨hpatterns, hignored⟩ := usable_of_discover hfound
    obtain ⟨t', ht', rfl⟩ := discover_eq_ok hfound
    rw [hbase'] at ht'
    obtain ⟨t, ht⟩ := hlookup hshows.symm ht'
    rw [discover_eq_results ht hpatterns hignored, hsearch, hbase', hresults ht ht']
  · intro hfound
    obtain ⟨hpatterns, hignored⟩ := usable_of_discover hfound
    obtain ⟨t, ht, rfl⟩ := discover_eq_ok hfound
    obtain ⟨t', ht'⟩ := hlookup hshows ht
    rw [discover_eq_results (by rwa [hbase']) hpatterns hignored, hsearch, hbase', hresults ht ht']

end Discovery

end ScriptLint
