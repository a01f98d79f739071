import ScriptLint.Proofs.Path
import ScriptLint.Proofs.Rule.Standard
import ScriptLint.Proofs.Run.Cancellation

/-!
# The order of findings

The findings of a run follow the files, and those of a file follow the rules. Each finding names the
file as it is shown and the rule (`Runner.file_of_mem_fileFindings`,
`Runner.pairwise_flatMap_ruleFindings`), so if the files are given in the order of their shown
paths, the findings are in order by what they say themselves (`InOrder`). That some files are not
begun in a run that is cancelled does not change the order of the others
(`Runner.inOrder_runUnder`).
-/

namespace ScriptLint

/-! ### Blocks -/

/-- What bears one label stands together in a list of blocks with labels that differ. -/
theorem filter_flatMap_infix {ι α β : Type} [DecidableEq β] {blocks : List ι} {f : ι → List α}
    {label : α → β} {key : ι → β} (hlabel : ∀ i ∈ blocks, ∀ a ∈ f i, label a = key i)
    (hkey : blocks.Pairwise fun i j => key i ≠ key j) (x : β) :
    (blocks.flatMap f).filter (fun a => label a = x) <:+: blocks.flatMap f := by
  induction blocks with
  | nil => exact List.nil_infix
  | cons i blocks ih =>
    rw [List.forall_mem_cons] at hlabel
    rw [List.pairwise_cons] at hkey
    rw [List.flatMap_cons, List.filter_append]
    -- Either the first block is all that bears the label, or it bears another one.
    by_cases hi : key i = x
    · have hblock : (f i).filter (fun a => label a = x) = f i := by
        rw [List.filter_eq_self]
        intro a ha
        simp [hlabel.1 a ha, hi]
      have hrest : (blocks.flatMap f).filter (fun a => label a = x) = [] := by
        rw [List.filter_eq_nil_iff]
        intro a ha
        obtain ⟨j, hj, ha⟩ := List.mem_flatMap.mp ha
        rw [hlabel.2 j hj a ha, ← hi]
        simpa using (hkey.1 j hj).symm
      rw [hblock, hrest, List.append_nil]
      exact (List.prefix_append _ _).isInfix
    · have hblock : (f i).filter (fun a => label a = x) = [] := by
        rw [List.filter_eq_nil_iff]
        intro a ha
        simpa [hlabel.1 a ha] using hi
      rw [hblock, List.nil_append]
      exact (ih hlabel.2 hkey.2).trans (List.suffix_append _ _).isInfix

/-- A list without repetitions is in the order of its own positions. -/
theorem pairwise_idxOf_lt {α : Type} [BEq α] [LawfulBEq α] {as : List α} (h : as.Nodup) :
    as.Pairwise fun a b => as.idxOf a < as.idxOf b := by
  rw [List.pairwise_iff_getElem]
  intro i j hi hj hij
  rw [h.idxOf_getElem i hi, h.idxOf_getElem j hj]
  exact hij

/-! ### Findings in order -/

/-- Whether a shown path comes before another, component by component. -/
def Path.Precedes (a b : Bytes) : Prop :=
  Path.componentsLt (splitBytes Path.slash a) (splitBytes Path.slash b) = true

theorem Path.Precedes.not_precedes {a b : Bytes} (h : Path.Precedes a b) : ¬ Path.Precedes b a := by
  rw [Path.Precedes, Path.componentsLt_iff] at h ⊢
  exact lt_asymm h

theorem Path.not_precedes_self (a : Bytes) : ¬ Path.Precedes a a :=
  fun h => h.not_precedes h

theorem Path.Precedes.ne {a b : Bytes} (h : Path.Precedes a b) : a ≠ b := by
  rintro rfl
  exact Path.not_precedes_self a h

/-- Whether findings are in order: their files never go back, what is found in one file stands
together, and within it the rules are in the order of some names. -/
structure InOrder (names : List Bytes) (ds : List Diagnostic) : Prop where
  files : ds.Pairwise fun a b => ¬ Path.Precedes b.file a.file
  together : ∀ file, ds.filter (fun d => d.file = file) <:+: ds
  rules : ds.Pairwise fun a b => a.file = b.file → names.idxOf a.rule ≤ names.idxOf b.rule

theorem path_of_readScript {w : World} {root path : Bytes} {s : Script}
    (h : readScript w root path = .ok s) :
    s.path = Path.display w.cwd root (Path.absolute w.cwd path) := by
  unfold readScript at h
  split at h
  · exact absurd h (by simp)
  · split at h
    · exact absurd h (by simp)
    · obtain rfl := Except.ok.inj h
      rfl

namespace Runner

variable {r : Runner} {w : World}

/-- What is found in a file names the file as it is shown. -/
theorem file_of_mem_fileFindings (hr : r.IsStandard) {path : Bytes} {d : Diagnostic}
    (h : d ∈ r.fileFindings w path) :
    d.file = Path.display w.cwd r.root (Path.absolute w.cwd path) := by
  unfold fileFindings at h
  split at h
  · next s hs =>
    obtain ⟨rule, hrule, hd⟩ := List.mem_flatMap.mp h
    rw [(names_of_mem_ruleFindings (hr rule hrule) hd).1, path_of_readScript hs]
  · exact absurd h List.not_mem_nil

/-- What is found in a script is in the order of the rules. -/
theorem pairwise_flatMap_ruleFindings (hr : r.IsStandard) (hnames : (r.rules.map (·.name)).Nodup)
    (s : Script) :
    (r.rules.flatMap (r.ruleFindings s)).Pairwise fun a b =>
      (r.rules.map (·.name)).idxOf a.rule ≤ (r.rules.map (·.name)).idxOf b.rule := by
  rw [List.pairwise_flatMap]
  constructor
  · intro rule hrule
    refine List.pairwise_of_forall_mem_list fun a ha b hb => ?_
    rw [(names_of_mem_ruleFindings (hr rule hrule) ha).2,
      (names_of_mem_ruleFindings (hr rule hrule) hb).2]
  · refine (List.pairwise_map.mp (pairwise_idxOf_lt hnames)).imp_of_mem ?_
    intro rule rule' hrule hrule' hlt a ha b hb
    rw [(names_of_mem_ruleFindings (hr rule hrule) ha).2,
      (names_of_mem_ruleFindings (hr rule' hrule') hb).2]
    exact hlt.le

/-- **Files in the order of their shown paths have findings in order.** -/
theorem inOrder_flatMap_fileFindings (hr : r.IsStandard) (hnames : (r.rules.map (·.name)).Nodup)
    {paths : List Bytes}
    (hpaths : paths.Pairwise fun a b =>
      Path.Precedes (Path.display w.cwd r.root (Path.absolute w.cwd a))
        (Path.display w.cwd r.root (Path.absolute w.cwd b))) :
    InOrder (r.rules.map (·.name)) (paths.flatMap (r.fileFindings w)) where
  files := by
    rw [List.pairwise_flatMap]
    constructor
    · intro path _
      refine List.pairwise_of_forall_mem_list fun a ha b hb => ?_
      rw [file_of_mem_fileFindings hr ha, file_of_mem_fileFindings hr hb]
      exact Path.not_precedes_self _
    · -- Of findings in two files the earlier one is in the earlier file.
      refine hpaths.imp ?_
      intro path path' hlt a ha b hb
      rw [file_of_mem_fileFindings hr ha, file_of_mem_fileFindings hr hb]
      exact hlt.not_precedes
  together := filter_flatMap_infix (fun _ _ _ => file_of_mem_fileFindings hr)
    (hpaths.imp fun h => h.ne)
  rules := by
    rw [List.pairwise_flatMap]
    constructor
    · intro path _
      unfold fileFindings
      split
      · next s _ =>
        refine (pairwise_flatMap_ruleFindings hr hnames s).imp ?_
        intro a b hle _
        exact hle
      · exact .nil
    · refine hpaths.imp ?_
      intro path path' hlt a ha b hb hsame
      rw [file_of_mem_fileFindings hr ha, file_of_mem_fileFindings hr hb] at hsame
      exact absurd hsame hlt.ne

end Runner

theorem atPositions_sublist (paths : List Bytes) (positions : Finset (Fin paths.length)) :
    (atPositions paths positions).Sublist paths := by
  have hsub := List.filter_sublist (l := List.finRange paths.length) (p := (· ∈ positions))
  have hmap := hsub.map paths.get
  rwa [List.map_get_finRange] at hmap

/-- **A run over files in the order of their shown paths reports in order**, however it goes and
whenever it is cancelled. -/
theorem Runner.inOrder_runUnder {r : Runner} {w : World} (hr : r.IsStandard)
    (hnames : (r.rules.map (·.name)).Nodup) {paths : List Bytes}
    (hpaths : paths.Pairwise fun a b =>
      Path.Precedes (Path.display w.cwd r.root (Path.absolute w.cwd a))
        (Path.display w.cwd r.root (Path.absolute w.cwd b)))
    {s : Schedule} (hs : r.Completes w s paths) :
    InOrder (r.rules.map (·.name)) (r.runUnder w s paths).diagnostics := by
  by_cases hnone : (r.runUnder w s paths).crash? = none
  · rw [(r.gives_runUnder_begun w hs).diagnostics hnone]
    exact inOrder_flatMap_fileFindings hr hnames (hpaths.sublist (atPositions_sublist _ _))
  · rw [(Outcome.eq_nil_of_crash? hnone).1]
    exact ⟨.nil, fun _ => List.infix_rfl, .nil⟩

end ScriptLint
