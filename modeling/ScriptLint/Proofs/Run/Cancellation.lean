import ScriptLint.Proofs.Run.Concatenation
import Mathlib.Data.Fintype.Basic
import Mathlib.Data.List.FinRange

/-!
# Runs that are cancelled

A file that has been begun is checked to its end, and the others are not begun once the run is
cancelled. So whenever that happens, a run gives what the files begun before it give
(`Runner.begun`), each of them whole and in order, and reports the cancellation once, at the end, if
a file is left out. With several workers the proof is an invariant: from the cancellation on no
event changes which tasks have begun (`Pool.Move.hasBegun_eq`), and when all are at their end these
are the finished ones.
-/

namespace ScriptLint

/-- Whether a task has begun its work. Nothing but its end can follow then. -/
def Stage.isBegun : Stage → Bool
  | .working | .finished => true
  | _ => false

/-- Whether a run is cancelled before anything else happens. -/
def Schedule.CancelledFirst (s : Schedule) : Prop :=
  s.cancelAfter = some 0 ∧ s.events.head? = some .cancel

namespace Pool

variable {α : Type} {limit n : Nat} {result : Nat → α}

/-- Whether the task of a position has begun its work. -/
def hasBegun (p : Pool α) (i : Nat) : Bool := p.stages[i]?.any Stage.isBegun

/-! ### After the cancellation -/

/-- A task that comes to another stage without beginning its work does not show in which tasks have
begun. -/
theorem any_isBegun_set {stages : List Stage} {j : Nat} {old : Stage} (new : Stage)
    (h : stages[j]? = some old) (hsame : new.isBegun = old.isBegun) (i : Nat) :
    (stages.set j new)[i]?.any Stage.isBegun = stages[i]?.any Stage.isBegun := by
  rw [List.getElem?_set]
  by_cases hij : j = i
  · subst hij
    have hj := (List.getElem?_eq_some_iff.mp h).1
    rw [if_pos rfl, if_pos hj, h]
    exact hsame
  · rw [if_neg hij]

theorem Move.cancelled_of_cancelled {p p' : Pool α} {e : PoolEvent} (m : Move limit result p e p')
    (dead : p.cancelled = true) : p'.cancelled = true := by
  cases m with
  | cancel => rfl
  | _ => exact dead

/-- **In a run that has been cancelled no task begins its work.** -/
theorem Move.hasBegun_eq {p p' : Pool α} {e : PoolEvent} (m : Move limit result p e p')
    (dead : p.cancelled = true) (i : Nat) : p'.hasBegun i = p.hasBegun i := by
  cases m with
  | idle => rfl
  | start j free stage => exact any_isBegun_set .started stage rfl i
  | work j live stage =>
    rw [live] at dead
    exact absurd dead Bool.false_ne_true
  | giveUp j _ stage => exact any_isBegun_set .gaveUp stage rfl i
  | finish j stage => exact any_isBegun_set .finished stage rfl i
  | cancel => rfl

theorem hasBegun_foldl (events : List PoolEvent) {p : Pool α} (dead : p.cancelled = true)
    (i : Nat) : (events.foldl (step limit result) p).hasBegun i = p.hasBegun i := by
  induction events generalizing p with
  | nil => rfl
  | cons e es ih =>
    have m := step_move limit result p e
    rw [List.foldl_cons, ih (m.cancelled_of_cancelled dead), m.hasBegun_eq dead]

/-- The tasks that begin their work begin it before the run is cancelled. -/
theorem hasBegun_foldl_takeWhile (events : List PoolEvent) (p : Pool α) (i : Nat) :
    (events.foldl (step limit result) p).hasBegun i
      = ((events.takeWhile (· ≠ .cancel)).foldl (step limit result) p).hasBegun i := by
  induction events generalizing p with
  | nil => rfl
  | cons e es ih =>
    by_cases he : e = .cancel
    · -- The events are cut off here, and those behind it let nothing begin.
      subst he
      rw [List.foldl_cons, hasBegun_foldl es rfl]
      simp [step, hasBegun]
    · rw [List.foldl_cons, ih, List.takeWhile_cons_of_pos (by simpa using he), List.foldl_cons]

/-- At its end a task has begun its work exactly if it is finished. -/
theorem hasBegun_iff_of_isOver {p : Pool α} (hend : p.isOver = true) (i : Nat) :
    p.hasBegun i = true ↔ p.stages[i]? = some .finished := by
  rw [hasBegun]
  cases hs : p.stages[i]? with
  | none => simp
  | some stage =>
    have hover := List.all_eq_true.mp hend stage (List.mem_of_getElem? hs)
    cases stage with
    | finished => simp [Stage.isBegun]
    | gaveUp => simp [Stage.isBegun]
    | _ => exact absurd hover (by decide)

/-- A run that is at its end has a task that gave up exactly if not all have begun their work. -/
theorem gaveUp_run_iff_of_isOver {events : List PoolEvent}
    (hend : (run limit n result events).isOver = true) :
    (run limit n result events).gaveUp = true ↔
      ∃ i < n, (run limit n result events).hasBegun i = false := by
  have c := consistent_run limit n result events
  rw [c.gaveUp_iff, List.mem_iff_getElem?]
  constructor
  · rintro ⟨i, hi⟩
    refine ⟨i, ?_, ?_⟩
    · rw [← c.stages_length]
      exact (List.getElem?_eq_some_iff.mp hi).1
    · rw [hasBegun, hi]
      rfl
  · rintro ⟨i, hi, hnot⟩
    rw [← c.stages_length] at hi
    refine ⟨i, ?_⟩
    have hover := List.all_eq_true.mp hend _ (List.getElem_mem hi)
    rw [hasBegun, List.getElem?_eq_getElem hi] at hnot
    rw [List.getElem?_eq_getElem hi]
    -- What is over without having begun has given up.
    cases hs : (run limit n result events).stages[i] with
    | gaveUp => rfl
    | finished => rw [hs] at hnot; exact absurd hnot (by decide)
    | _ => rw [hs] at hover; exact absurd hover (by decide)

end Pool

/-! ### Files at some positions -/

/-- The paths at some positions of a list, in order. -/
def atPositions (paths : List Bytes) (positions : Finset (Fin paths.length)) : List Bytes :=
  ((List.finRange paths.length).filter (· ∈ positions)).map paths.get

theorem atPositions_univ (paths : List Bytes) : atPositions paths Finset.univ = paths := by
  simp only [atPositions, Finset.mem_univ, decide_true, List.filter_true]
  exact List.map_get_finRange paths

theorem mem_of_mem_atPositions {paths : List Bytes} {positions : Finset (Fin paths.length)}
    {path : Bytes} (h : path ∈ atPositions paths positions) : path ∈ paths := by
  obtain ⟨i, -, rfl⟩ := List.mem_map.mp h
  exact List.get_mem paths i

/-- The first positions are those of the first paths. -/
theorem atPositions_lt (paths : List Bytes) (k : Nat) :
    atPositions paths (Finset.univ.filter fun i => i.val < k) = paths.take k := by
  simp only [atPositions, Finset.mem_filter, Finset.mem_univ, true_and]
  induction paths generalizing k with
  | nil => simp
  | cons path paths ih =>
    cases k with
    | zero => simp
    | succ k =>
      -- The first position is kept, and the others are those of the rest, moved up by one.
      have hrange : List.finRange (path :: paths).length
          = 0 :: (List.finRange paths.length).map Fin.succ := List.finRange_succ
      rw [hrange, List.filter_cons_of_pos (by simp), List.map_cons, List.take_succ_cons,
        List.filter_map, List.map_map, ← ih k]
      simp [Function.comp_def]

namespace Runner

variable (r : Runner) (w : World) {s : Schedule} {paths : List Bytes}

/-- The positions of the files that a run begins before it is cancelled. -/
def begun (s : Schedule) (paths : List Bytes) : Finset (Fin paths.length) :=
  if r.isParallel paths then
    Finset.univ.filter fun i =>
      (r.pool w (s.events.takeWhile (· ≠ .cancel)) paths).hasBegun i = true
  else Finset.univ.filter fun i => s.cancelAfter.all (i.val < ·) = true

/-! ### Files one by one -/

/-- A run that is cancelled after some files is one over these files, and then reports the
cancellation if there is a file left. -/
theorem runInOrder_some (k : Nat) (paths : List Bytes) :
    r.runInOrder w (some k) paths
      = r.runInOrder w none (paths.take k)
        ++ if k < paths.length then .failed .cancelled else {} := by
  induction paths generalizing k with
  | nil => simp only [List.length_nil, Nat.not_lt_zero, if_false, List.take_nil]; rfl
  | cons path paths ih =>
    cases k with
    | zero => rfl
    | succ k =>
      have hsome : r.runInOrder w (some (k + 1)) (path :: paths)
          = r.checkPath w true path ++ r.runInOrder w (some k) paths := rfl
      have hnone : r.runInOrder w none (path :: paths.take k)
          = r.checkPath w true path ++ r.runInOrder w none (paths.take k) := rfl
      rw [hsome, ih, List.take_succ_cons, hnone, Outcome.append_assoc]
      simp only [List.length_cons, Nat.add_lt_add_iff_right]

/-- Files that are checked one by one: those that are begun, and the cancellation if these are not
all. -/
theorem runInOrder_eq_begun (hp : r.isParallel paths = false) :
    r.runInOrder w s.cancelAfter paths
      = r.runInOrder w none (atPositions paths (r.begun w s paths))
        ++ if r.begun w s paths = Finset.univ then {} else .failed .cancelled := by
  rw [begun, hp]
  simp only [Bool.false_eq_true, if_false]
  cases s.cancelAfter with
  | none =>
    simp only [Option.all_none, Finset.filter_true, if_true, atPositions_univ]
    exact (Outcome.append_empty _).symm
  | some k =>
    have hall : Finset.univ.filter (fun i : Fin paths.length => i.val < k) = Finset.univ
        ↔ ¬ k < paths.length := by
      rw [Finset.filter_eq_self]
      constructor
      · intro h hk
        exact Nat.lt_irrefl k (h ⟨k, hk⟩ (Finset.mem_univ _))
      · intro hk i _
        omega
    simp only [Option.all_some, decide_eq_true_eq, atPositions_lt, hall, ite_not]
    exact r.runInOrder_some w k paths

/-! ### Several workers -/

/-- With several workers the files that are begun at all are begun before the cancellation. -/
theorem mem_begun_iff_hasBegun (hp : r.isParallel paths = true) (i : Fin paths.length) :
    i ∈ r.begun w s paths ↔ (r.pool w s.events paths).hasBegun i = true := by
  have hbefore : (r.pool w s.events paths).hasBegun i
      = (r.pool w (s.events.takeWhile (· ≠ .cancel)) paths).hasBegun i :=
    Pool.hasBegun_foldl_takeWhile s.events _ i
  rw [begun, if_pos hp, Finset.mem_filter, hbefore]
  exact and_iff_right (Finset.mem_univ i)

/-- What several workers have stored at their end are the outcomes of the files that are begun. -/
theorem results_pool_begun (hp : r.isParallel paths = true)
    (hend : (r.pool w s.events paths).isOver = true) :
    (r.pool w s.events paths).results
      = (atPositions paths (r.begun w s paths)).map (r.checkPath w false) := by
  have hfinished (i : Fin paths.length) :
      (r.pool w s.events paths).stages[i.val]? = some .finished ↔ i ∈ r.begun w s paths := by
    rw [r.mem_begun_iff_hasBegun w hp, Pool.hasBegun_iff_of_isOver hend]
  have hresults := Pool.results_run (r.limit paths) paths.length
    (fun i => r.checkPath w false (paths.getD i [])) s.events
  rw [← pool] at hresults
  rw [hresults, ← List.map_coe_finRange_eq_range, List.filter_map, List.map_map, atPositions,
    List.map_map]
  simp only [Function.comp_def, hfinished]
  refine List.map_congr_left fun i _ => ?_
  rw [List.getD_eq_getElem?_getD, List.getElem?_eq_getElem i.isLt]
  rfl

/-- With several workers a task gives up exactly if not all files are begun. -/
theorem gaveUp_pool_iff (hp : r.isParallel paths = true)
    (hend : (r.pool w s.events paths).isOver = true) :
    (r.pool w s.events paths).gaveUp = true ↔ r.begun w s paths ≠ Finset.univ := by
  have hgave : (r.pool w s.events paths).gaveUp = true ↔
      ∃ i < paths.length, (r.pool w s.events paths).hasBegun i = false :=
    Pool.gaveUp_run_iff_of_isOver hend
  rw [hgave, Ne, Finset.eq_univ_iff_forall, not_forall]
  constructor
  · rintro ⟨i, hi, hnot⟩
    refine ⟨⟨i, hi⟩, ?_⟩
    rw [r.mem_begun_iff_hasBegun w hp, hnot]
    exact Bool.false_ne_true
  · rintro ⟨i, hnot⟩
    rw [r.mem_begun_iff_hasBegun w hp, Bool.not_eq_true] at hnot
    exact ⟨i, i.isLt, hnot⟩

/-! ### Runs under every schedule -/

/-- **A run comes to what the files come to that it begins**, each of them checked to its end, and
behind that to the cancellation if it does not begin all. -/
theorem runUnder_eq_begun (c : r.Completes w s paths) :
    r.runUnder w s paths = .logged r.rulesLine ++
      (r.checkAll w (r.isParallel paths) (atPositions paths (r.begun w s paths))
        ++ if r.begun w s paths = Finset.univ then {} else .failed .cancelled) := by
  unfold runUnder checkAll
  cases hp : r.isParallel paths with
  | false =>
    simp only [Bool.false_eq_true, if_false, r.runInOrder_eq_begun w hp]
  | true =>
    have hgave := r.gaveUp_pool_iff w hp (c hp)
    simp only [if_true, runTogether, r.results_pool_begun w hp (c hp), hgave, ne_eq, ite_not]

/-- What a run gives are the findings and errors of the files that it begins, and the cancellation
behind the errors if it does not begin all. -/
theorem gives_runUnder_begun (c : r.Completes w s paths) :
    (r.runUnder w s paths).Gives
      ((atPositions paths (r.begun w s paths)).flatMap (r.fileFindings w))
      ((atPositions paths (r.begun w s paths)).flatMap (r.fileErrors w)
        ++ if r.begun w s paths = Finset.univ then [] else [.cancelled]) := by
  have hcancelled : (if r.begun w s paths = Finset.univ then {} else
      Outcome.failed .cancelled).Gives []
        (if r.begun w s paths = Finset.univ then [] else [.cancelled]) := by
    split_ifs
    · exact Outcome.gives_empty
    · exact Outcome.gives_failed .cancelled
  have hfiles := r.gives_checkAll w (r.isParallel paths) (atPositions paths (r.begun w s paths))
  have hall := (Outcome.gives_logged r.rulesLine).append (hfiles.append hcancelled)
  rw [← r.runUnder_eq_begun w c] at hall
  simpa only [List.nil_append, List.append_nil] using hall

/-- What a run passes on are the findings of the files that it begins. -/
theorem passesOn_runUnder_begun (c : r.Completes w s paths) :
    (r.runUnder w s paths).PassesOn
      ((atPositions paths (r.begun w s paths)).flatMap (r.fileFindings w)) := by
  have hcancelled : (if r.begun w s paths = Finset.univ then {} else
      Outcome.failed .cancelled).PassesOn [] := by
    split_ifs <;> exact Outcome.passesOn_nil rfl
  have hfiles := r.passesOn_checkAll w (r.isParallel paths) (atPositions paths (r.begun w s paths))
  have hall := (Outcome.passesOn_nil (o := .logged r.rulesLine) rfl).append
    (hfiles.append hcancelled)
  rw [← r.runUnder_eq_begun w c] at hall
  simpa only [List.nil_append, List.append_nil] using hall

/-- A run has a result exactly if none of the scripts that it begins stops the program. -/
theorem crash?_runUnder_begun (c : r.Completes w s paths) :
    (r.runUnder w s paths).crash? = none ↔
      ∀ path ∈ atPositions paths (r.begun w s paths), ∀ script,
        readScript w r.root path = .ok script → ¬ r.StopsOn script := by
  rw [(r.gives_runUnder_begun w c).crash?_eq_none_iff, List.forall_mem_append,
    ← r.forall_isFatal_fileErrors_iff w]
  refine and_iff_left ?_
  split_ifs
  · exact fun e he => absurd he List.not_mem_nil
  · exact List.forall_mem_singleton.mpr rfl

/-! ### When files are begun -/

theorem begun_of_uncancelled (h : s.Uncancelled) (c : r.Completes w s paths) :
    r.begun w s paths = Finset.univ := by
  cases hp : r.isParallel paths with
  | true =>
    by_contra hall
    have hgave := (r.gaveUp_pool_iff w hp (c hp)).mpr hall
    rw [pool, Pool.gaveUp_run h.2] at hgave
    exact Bool.false_ne_true hgave
  | false =>
    rw [begun, hp, h.1]
    simp

theorem begun_of_cancelledFirst (h : s.CancelledFirst) : r.begun w s paths = ∅ := by
  obtain ⟨events, hevents⟩ := List.head?_eq_some_iff.mp h.2
  have hnone (i : Nat) : (r.pool w [] paths).hasBegun i = false := by
    simp only [pool, Pool.run, List.foldl_nil, Pool.initial, Pool.hasBegun,
      List.getElem?_replicate]
    split_ifs <;> rfl
  rw [begun, h.1, hevents, List.takeWhile_cons_of_neg (by decide)]
  simp [hnone]

/-- **A run that is cancelled has checked some of its files to their end and the others not at all,
and reports that once.** Whenever the cancellation comes, the findings, those passed on and the
errors are what some of the files give, in order: the first ones when they are checked one by one.
The cancellation follows as the last error exactly if a file is left out; none is when the run is
never cancelled, and all are when it is cancelled before it starts. The run has this result unless
the settings for one of the files that it checks stop the program, and then only the first findings
of these files have been passed on. Whatever has happened so far, the run can be brought to its
end. -/
theorem runUnder_checks_whole_files (r : Runner) (w : World) (paths : List Bytes) :
    (∀ s : Schedule, r.Completes w s paths → ∃ S : Finset (Fin paths.length),
      (r.isParallel paths = false → ∃ k, ∀ i : Fin paths.length, i ∈ S ↔ i.val < k) ∧
      (s.Uncancelled → S = Finset.univ) ∧ (s.CancelledFirst → S = ∅) ∧
      ((r.runUnder w s paths).crash? = none ↔ ∀ path ∈ atPositions paths S, ∀ script,
        readScript w r.root path = .ok script → ¬ r.StopsOn script) ∧
      ((r.runUnder w s paths).crash? = none →
        (r.runUnder w s paths).diagnostics = (atPositions paths S).flatMap (r.fileFindings w) ∧
        (r.runUnder w s paths).emitted = (atPositions paths S).flatMap (r.fileFindings w) ∧
        (r.runUnder w s paths).errors = (atPositions paths S).flatMap (r.fileErrors w)
          ++ (if S = Finset.univ then [] else [.cancelled])) ∧
      (r.runUnder w s paths).emitted <+: (atPositions paths S).flatMap (r.fileFindings w)) ∧
    ∀ s : Schedule, ∃ more : List PoolEvent, .cancel ∉ more ∧
      r.Completes w { s with events := s.events ++ more } paths := by
  constructor
  · intro s c
    have hgives := r.gives_runUnder_begun w c
    have hpassed := r.passesOn_runUnder_begun w c
    refine ⟨r.begun w s paths, ?_, fun h => r.begun_of_uncancelled w h c,
      r.begun_of_cancelledFirst w, r.crash?_runUnder_begun w c,
      fun h => ⟨hgives.diagnostics h, hpassed.all h, hgives.errors h⟩, hpassed.first⟩
    intro hp
    rw [begun, hp]
    cases s.cancelAfter with
    | none => exact ⟨paths.length, fun i => by simp⟩
    | some k => exact ⟨k, fun i => by simp⟩
  · exact fun s => r.exists_completes w s paths

/-- Two workers on three files, cancelled while the second file is being checked and before the
first one is begun. -/
theorem runUnder_checks_whole_files_second_only :
    let r : Runner := { rules := [.always [0x72] [0x6D]], jobs := 2 }
    let w : World := ⟨.dir [([0x61], .file []), ([0x62], .file []), ([0x63], .file [])], []⟩
    let s : Schedule :=
      { events := [.start, .start, .look 1, .cancel, .look 0, .start, .finish 1, .look 2] }
    let paths : List Bytes := [[0x2F, 0x61], [0x2F, 0x62], [0x2F, 0x63]]
    r.Completes w s paths ∧ (r.runUnder w s paths).crash? = none ∧
      ∃ S : Finset (Fin paths.length),
        (r.runUnder w s paths).diagnostics = (atPositions paths S).flatMap (r.fileFindings w) ∧
        (r.runUnder w s paths).errors = (atPositions paths S).flatMap (r.fileErrors w)
          ++ (if S = Finset.univ then [] else [.cancelled]) := by
  intro r w s paths
  have hc : r.Completes w s paths := fun _ => by decide
  have hnone : (r.runUnder w s paths).crash? = none := by decide
  obtain ⟨S, -, -, -, -, hgiven, -⟩ := (runUnder_checks_whole_files r w paths).1 s hc
  obtain ⟨hfindings, -, herrors⟩ := hgiven hnone
  exact ⟨hc, hnone, S, hfindings, herrors⟩

/-- A file under a version that is no text: the finding of the first of three rules is passed on,
the second stops the program, and the finding of the third is lost. There is no result, and what was
passed on is neither nothing nor all that the file gives. -/
theorem crash_cuts_file :
    let settings : Settings := [(bytes "version", .text [0xFF])]
    let r : Runner :=
      { config := { rules := [(versionRuleName, { enabled := true, settings := some settings })] }
        rules := [TrailingNewline.rule, RequireVersion.rule, RequireWarn.rule] }
    let w : World := ⟨.dir [(bytes "a", .file (bytes "x"))], []⟩
    let run := r.run w false [bytes "/a"]
    run.crash?.isSome = true ∧ run.emitted.length = 1 ∧
      (r.fileFindings w (bytes "/a")).length = 2 := by
  decide

end Runner

end ScriptLint
