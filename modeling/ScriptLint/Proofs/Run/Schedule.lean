import ScriptLint.Proofs.Run.Outcome
import ScriptLint.Proofs.Run.Pool

/-!
# Runs under every schedule

A run with several workers stores what comes of each file by position and passes the findings on
when all files are done; a run without them passes on each finding as it comes up. Under every
schedule that is not cancelled and comes to its end both come to what their files come to in order
(`Runner.runUnder_eq_checkAll`), so that neither the number of workers nor the order of events shows
in a result. Where the program stops the number of workers does show: in what has been passed on
until then (`Runner.workers_show_at_crash`).
-/

namespace ScriptLint

/-- Whether nothing cancels a run. -/
def Schedule.Uncancelled (s : Schedule) : Prop :=
  s.cancelAfter = none ∧ .cancel ∉ s.events

namespace Pool

variable {α : Type} {limit : Nat} (result : Nat → α)

/-- The stages when the first so many tasks are finished and the others wait. -/
def stagesAfter (n k : Nat) : List Stage :=
  List.replicate k .finished ++ List.replicate (n - k) .waiting

/-- One task that starts, looks and finishes while no other is running. -/
theorem stages_foldl_task (hlimit : 0 < limit) {n k : Nat} (hk : k < n) {p : Pool α}
    (hstages : p.stages = stagesAfter n k) (hlive : p.cancelled = false) :
    ([.start, .look k, .finish k].foldl (step limit result) p).stages = stagesAfter n (k + 1) := by
  have hsplit : stagesAfter n k
      = List.replicate k .finished ++ .waiting :: List.replicate (n - (k + 1)) .waiting := by
    rw [stagesAfter, show n - k = n - (k + 1) + 1 by omega, List.replicate_succ]
  have hset (s t : Stage) (rest : List Stage) :
      (List.replicate k Stage.finished ++ s :: rest).set k t
        = List.replicate k .finished ++ t :: rest := by
    rw [List.set_append_right _ _ (by simp)]
    simp
  have hget (s : Stage) (rest : List Stage) :
      (List.replicate k Stage.finished ++ s :: rest)[k]? = some s := by
    rw [List.getElem?_append_right (by simp)]
    simp
  have hfree : p.running < limit := by
    rw [running, hstages, stagesAfter, List.countP_append, List.countP_replicate,
      List.countP_replicate]
    simpa [Stage.isRunning] using hlimit
  have hnext : (stagesAfter n k).findIdx? (· = .waiting) = some k := by
    rw [hsplit, List.findIdx?_append]
    simp [List.findIdx?_replicate, List.findIdx?_cons]
  -- The three events in turn, each on the stages that the one before has left.
  simp only [List.foldl_cons, List.foldl_nil, step, hfree, if_true, hstages, hnext]
  simp only [hsplit, hset, hget, hlive, if_true, Bool.false_eq_true, if_false]
  rw [stagesAfter, List.replicate_succ', List.append_assoc, List.singleton_append]

/-- Tasks that come to their end one after the other. -/
theorem run_inOrder_stages (hlimit : 0 < limit) {n k : Nat} (hk : k ≤ n) :
    (run limit n result (inOrder k)).stages = stagesAfter n k := by
  induction k with
  | zero => simp [run, inOrder, initial, stagesAfter]
  | succ k ih =>
    have hsplit : inOrder (k + 1) = inOrder k ++ [.start, .look k, .finish k] := by
      rw [inOrder, List.range_succ, List.flatMap_append, inOrder]
      rfl
    have hlive : (run limit n result (inOrder k)).cancelled = false :=
      cancelled_run (by simp [inOrder])
    rw [run, hsplit, List.foldl_append]
    exact stages_foldl_task result hlimit (by omega) (ih (by omega)) hlive

theorem isOver_run_inOrder (hlimit : 0 < limit) (n : Nat) :
    (run limit n result (inOrder n)).isOver = true := by
  rw [isOver, run_inOrder_stages result hlimit (Nat.le_refl n), stagesAfter, Nat.sub_self]
  simp [List.all_replicate, Stage.isOver]

end Pool

namespace Runner

variable (r : Runner) (w : World)

/-- Whether a schedule brings a run to its end: several workers must have done every file. -/
def Completes (s : Schedule) (paths : List Bytes) : Prop :=
  r.isParallel paths = true → (r.pool w s.events paths).isOver = true

/-- Several workers are at least two. -/
theorem limit_pos {paths : List Bytes} (h : r.isParallel paths = true) : 0 < r.limit paths := by
  simp only [isParallel, Bool.and_eq_true, decide_eq_true_eq] at h
  simp only [limit]
  omega

/-- The results of several workers in an uncancelled run that has come to its end. -/
theorem results_pool {events : List PoolEvent} {paths : List Bytes} (h : .cancel ∉ events)
    (hend : (r.pool w events paths).isOver = true) :
    (r.pool w events paths).results = paths.map (r.checkPath w false) := by
  rw [pool, Pool.results_run_of_isOver h hend]
  apply List.ext_getElem?
  intro i
  by_cases hi : i < paths.length
  · simp [hi]
  · rw [List.getElem?_eq_none (by simpa using hi), List.getElem?_eq_none (by simpa using hi)]

/-- Whatever has happened so far, a run can be brought to its end without cancelling it. -/
theorem exists_completes (s : Schedule) (paths : List Bytes) :
    ∃ more : List PoolEvent, .cancel ∉ more ∧
      r.Completes w { s with events := s.events ++ more } paths := by
  by_cases hp : r.isParallel paths = true
  · obtain ⟨more, hmore, hover⟩ :=
      Pool.exists_isOver (r.limit_pos hp) paths.length
        (fun i => r.checkPath w false (paths.getD i [])) s.events
    exact ⟨more, hmore, fun _ => hover⟩
  · exact ⟨[], List.not_mem_nil, fun h => absurd h hp⟩

/-! ### Uncancelled runs -/

variable {s : Schedule} {paths : List Bytes}

/-- **A run comes to what its files come to**, under every schedule. -/
theorem runUnder_eq_checkAll (h : s.Uncancelled) (c : r.Completes w s paths) :
    r.runUnder w s paths = .logged r.rulesLine ++ r.checkAll w (r.isParallel paths) paths := by
  unfold runUnder checkAll
  refine congrArg (Outcome.logged r.rulesLine ++ ·) ?_
  split_ifs with hp
  · have hgave : (r.pool w s.events paths).gaveUp = false := Pool.gaveUp_run h.2
    simp only [runTogether, hgave, Bool.false_eq_true, if_false, r.results_pool w h.2 (c hp),
      Outcome.append_empty]
  · rw [h.1]

/-- A run is given by the findings and the errors of its files in order, under every schedule. -/
theorem gives_runUnder (h : s.Uncancelled) (c : r.Completes w s paths) :
    (r.runUnder w s paths).Gives (paths.flatMap (r.fileFindings w))
      (paths.flatMap (r.fileErrors w)) := by
  rw [r.runUnder_eq_checkAll w h c]
  exact (Outcome.gives_logged r.rulesLine).append (r.gives_checkAll w _ paths)

/-- A run passes on the findings of its files in order, under every schedule. -/
theorem passesOn_runUnder (h : s.Uncancelled) (c : r.Completes w s paths) :
    (r.runUnder w s paths).PassesOn (paths.flatMap (r.fileFindings w)) := by
  rw [r.runUnder_eq_checkAll w h c]
  exact (Outcome.passesOn_nil (o := .logged r.rulesLine) rfl).append (r.passesOn_checkAll w _ paths)

/-- Several workers pass nothing on where the program stops. -/
theorem emitted_runUnder_of_isParallel (hp : r.isParallel paths = true)
    (hcrash : (r.runUnder w s paths).crash? ≠ none) : (r.runUnder w s paths).emitted = [] := by
  rw [runUnder, if_pos hp] at hcrash ⊢
  obtain ⟨hsame, -, -, hemitted⟩ :=
    Outcome.logged_append r.rulesLine (r.runTogether w s.events paths)
  rw [hsame] at hcrash
  rw [hemitted]
  unfold runTogether at hcrash ⊢
  dsimp only at hcrash ⊢
  generalize Outcome.join (r.pool w s.events paths).results = joined at hcrash ⊢
  cases hresult : joined.result with
  | error message =>
    have hstopped : joined.withAllEmitted.result = .error message := hresult
    rw [Outcome.append_of_error hstopped]
    exact (Outcome.eq_nil_of_crash? (by simp [Outcome.crash?, hresult])).1
  | ok r =>
    -- The cancellation is reported and does not stop the program.
    refine absurd ?_ hcrash
    have hgiven : joined.withAllEmitted.crash? = none := by
      rw [Outcome.crash?_eq_none_iff]
      exact ⟨r, hresult⟩
    rw [Outcome.crash?_append, hgiven, Option.none_or]
    split_ifs <;> rfl

/-- The plain schedule does not cancel. -/
theorem uncancelled_plain (n : Nat) : (Schedule.plain false n).Uncancelled :=
  ⟨rfl, by simp [Schedule.plain, Pool.inOrder]⟩

/-- The plain schedule brings every run to its end. -/
theorem completes_plain (paths : List Bytes) :
    r.Completes w (.plain false paths.length) paths :=
  fun hp => Pool.isOver_run_inOrder _ (r.limit_pos hp) _

/-! ### Agreement -/

/-- **The number of workers and the order of events do not show in a result.** Under every schedule
that is not cancelled and comes to its end, a run has a result exactly if none of its scripts stops
the program, and then so does a run that checks the files one by one: it finds the same, fails alike
and passes on the same in the same order. Where the program stops, what has been passed on until
then are the first findings, and with several workers it is nothing. There is always such a
schedule, because whatever has happened so far, the run can be brought to its end. -/
theorem runUnder_agrees_with_inOrder (r : Runner) (w : World) (paths : List Bytes) (j : Int)
    (hj : j ≤ 1) :
    (∀ s : Schedule, s.Uncancelled → r.Completes w s paths →
      ((r.runUnder w s paths).crash? = none ↔ ∀ path ∈ paths, ∀ script,
        readScript w r.root path = .ok script → ¬ r.StopsOn script) ∧
      ((({ r with jobs := j } : Runner).run w false paths).crash? = none ↔
        (r.runUnder w s paths).crash? = none) ∧
      ((r.runUnder w s paths).crash? = none →
        (r.runUnder w s paths).diagnostics
            = (({ r with jobs := j } : Runner).run w false paths).diagnostics ∧
          (r.runUnder w s paths).errors
            = (({ r with jobs := j } : Runner).run w false paths).errors ∧
          (r.runUnder w s paths).emitted
            = (({ r with jobs := j } : Runner).run w false paths).emitted) ∧
      ((r.runUnder w s paths).crash? ≠ none →
        (r.runUnder w s paths).emitted <+: paths.flatMap (r.fileFindings w) ∧
        (r.isParallel paths = true → (r.runUnder w s paths).emitted = []))) ∧
    ∀ s : Schedule, s.Uncancelled → ∃ more : List PoolEvent, .cancel ∉ more ∧
      r.Completes w { s with events := s.events ++ more } paths := by
  constructor
  · intro s hs hc
    -- One worker never works in parallel, so every schedule brings its run to the end.
    have hseq : ({ r with jobs := j } : Runner).Completes w (.plain false paths.length) paths := by
      intro hp
      simp only [isParallel, Bool.and_eq_true, decide_eq_true_eq] at hp
      omega
    have hplain := uncancelled_plain paths.length
    have hgives := r.gives_runUnder w hs hc
    have hgives' : (({ r with jobs := j } : Runner).run w false paths).Gives
        (paths.flatMap (r.fileFindings w)) (paths.flatMap (r.fileErrors w)) :=
      gives_runUnder _ w hplain hseq
    have hpassed := r.passesOn_runUnder w hs hc
    have hpassed' : (({ r with jobs := j } : Runner).run w false paths).PassesOn
        (paths.flatMap (r.fileFindings w)) := passesOn_runUnder _ w hplain hseq
    obtain ⟨hcrash, hfindings, herrors⟩ := hgives'.unique hgives
    refine ⟨?_, by rw [hcrash], fun hnone => ?_, fun hstops => ?_⟩
    · rw [hgives.crash?_eq_none_iff, r.forall_isFatal_fileErrors_iff w]
    · exact ⟨hfindings, herrors,
        (hpassed.all hnone).trans (hpassed'.all (hcrash.symm.trans hnone)).symm⟩
    · exact ⟨hpassed.first, fun hp => r.emitted_runUnder_of_isParallel w hp hstops⟩
  · exact fun s _ => r.exists_completes w s paths

/-- Two workers that finish in the reverse order, on a file with a finding and one that is
missing. -/
theorem runUnder_agrees_with_inOrder_reversed :
    let r : Runner := { rules := [.always [0x72] [0x6D]], jobs := 2 }
    let w : World := ⟨.dir [([0x61], .file [])], []⟩
    let s : Schedule := { events := [.start, .start, .look 1, .look 0, .finish 1, .finish 0] }
    let paths : List Bytes := [[0x2F, 0x61], [0x2F, 0x62]]
    s.Uncancelled ∧ r.Completes w s paths ∧ (r.runUnder w s paths).crash? = none ∧
      (r.runUnder w s paths).diagnostics
          = (({ r with jobs := 1 } : Runner).run w false paths).diagnostics ∧
        (r.runUnder w s paths).errors
          = (({ r with jobs := 1 } : Runner).run w false paths).errors ∧
        (r.runUnder w s paths).emitted
          = (({ r with jobs := 1 } : Runner).run w false paths).emitted := by
  intro r w s paths
  have hs : s.Uncancelled := ⟨rfl, by decide⟩
  have hc : r.Completes w s paths := fun _ => by decide
  have hnone : (r.runUnder w s paths).crash? = none := by decide
  obtain ⟨-, -, hsame, -⟩ := (runUnder_agrees_with_inOrder r w paths 1 (by decide)).1 s hs hc
  exact ⟨hs, hc, hnone, hsame hnone⟩

/-- Two files under a version that is no text: one worker has passed on a finding when the program
stops, and two workers have passed on none. -/
theorem workers_show_at_crash :
    let settings : Settings := [(bytes "version", .text [0xFF])]
    let r (jobs : Int) : Runner :=
      { config := { rules := [(versionRuleName, { enabled := true, settings := some settings })] }
        rules := [TrailingNewline.rule, RequireVersion.rule], jobs }
    let w : World := ⟨.dir [(bytes "a", .file (bytes "x")), (bytes "b", .file (bytes "x"))], []⟩
    let run (jobs : Int) : Outcome := (r jobs).run w false [bytes "/a", bytes "/b"]
    (run 1).crash?.isSome = true ∧ (run 2).crash?.isSome = true ∧
      (run 1).emitted.length = 1 ∧ (run 2).emitted = [] := by
  decide

end Runner

end ScriptLint
