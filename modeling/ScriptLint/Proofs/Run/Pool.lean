import ScriptLint.Run.Pool
import Mathlib.Algebra.Ring.Nat
import Mathlib.Data.List.Basic

/-!
# Every order of events gives the same results

A pool stores results by position, so the order in which its tasks proceed can show only in how far
they have come. The proof says once what an event can do (`Pool.Move`), derives from it what every
event keeps (`Pool.Consistent`), and reads off the results:

* `Pool.results_run`: the results are those of the finished tasks, in the order of positions;
* `Pool.results_run_of_isOver`: in a run that is never cancelled and has come to its end these are
  the results of all tasks;
* `Pool.exists_isOver`: every run can be brought to its end, whatever has happened so far.
-/

namespace ScriptLint

namespace Stage

/-- The number of events that a task still needs. -/
def distance : Stage → Nat
  | .waiting => 3
  | .started => 2
  | .working => 1
  | .finished | .gaveUp => 0

end Stage

namespace Pool

variable {α : Type} {limit n : Nat} {result : Nat → α}

/-! ### What an event can do -/

/-- The ways in which an event changes a pool. One that is not possible leaves it as it is. -/
inductive Move (limit : Nat) (result : Nat → α) (p : Pool α) : PoolEvent → Pool α → Prop where
  | idle (e : PoolEvent) : Move limit result p e p
  | start (i : Nat) (free : p.running < limit) (stage : p.stages[i]? = some .waiting) :
    Move limit result p .start { p with stages := p.stages.set i .started }
  | work (i : Nat) (live : p.cancelled = false) (stage : p.stages[i]? = some .started) :
    Move limit result p (.look i) { p with stages := p.stages.set i .working }
  | giveUp (i : Nat) (dead : p.cancelled = true) (stage : p.stages[i]? = some .started) :
    Move limit result p (.look i) { p with stages := p.stages.set i .gaveUp, gaveUp := true }
  | finish (i : Nat) (stage : p.stages[i]? = some .working) :
    Move limit result p (.finish i)
      { p with stages := p.stages.set i .finished, slots := p.slots.set i (some (result i)) }
  | cancel : Move limit result p .cancel { p with cancelled := true }

theorem step_move (limit : Nat) (result : Nat → α) (p : Pool α) (e : PoolEvent) :
    Move limit result p e (p.step limit result e) := by
  cases e with
  | start =>
    simp only [step]
    split_ifs with hfree
    · split
      · rename_i i hi
        obtain ⟨hlt, hstage, _⟩ := List.findIdx?_eq_some_iff_getElem.mp hi
        refine .start i hfree ?_
        rw [List.getElem?_eq_getElem hlt]
        simpa using hstage
      · exact .idle _
    · exact .idle _
  | look i =>
    simp only [step]
    split_ifs with hstage hdead
    · exact .giveUp i hdead hstage
    · exact .work i (by simpa using hdead) hstage
    · exact .idle _
  | finish i =>
    simp only [step]
    split_ifs with hstage
    · exact .finish i hstage
    · exact .idle _
  | cancel => exact .cancel

/-! ### What every event keeps -/

/-- What holds of a pool at any time: it has a stage and a slot for each position, the slots hold
the results of exactly the finished tasks, the limit is kept, and tasks give up only in a run that
has been cancelled. -/
structure Consistent (limit n : Nat) (result : Nat → α) (p : Pool α) : Prop where
  stages_length : p.stages.length = n
  slots_length : p.slots.length = n
  slot : ∀ i < n,
    p.slots[i]? = some (if p.stages[i]? = some .finished then some (result i) else none)
  running_le : p.running ≤ limit
  gaveUp_iff : p.gaveUp = true ↔ .gaveUp ∈ p.stages
  cancelled_of_gaveUp : p.gaveUp = true → p.cancelled = true

theorem consistent_initial (limit n : Nat) (result : Nat → α) :
    Consistent limit n result (initial n : Pool α) where
  stages_length := by simp [initial]
  slots_length := by simp [initial]
  slot i hi := by simp [initial, hi]
  running_le := by simp [initial, running, List.countP_replicate, Stage.isRunning]
  gaveUp_iff := by simp [initial, List.mem_replicate]
  cancelled_of_gaveUp := by simp [initial]

/-- The number of busy workers after a task has come to another stage. -/
theorem running_set {p : Pool α} {i : Nat} {old : Stage} (new : Stage)
    (h : p.stages[i]? = some old) :
    (p.stages.set i new).countP Stage.isRunning
      = p.running - (if old.isRunning then 1 else 0) + (if new.isRunning then 1 else 0) := by
  obtain ⟨hi, hold⟩ := List.getElem?_eq_some_iff.mp h
  rw [List.countP_set hi, hold, running]

/-- A busy task is counted. -/
theorem running_pos {p : Pool α} {i : Nat} {s : Stage} (h : p.stages[i]? = some s)
    (hs : s.isRunning = true) : 0 < p.running :=
  List.countP_pos_iff.mpr ⟨s, List.mem_of_getElem? h, hs⟩

/-- A task that comes to another stage, neither from giving up nor to it, does not show in whether
some task has given up. -/
theorem gaveUp_mem_set_iff {stages : List Stage} {i : Nat} {old new : Stage}
    (h : stages[i]? = some old) (hold : old ≠ .gaveUp) (hnew : new ≠ .gaveUp) :
    .gaveUp ∈ stages.set i new ↔ .gaveUp ∈ stages := by
  obtain ⟨hi, hiold⟩ := List.getElem?_eq_some_iff.mp h
  simp only [List.mem_iff_getElem?, List.getElem?_set]
  constructor
  · rintro ⟨j, hj⟩
    split_ifs at hj
    · exact absurd (Option.some.inj hj) hnew
    · exact ⟨j, hj⟩
  · rintro ⟨j, hj⟩
    refine ⟨j, ?_⟩
    by_cases hij : i = j
    · subst hij
      rw [h] at hj
      exact absurd (Option.some.inj hj) hold
    · rw [if_neg hij]
      exact hj

/-- A task that comes to another stage without finishing leaves the slots right. -/
theorem slot_set {p : Pool α} (c : Consistent limit n result p) {i : Nat} {old new : Stage}
    (h : p.stages[i]? = some old) (hold : old ≠ .finished) (hnew : new ≠ .finished) (j : Nat)
    (hj : j < n) :
    p.slots[j]?
      = some (if (p.stages.set i new)[j]? = some .finished then some (result j) else none) := by
  rw [c.slot j hj, List.getElem?_set]
  by_cases hij : i = j
  · subst hij
    have hi := (List.getElem?_eq_some_iff.mp h).1
    rw [if_pos rfl, if_pos hi, h]
    simp only [Option.some.injEq, hold, hnew, if_false]
  · rw [if_neg hij]

/-- **An event keeps a pool consistent.** -/
theorem Move.consistent {p p' : Pool α} {e : PoolEvent} (m : Move limit result p e p')
    (c : Consistent limit n result p) : Consistent limit n result p' := by
  -- An event changes one stage at most, and how many tasks are running follows from what that
  -- stage was before and is now, by `running_set`.
  cases m with
  | idle => exact c
  | start i free stage =>
    refine ⟨by simpa using c.stages_length, c.slots_length,
      slot_set c stage (by decide) (by decide), ?_, ?_, c.cancelled_of_gaveUp⟩
    · have h := running_set .started stage
      simp only [Stage.isRunning, Bool.false_eq_true, if_false, if_true] at h
      simp only [running] at h free ⊢
      omega
    · rw [gaveUp_mem_set_iff stage (by decide) (by decide)]
      exact c.gaveUp_iff
  | work i live stage =>
    refine ⟨by simpa using c.stages_length, c.slots_length,
      slot_set c stage (by decide) (by decide), ?_, ?_, c.cancelled_of_gaveUp⟩
    · have h := running_set .working stage
      have hpos := running_pos stage rfl
      have hle := c.running_le
      simp only [Stage.isRunning, if_true] at h
      simp only [running] at h hpos hle ⊢
      omega
    · rw [gaveUp_mem_set_iff stage (by decide) (by decide)]
      exact c.gaveUp_iff
  | giveUp i dead stage =>
    refine ⟨by simpa using c.stages_length, c.slots_length,
      slot_set c stage (by decide) (by decide), ?_, ?_, fun _ => dead⟩
    · have h := running_set .gaveUp stage
      have hle := c.running_le
      simp only [Stage.isRunning, Bool.false_eq_true, if_false, if_true] at h
      simp only [running] at h hle ⊢
      omega
    · have hi := (List.getElem?_eq_some_iff.mp stage).1
      simp only [true_iff]
      exact List.mem_set hi _
  | finish i stage =>
    have hi := (List.getElem?_eq_some_iff.mp stage).1
    refine ⟨by simpa using c.stages_length, by simpa using c.slots_length, ?_, ?_, ?_,
      c.cancelled_of_gaveUp⟩
    · intro j hj
      rw [List.getElem?_set, List.getElem?_set]
      by_cases hij : i = j
      · subst hij
        simp [hi, c.slots_length, hj]
      · simp only [if_neg hij]
        exact c.slot j hj
    · have h := running_set .finished stage
      have hle := c.running_le
      simp only [Stage.isRunning, Bool.false_eq_true, if_false, if_true] at h
      simp only [running] at h hle ⊢
      omega
    · rw [gaveUp_mem_set_iff stage (by decide) (by decide)]
      exact c.gaveUp_iff
  | cancel => exact ⟨c.stages_length, c.slots_length, c.slot, c.running_le, c.gaveUp_iff,
      fun _ => rfl⟩

/-- Events keep a pool consistent. -/
theorem Consistent.foldl (events : List PoolEvent) {p : Pool α}
    (c : Consistent limit n result p) :
    Consistent limit n result (events.foldl (step limit result) p) := by
  induction events generalizing p with
  | nil => exact c
  | cons e es ih => exact ih ((step_move limit result p e).consistent c)

theorem consistent_run (limit n : Nat) (result : Nat → α) (events : List PoolEvent) :
    Consistent limit n result (run limit n result events) :=
  (consistent_initial limit n result).foldl events

/-- At no time are there more busy workers than the limit allows. -/
theorem running_run_le (limit n : Nat) (result : Nat → α) (events : List PoolEvent) :
    (run limit n result events).running ≤ limit :=
  (consistent_run limit n result events).running_le

/-! ### Results -/

/-- The slots of a consistent pool, position by position. -/
theorem Consistent.slots_eq {p : Pool α} (c : Consistent limit n result p) :
    p.slots = (List.range n).map fun i =>
      if p.stages[i]? = some .finished then some (result i) else none := by
  apply List.ext_getElem?
  intro i
  by_cases hi : i < n
  · rw [c.slot i hi, List.getElem?_map, List.getElem?_range hi, Option.map_some]
  · rw [List.getElem?_eq_none (by rw [c.slots_length]; omega),
      List.getElem?_eq_none (by rw [List.length_map, List.length_range]; omega)]

/-- **The results are those of the finished tasks, in the order of positions**, whatever the order
of events. -/
theorem results_run (limit n : Nat) (result : Nat → α) (events : List PoolEvent) :
    (run limit n result events).results
      = ((List.range n).filter fun i =>
          (run limit n result events).stages[i]? = some .finished).map result := by
  have c := consistent_run limit n result events
  simp only [results, c.slots_eq, List.filterMap_map, Function.id_comp]
  induction List.range n with
  | nil => rfl
  | cons i is ih =>
    by_cases hi : (run limit n result events).stages[i]? = some .finished
    · simp [hi, ih]
    · simp [hi, ih]

/-! ### Runs that are not cancelled -/

/-- Nothing but a cancelling event cancels a run. -/
theorem Move.cancelled_eq {p p' : Pool α} {e : PoolEvent} (m : Move limit result p e p')
    (he : e ≠ .cancel) : p'.cancelled = p.cancelled := by
  cases m with
  | cancel => exact absurd rfl he
  | _ => rfl

theorem cancelled_foldl_eq (events : List PoolEvent) (h : .cancel ∉ events) (p : Pool α) :
    (events.foldl (step limit result) p).cancelled = p.cancelled := by
  induction events generalizing p with
  | nil => rfl
  | cons e es ih =>
    obtain ⟨he, hes⟩ := List.ne_and_not_mem_of_not_mem_cons h
    rw [List.foldl_cons, ih hes]
    exact (step_move limit result p e).cancelled_eq (Ne.symm he)

theorem cancelled_run {events : List PoolEvent} (h : .cancel ∉ events) :
    (run limit n result events).cancelled = false :=
  cancelled_foldl_eq events h _

/-- No task gives up in a run that is never cancelled. -/
theorem gaveUp_run {events : List PoolEvent} (h : .cancel ∉ events) :
    (run limit n result events).gaveUp = false := by
  by_contra hg
  rw [Bool.not_eq_false] at hg
  have hc := (consistent_run limit n result events).cancelled_of_gaveUp hg
  rw [cancelled_run h] at hc
  exact Bool.false_ne_true hc

/-- **A run that is never cancelled and has come to its end has the results of all tasks.** -/
theorem results_run_of_isOver {events : List PoolEvent} (h : .cancel ∉ events)
    (hend : (run limit n result events).isOver = true) :
    (run limit n result events).results = (List.range n).map result := by
  have c := consistent_run limit n result events
  have hgave : (run limit n result events).gaveUp = false := gaveUp_run h
  rw [results_run]
  congr 1
  rw [List.filter_eq_self]
  intro i hi
  have hlt : i < (run limit n result events).stages.length := by
    rw [c.stages_length]
    exact List.mem_range.mp hi
  rw [decide_eq_true_eq, List.getElem?_eq_getElem hlt]
  -- A stage that is over and not given up is finished.
  have hmem := List.getElem_mem hlt
  have hover := List.all_eq_true.mp hend _ hmem
  cases hs : (run limit n result events).stages[i] with
  | finished => rfl
  | gaveUp =>
    rw [hs] at hmem
    have := c.gaveUp_iff.mpr hmem
    rw [hgave] at this
    exact absurd this Bool.false_ne_true
  | _ => rw [hs] at hover; exact absurd hover (by decide)

/-! ### Every run comes to its end -/

/-- The number of events that the tasks of a pool still need. -/
def remaining (p : Pool α) : Nat := (p.stages.map Stage.distance).sum

theorem sum_distance_set {stages : List Stage} {i : Nat} {old : Stage} (new : Stage)
    (h : stages[i]? = some old) :
    ((stages.set i new).map Stage.distance).sum + old.distance
      = (stages.map Stage.distance).sum + new.distance := by
  induction stages generalizing i with
  | nil => simp at h
  | cons s ss ih =>
    cases i with
    | zero =>
      obtain rfl := Option.some.inj (by simpa using h)
      simp only [List.set_cons_zero, List.map_cons, List.sum_cons]
      omega
    | succ i =>
      have := ih (i := i) (by simpa using h)
      simp only [List.set_cons_succ, List.map_cons, List.sum_cons]
      omega

/-- While a task is not at its end, some event other than a cancelling one brings a task further. -/
theorem exists_step_lt (result : Nat → α) {p : Pool α} (hlimit : 0 < limit) (h : p.isOver = false) :
    ∃ e, e ≠ .cancel ∧ (p.step limit result e).remaining < p.remaining := by
  by_cases hstarted : ∃ i : Nat, p.stages[i]? = some .started
  · obtain ⟨i, hi⟩ := hstarted
    refine ⟨.look i, by simp, ?_⟩
    simp only [step, hi, if_true]
    split_ifs
    · have := sum_distance_set .gaveUp hi
      simp only [Stage.distance] at this
      simp only [remaining]
      omega
    · have := sum_distance_set .working hi
      simp only [Stage.distance] at this
      simp only [remaining]
      omega
  by_cases hworking : ∃ i : Nat, p.stages[i]? = some .working
  · obtain ⟨i, hi⟩ := hworking
    refine ⟨.finish i, by simp, ?_⟩
    have := sum_distance_set .finished hi
    simp only [Stage.distance] at this
    simp only [step, hi, if_true, remaining]
    omega
  -- No worker is busy, so a task that is not at its end waits and can start.
  have hfree : p.running = 0 := by
    rw [running, List.countP_eq_zero]
    intro s hs
    obtain ⟨i, hi⟩ := List.mem_iff_getElem?.mp hs
    cases s with
    | started => exact absurd ⟨i, hi⟩ hstarted
    | working => exact absurd ⟨i, hi⟩ hworking
    | _ => decide
  obtain ⟨s, hs, hnot⟩ := List.all_eq_false.mp h
  have hwaiting : s = .waiting := by
    obtain ⟨i, hi⟩ := List.mem_iff_getElem?.mp hs
    cases s with
    | waiting => rfl
    | started => exact absurd ⟨i, hi⟩ hstarted
    | working => exact absurd ⟨i, hi⟩ hworking
    | _ => exact absurd rfl hnot
  refine ⟨.start, by simp, ?_⟩
  simp only [step, hfree, hlimit, if_true]
  split
  · rename_i i hi
    obtain ⟨hlt, hstage, _⟩ := List.findIdx?_eq_some_iff_getElem.mp hi
    have := sum_distance_set .started
      (show p.stages[i]? = some .waiting by rw [List.getElem?_eq_getElem hlt]; simpa using hstage)
    simp only [Stage.distance] at this
    simp only [remaining]
    omega
  · rename_i hnone
    have := List.findIdx?_eq_none_iff.mp hnone s hs
    exact absurd hwaiting (by simpa using this)

/-- **Every run can be brought to its end**, whatever has happened so far, without cancelling it. -/
theorem exists_isOver (hlimit : 0 < limit) (n : Nat) (result : Nat → α)
    (events : List PoolEvent) :
    ∃ more, .cancel ∉ more ∧ (run limit n result (events ++ more)).isOver = true := by
  suffices h : ∀ (k : Nat) (p : Pool α), p.remaining = k →
      ∃ more : List PoolEvent, .cancel ∉ more ∧ (more.foldl (step limit result) p).isOver = true by
    obtain ⟨more, hmore, hover⟩ := h _ (run limit n result events) rfl
    refine ⟨more, hmore, ?_⟩
    rw [run, List.foldl_append]
    exact hover
  intro k
  induction k using Nat.strongRecOn with
  | ind k ih =>
  intro p hk
  by_cases hp : p.isOver = true
  · exact ⟨[], by simp, hp⟩
  · obtain ⟨e, he, hlt⟩ := exists_step_lt result hlimit (by simpa using hp)
    obtain ⟨more, hmore, hover⟩ := ih _ (hk ▸ hlt) (p.step limit result e) rfl
    refine ⟨e :: more, ?_, hover⟩
    rw [List.mem_cons, not_or]
    exact ⟨Ne.symm he, hmore⟩

end Pool

end ScriptLint
