/-!
# Worker pools

A pool runs one task for each position of a list, at most so many at a time. Tasks are started in
order and may then proceed and finish in any order. Each task first looks whether the run has been
cancelled, and then gives up or runs to its end and stores its result in the slot of its position.
The first task that gives up cancels the run for all others. What happens in what order is an
explicit list of events; an event that is not possible changes nothing.
-/

namespace ScriptLint

/-- How far a task has come. -/
inductive Stage where
  | waiting
  | started
  | working
  | finished
  | gaveUp
deriving DecidableEq, Repr

namespace Stage

/-- Whether a task holds a worker. -/
def isRunning : Stage → Bool
  | .started | .working => true
  | _ => false

/-- Whether a task has come to its end. -/
def isOver : Stage → Bool
  | .finished | .gaveUp => true
  | _ => false

end Stage

/-- Something that happens during a run. -/
inductive PoolEvent where
  /-- The next waiting task gets a worker. -/
  | start
  /-- A task looks whether the run has been cancelled. -/
  | look (position : Nat)
  /-- A task stores its result. -/
  | finish (position : Nat)
  /-- The run is cancelled from outside. -/
  | cancel
deriving DecidableEq, Repr

/-- The state of a pool: the stage and the slot of each position, whether the run has been
cancelled, and whether a task has given up. -/
structure Pool (α : Type) where
  stages : List Stage
  slots : List (Option α)
  cancelled : Bool := false
  gaveUp : Bool := false
deriving Repr

namespace Pool

variable {α : Type}

/-- A pool before its first event. -/
def initial (n : Nat) : Pool α where
  stages := List.replicate n .waiting
  slots := List.replicate n none

/-- The number of tasks that hold a worker. -/
def running (p : Pool α) : Nat := p.stages.countP Stage.isRunning

/-- Whether every task has come to its end. -/
def isOver (p : Pool α) : Bool := p.stages.all Stage.isOver

/-- The pool after an event. -/
def step (limit : Nat) (result : Nat → α) (p : Pool α) : PoolEvent → Pool α
  | .start =>
    if p.running < limit then
      match p.stages.findIdx? (· = .waiting) with
      | some i => { p with stages := p.stages.set i .started }
      | none => p
    else p
  | .look i =>
    if p.stages[i]? = some .started then
      if p.cancelled then { p with stages := p.stages.set i .gaveUp, gaveUp := true }
      else { p with stages := p.stages.set i .working }
    else p
  | .finish i =>
    if p.stages[i]? = some .working then
      { p with stages := p.stages.set i .finished, slots := p.slots.set i (some (result i)) }
    else p
  | .cancel => { p with cancelled := true }

/-- The pool after some events. -/
def run (limit n : Nat) (result : Nat → α) (events : List PoolEvent) : Pool α :=
  events.foldl (step limit result) (initial n)

/-- The results that were stored, by position. -/
def results (p : Pool α) : List α := p.slots.filterMap id

/-- The events of a run in which each task comes to its end before the next one starts. -/
def inOrder (n : Nat) : List PoolEvent :=
  (List.range n).flatMap fun i => [.start, .look i, .finish i]

end Pool

end ScriptLint
