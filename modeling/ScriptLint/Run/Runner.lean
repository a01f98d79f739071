import ScriptLint.Run.Check
import ScriptLint.Run.Pool

/-!
# Runs

A run checks some files in order, each on its own, and puts their outcomes one after the other. With
several workers the files are checked at the same time and in any order, and their outcomes are
still put together by position, so that the order of events does not show. A run that is cancelled
reports that once, after everything else. A run that the program stops has no result: what has been
passed on until then is the last of it.
-/

namespace ScriptLint

/-- What a run is made of: the configuration, the selected rules, the root that paths are shown
from, and the number of workers. -/
structure Runner where
  config : Config := {}
  rules : List Rule
  root : Bytes := []
  jobs : Int := 0

/-- How a run goes: the events of several workers, and for files that are checked one by one the
number of them after which the run is cancelled, if it is. -/
structure Schedule where
  events : List PoolEvent := []
  cancelAfter : Option Nat := none

/-- The schedule of a run that is cancelled before it starts or never. The events of several workers
are those of one file after the other, which stand for any others. -/
def Schedule.plain (cancelled : Bool) (count : Nat) : Schedule where
  events := if cancelled then .cancel :: Pool.inOrder count else Pool.inOrder count
  cancelAfter := if cancelled then some 0 else none

namespace Runner

/-! ### Checking the settings beforehand -/

/-- The tables of rule entries: that of the configuration and those of its overrides. -/
def tables (r : Runner) : List (Entries RuleEntry) :=
  r.config.rules :: r.config.overrides.map (·.rules)

/-- Applies every configured setting of the selected rules once. The first one that is refused is
the answer. -/
def validate (r : Runner) : Except ConfigureError Unit :=
  r.rules.forM fun rule =>
    r.tables.forM fun table =>
      match table.get? rule.name with
      | some e =>
        if e.enabled then
          match rule.configure e with
          | .ok _ => .ok ()
          | .error e => .error e
        else .ok ()
      | none => .ok ()

/-! ### Files -/

/-- The outcome of a script. -/
def checkScript (r : Runner) (streamed : Bool) (s : Script) : Outcome :=
  .logged (bytes "file: " ++ s.path) ++ checkRules streamed s r.rules (r.config.effective s.path)

/-- The outcome of a file. -/
def checkPath (r : Runner) (w : World) (streamed : Bool) (path : Bytes) : Outcome :=
  match readScript w r.root path with
  | .ok s => r.checkScript streamed s
  | .error e => .failed (.read e)

/-- The outcome of a text that is in no file. -/
def checkSource (r : Runner) (path : Bytes) (text : Text) : Outcome :=
  r.checkScript true ⟨path, text⟩

/-! ### Runs -/

/-- Checks files one by one. The run may be cancelled once so many of them are checked, and then the
next one is not begun. -/
def runInOrder (r : Runner) (w : World) : (cancelAfter : Option Nat) → List Bytes → Outcome
  | _, [] => {}
  | some 0, _ :: _ => .failed .cancelled
  | cancelAfter, p :: ps => r.checkPath w true p ++ runInOrder r w (cancelAfter.map (· - 1)) ps

/-- The number of files that are checked at the same time. -/
def limit (r : Runner) (paths : List Bytes) : Nat := min r.jobs.toNat paths.length

/-- The pool of several workers after some events. The task of a position checks the file there. -/
def pool (r : Runner) (w : World) (events : List PoolEvent) (paths : List Bytes) : Pool Outcome :=
  Pool.run (r.limit paths) paths.length (fun i => r.checkPath w false (paths.getD i [])) events

/-- Checks files with several workers. The findings are passed on when all files are done, so that
none is if the program stops at one of them. Which of several such files it stops at depends on the
events; the message is told as that of the first. -/
def runTogether (r : Runner) (w : World) (events : List PoolEvent) (paths : List Bytes) : Outcome :=
  let pool := r.pool w events paths
  (Outcome.join pool.results).withAllEmitted ++ if pool.gaveUp then .failed .cancelled else {}

/-- Whether a run uses several workers. -/
def isParallel (r : Runner) (paths : List Bytes) : Bool := 1 < r.jobs && 1 < paths.length

/-- The line of the log about the selected rules. -/
def rulesLine (r : Runner) : Bytes :=
  bytes "rules: " ++ joinBytes (bytes ", ") (r.rules.map (·.name))

/-- A run that goes as a schedule says. -/
def runUnder (r : Runner) (w : World) (s : Schedule) (paths : List Bytes) : Outcome :=
  .logged r.rulesLine ++
    if r.isParallel paths then r.runTogether w s.events paths
    else r.runInOrder w s.cancelAfter paths

/-- A run that is cancelled before it starts or never. -/
def run (r : Runner) (w : World) (cancelled : Bool) (paths : List Bytes) : Outcome :=
  r.runUnder w (.plain cancelled paths.length) paths

end Runner

end ScriptLint
