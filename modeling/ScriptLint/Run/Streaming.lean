import ScriptLint.Run.Runner

/-!
# Runs that pass their findings on

A run passes findings on while it goes: each of them as soon as a rule comes upon it when files are
checked one by one, and all of them in order when the last file is done when there are several
workers. What takes a finding may write it, keep it or fail, but it answers nothing, and so the run
goes on and ends with the same result. Settings that stop the program end the run with a message and
without a result. `Runner` tells the outcome of such a run in one piece, with the findings that are
passed on in a list; here the run is a program around what takes them.
-/

namespace ScriptLint

/-- What findings are passed on to. -/
abbrev Emit (m : Type → Type) := Diagnostic → m Unit

variable {m : Type → Type} [Monad m]

/-- Checks a script by some rules in order. A rule that is off is passed over, and one whose
settings are refused leaves an error, unless they stop the program. -/
def streamRules (emit : Emit m) (s : Script) (rules : List Rule) (effective : Entries RuleEntry) :
    ExceptT Bytes m RunResult := do
  let mut result : RunResult := {}
  for rule in rules do
    let entry := (effective.get? rule.name).getD RuleEntry.implicit
    if !entry.enabled then
      continue
    match rule.configure entry with
    | .error e =>
      if e.isFatal then
        throw e.message
      result := result ++ .failed (.settings e)
    | .ok rule =>
      for d in rule.check s do
        emit d
        result := result ++ { diagnostics := [d] }
  return result

namespace Runner

/-! ### Files -/

/-- Checks a script. -/
def streamScript (r : Runner) (emit : Emit m) (s : Script) :
    ExceptT Bytes m RunResult := do
  let result ← streamRules emit s r.rules (r.config.effective s.path)
  return { log := [bytes "file: " ++ s.path] } ++ result

/-- Checks a file. -/
def streamPath (r : Runner) (w : World) (emit : Emit m) (path : Bytes) :
    ExceptT Bytes m RunResult :=
  match readScript w r.root path with
  | .ok s => r.streamScript emit s
  | .error e => return .failed (.read e)

/-- Checks a text that is in no file. -/
def streamSource (r : Runner) (emit : Emit m) (path : Bytes) (text : Text) :
    ExceptT Bytes m RunResult :=
  r.streamScript emit ⟨path, text⟩

/-! ### Runs -/

/-- Checks files one by one. The run may be cancelled once so many of them are checked. -/
def streamInOrder (r : Runner) (w : World) (emit : Emit m) :
    (cancelAfter : Option Nat) → List Bytes → ExceptT Bytes m RunResult
  | _, [] => return {}
  | some 0, _ :: _ => return .failed .cancelled
  | cancelAfter, p :: ps => do
    let first ← r.streamPath w emit p
    let rest ← streamInOrder r w emit (cancelAfter.map (· - 1)) ps
    return first ++ rest

/-- Checks files with several workers, and when they are done passes the findings on, file by file.
-/
def streamTogether (r : Runner) (w : World) (emit : Emit m) (events : List PoolEvent)
    (paths : List Bytes) : ExceptT Bytes m RunResult := do
  let pool := r.pool w events paths
  let files ← ofExcept (pool.results.mapM (·.result))
  let mut result : RunResult := {}
  for file in files do
    for d in file.diagnostics do
      emit d
    result := result ++ file
  if pool.gaveUp then
    result := result ++ .failed .cancelled
  return result

/-- A run that goes as a schedule says. -/
def stream (r : Runner) (w : World) (emit : Emit m) (s : Schedule) (paths : List Bytes) :
    ExceptT Bytes m RunResult := do
  let result ←
    if r.isParallel paths then r.streamTogether w emit s.events paths
    else r.streamInOrder w emit s.cancelAfter paths
  return { log := [r.rulesLine] } ++ result

end Runner

end ScriptLint
