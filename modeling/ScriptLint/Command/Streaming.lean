import ScriptLint.Command.Check
import ScriptLint.Run.Streaming

/-!
# Writing findings as they come up

A check writes each finding on a line of its own when it is passed on. The first line that is not
accepted ends the writing but not the check: whatever comes up later is kept and not written, and at
the end the command tells that something was not written, behind all errors.
-/

namespace ScriptLint

/-- Text that is written while a check goes on: where it goes, and whether a piece of it was not
accepted. -/
structure TextStream where
  sink : Sink
  broken : Bool := false

/-- Writes a finding as a line of text, unless the check is quiet, makes a document of its findings,
or has been refused a line before. -/
def CheckOptions.emit (o : CheckOptions) (colours : Bool) : Emit (StateM TextStream) := fun d => do
  let t ← get
  if o.quiet || o.format != .text || t.broken then
    return
  let (sink, accepted) := t.sink.write (d.textLine (colours && !o.noColour))
  set { sink, broken := !accepted : TextStream }

/-- The run of a prepared check, with what its findings are passed on to. -/
def CheckPlan.stream {m : Type → Type} [Monad m] (p : CheckPlan) (w : World) (input : Input)
    (s : Schedule) (emit : Emit m) : ExceptT Bytes m RunResult :=
  match p.files with
  | some files => p.runner.stream w emit s files
  | none =>
    match input with
    | .broken reason => return .failed (.input reason)
    | .data content =>
      match decodeScript content with
      | .error e => return .failed (.inputEncoding e)
      | .ok text => p.runner.streamSource emit inputName text

/-- What is written when the run is over: the document if there is to be one, and the errors. -/
def concludeStream (o : CheckOptions) (result : RunResult) (t : TextStream) : Nat × Sink × Bytes :=
  let errors := result.errors.flatMap fun e => programLine e.message
  let (sink, accepted) :=
    if !o.quiet && o.format = .json then ReportFormat.json.report false result.diagnostics t.sink
    else (t.sink, true)
  if !accepted then (2, sink, writeErrorLine)
  else if t.broken then (2, sink, errors ++ writeErrorLine)
  else (exitCode (!result.diagnostics.isEmpty) (!result.errors.isEmpty), sink, errors)

/-- The options of a check, its plan, and the log of its preparation, unless something is refused or
the arguments ask for help. -/
def planned? (g : Registry) (w : World) (arguments : List Bytes) :
    Option (CheckOptions × CheckPlan × List Bytes) := do
  let parsed ← (Flag.parse checkFlags arguments).toOption
  let o ← (CheckOptions.ofParsed parsed).toOption
  let (prepared, log) := (prepareCheck g w o).run []
  let plan ← prepared.toOption
  return (o, plan, log)

/-- The check command, with a run that goes as a schedule says and writes its findings as they come
up. Without a plan there is no run, and nothing to write. -/
def streamCheck (g : Registry) (w : World) (c : Call) (s : Schedule) (arguments : List Bytes) :
    Reply :=
  match planned? g w arguments with
  | none => runCheck g w c arguments
  | some (o, plan, log) =>
    let run := plan.stream w c.input s (o.emit c.colours)
    let (ended, t) := run.run.run { sink := { limit := c.outputLimit } }
    let written (lines : List Bytes) : Bytes := Log.write (some { enabled := o.verbose }) lines
    match ended with
    | .error message =>
      { code := 2, stdout := t.sink, stderr := written log, world := w, crash := some message }
    | .ok result =>
      let (code, stdout, errors) := concludeStream o result t
      { code, stdout, stderr := written (log ++ result.log) ++ errors, world := w }

end ScriptLint
