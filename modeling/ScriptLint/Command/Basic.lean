import ScriptLint.Command.Flags
import ScriptLint.Config.Load
import ScriptLint.Config.Render
import ScriptLint.Discovery
import ScriptLint.Report
import ScriptLint.Rule.Selection
import ScriptLint.Run.Runner
import ScriptLint.Table

/-!
# Commands

The program checks scripts, lists its rules, writes a configuration file and tells its version. A
command is a function from the arguments, the standard input and the files to the pieces that the
standard output accepts, the text on the standard error, the exit code and the files afterwards.
-/

namespace ScriptLint

/-- The standard input: some bytes, or a reason why it cannot be read. -/
inductive Input where
  | data (content : Bytes)
  | broken (reason : Bytes)
deriving Repr

/-- A call of the program: its arguments, its standard input, whether the terminal shows colours,
and how many pieces the standard output accepts. -/
structure Call where
  arguments : List Bytes
  input : Input := .data []
  colours : Bool := false
  outputLimit : Option Nat := none

/-- The answer to a call. -/
structure Reply where
  code : Nat
  stdout : Sink
  stderr : Bytes := []
  world : World
  /-- The message of an error that stops the program. -/
  crash : Option Bytes := none

/-- A line of the program about itself. -/
def programLine (message : Bytes) : Bytes := bytes "ahklint: " ++ message ++ bytes "\n"

/-! ### Refusals -/

/-- Why a command is not carried out. -/
inductive Refusal where
  | unknownFormat (format : Bytes)
  | negativeJobs
  | unexpectedArguments (words : List Bytes)
  | config (e : Config.LoadError)
  | problem (p : Config.Problem)
  | ruleFile (e : Selection.ReadError)
  | unknownRule (e : UnknownRule)
  | settings (e : ConfigureError)
  | discovery (e : Discovery.Error)

namespace Refusal

/-- What the standard error shows of a refusal. -/
def text : Refusal → Bytes
  | .unknownFormat f => programLine (bytes "unknown format " ++ Quoted.quote f)
  | .negativeJobs => programLine (bytes "--jobs must not be negative")
  | .unexpectedArguments words =>
    programLine (bytes "unexpected arguments: " ++ joinBytes (bytes " ") words)
  | .config e => programLine e.message
  | .problem p => programLine p.message
  | .ruleFile e => programLine e.message
  | .unknownRule e => e.message ++ bytes "\n"
  | .settings e => programLine e.message
  | .discovery e => programLine e.message

/-- The message of a refusal that stops the program. -/
def crash? : Refusal → Option Bytes
  | .config e => if e.isFatal then some e.message else none
  | .settings e => if e.isFatal then some e.message else none
  | _ => none

end Refusal

/-! ### Selecting rules -/

/-- The rules named by a file and by arguments, or all of them. -/
def selectRules (g : Registry) (w : World) (file : Bytes) (arguments : List Bytes) :
    Except Refusal (List Rule) := do
  let fromFile ← if file = [] then pure [] else (Selection.readList w file).mapError .ruleFile
  match g.load (Selection.resolve fromFile (Selection.splitArguments arguments) g.names) with
  | .ok rules => return rules
  | .error e => .error (.unknownRule e)

end ScriptLint
