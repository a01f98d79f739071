import ScriptLint.Config.Basic
import ScriptLint.Script.Read

/-!
# Checking a script

A rule is configured by its entry for the script at hand and then run; nothing is carried from one
rule or script to the next. A rule that is off is passed over, and one whose settings are refused
gives an error and no findings. There are settings that are not refused but stop the program: then
nothing comes of the rules after it, and of those before it only what was passed on.
-/

namespace ScriptLint

/-! ### Configured rules -/

/-- Why a rule cannot be configured. -/
inductive ConfigureError where
  /-- Settings for a rule that takes none. -/
  | noSettings (rule : Bytes)
  /-- Settings that the rule refuses. -/
  | refused (rule : Bytes) (reason : SettingsError)

namespace ConfigureError

/-- Whether the program stops at this error instead of reporting it. -/
def isFatal : ConfigureError → Bool
  | .noSettings _ => false
  | .refused _ e => e.isFatal

/-- The wording of a configure error. One that stops the program is shown as it is. -/
def message : ConfigureError → Bytes
  | .noSettings rule => bytes "rule " ++ rule ++ bytes " has no settings"
  | .refused rule e =>
    if e.isFatal then e.message
    else bytes "applying settings for " ++ rule ++ bytes ": " ++ e.message

end ConfigureError

/-- A rule under an entry. Without settings, or with empty ones, it is the rule as registered. -/
def Rule.configure (r : Rule) (e : RuleEntry) : Except ConfigureError Rule :=
  match e.settings with
  | none | some [] => .ok r
  | some settings =>
    match r.clone.applySettings? settings with
    | none => .error (.noSettings r.name)
    | some (.ok r) => .ok r
    | some (.error reason) => .error (.refused r.name reason)

/-! ### Outcomes -/

/-- What keeps a run from checking something. -/
inductive RunError where
  | read (e : ReadError)
  | settings (e : ConfigureError)
  | cancelled
  /-- The standard input cannot be read. -/
  | input (reason : Bytes)
  /-- The standard input cannot be decoded. -/
  | inputEncoding (e : DecodeError)

namespace RunError

/-- The wording of a run error. -/
def message : RunError → Bytes
  | .read e => e.message
  | .settings e => e.message
  | .cancelled => bytes "context canceled"
  | .input reason => bytes "reading stdin: " ++ reason
  | .inputEncoding e => bytes "reading stdin: " ++ e.message

/-- Whether the program stops at this error instead of reporting it. -/
def isFatal : RunError → Bool
  | .settings e => e.isFatal
  | _ => false

/-- Whether the error says that a script is not UTF-8. -/
def isNotUtf8 : RunError → Bool
  | .read (.undecodable _ .notUtf8) | .inputEncoding .notUtf8 => true
  | _ => false

end RunError

/-- The result of checking something: the findings, the errors, and the lines for the log. -/
structure RunResult where
  diagnostics : List Diagnostic := []
  errors : List RunError := []
  log : List Bytes := []

namespace RunResult

/-- One result after another. -/
def append (a b : RunResult) : RunResult where
  diagnostics := a.diagnostics ++ b.diagnostics
  errors := a.errors ++ b.errors
  log := a.log ++ b.log

instance : Append RunResult := ⟨append⟩

/-- A result that is nothing but an error. -/
def failed (e : RunError) : RunResult := { errors := [e] }

end RunResult

/-- What comes of checking something: the findings that were passed on as they came up, and the
result. Where the program stops there is no result, and what is left besides is the message of the
error that stops it; the lines that were logged until then are not told. -/
structure Outcome where
  emitted : List Diagnostic := []
  result : Except Bytes RunResult := .ok {}

namespace Outcome

/-- One outcome after another. Nothing comes after one that stops the program. -/
def append (a b : Outcome) : Outcome :=
  match a.result with
  | .error _ => a
  | .ok first => { emitted := a.emitted ++ b.emitted, result := b.result.map (first ++ ·) }

instance : Append Outcome := ⟨append⟩

/-- Outcomes in order. -/
def join (os : List Outcome) : Outcome := os.foldr append {}

/-- An outcome that is nothing but an error, which may be one at which the program stops. -/
def failed (e : RunError) : Outcome :=
  { result := if e.isFatal then .error e.message else .ok (.failed e) }

/-- An outcome that is nothing but a line for the log. -/
def logged (line : Bytes) : Outcome := { result := .ok { log := [line] } }

/-- The findings of the result. There are none without a result, nor errors or lines for the log. -/
def diagnostics (o : Outcome) : List Diagnostic :=
  match o.result with
  | .ok r => r.diagnostics
  | .error _ => []

/-- The errors of the result. -/
def errors (o : Outcome) : List RunError :=
  match o.result with
  | .ok r => r.errors
  | .error _ => []

/-- The lines for the log. -/
def log (o : Outcome) : List Bytes :=
  match o.result with
  | .ok r => r.log
  | .error _ => []

/-- The message of the error that stops the program, if one does. -/
def crash? (o : Outcome) : Option Bytes :=
  match o.result with
  | .ok _ => none
  | .error message => some message

/-- The outcome with all its findings passed on when it is there. -/
def withAllEmitted (o : Outcome) : Outcome := { o with emitted := o.diagnostics }

/-- Whether nothing was found and nothing went wrong. -/
def isSuccess (o : Outcome) : Bool :=
  match o.result with
  | .ok r => r.diagnostics.isEmpty && r.errors.isEmpty
  | .error _ => false

end Outcome

/-! ### One script -/

/-- The entry that a rule without one has. -/
def RuleEntry.implicit : RuleEntry := { enabled := true }

/-- The outcome of one rule on a script, under the rule's entry. Findings are passed on when the
outcome is streamed. -/
def checkRule (streamed : Bool) (s : Script) (r : Rule) (e : RuleEntry) : Outcome :=
  if e.enabled then
    match r.configure e with
    | .ok r =>
      let found := r.check s
      { emitted := if streamed then found else [], result := .ok { diagnostics := found } }
    | .error e => .failed (.settings e)
  else {}

/-- The outcome of some rules on a script, in order. -/
def checkRules (streamed : Bool) (s : Script) (rules : List Rule) (effective : Entries RuleEntry) :
    Outcome :=
  .join (rules.map fun r =>
    checkRule streamed s r ((effective.get? r.name).getD RuleEntry.implicit))

end ScriptLint
