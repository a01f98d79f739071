import ScriptLint.Rule.Object
import ScriptLint.Rule.Registry

/-!
# Findings one by one

A rule hands each finding over as soon as it comes upon it, and goes on looking only while more are
wanted. Once a consumer wants no more it must not be called again, so every rule has to leave its
loops then. `Check` has all findings of a rule in a list; here each rule is the program that a
consumer is given to.
-/

namespace ScriptLint

variable {m : Type → Type} [Monad m]

/-! ### Scripts as a whole -/

/-- Looks at the first line, and hands a finding over unless it requires the version. -/
def RequireVersion.handTo (fields : Fields) (s : Script) (receive : Consumer m) : m Unit := do
  if requires (fields.pattern.getD defaultVersion) (firstLine s) then
    return
  let _ ← receive (Rule.fileLevel versionRuleName
    (bytes "missing or incorrect #Requires directive on first line") s)

/-- Looks for the first directive. If it names another mode a finding is handed over; lines behind
it are not looked at. Without a directive there is another finding. -/
def RequireSingleInstance.handTo (fields : Fields) (s : Script) (receive : Consumer m) :
    m Unit := do
  for line in s.lines do
    match afterDirective? (trim line) with
    | none => continue
    | some rest =>
      if !names fields.pattern rest then
        let _ ← receive (Rule.fileLevel instanceRuleName
          (bytes "#SingleInstance should use '" ++ Utf8.encode fields.modeName ++ bytes "'") s)
      return
  let _ ← receive (Rule.fileLevel instanceRuleName (bytes "missing #SingleInstance directive") s)

/-- Looks for a directive, and hands a finding over if there is none. -/
def RequireWarn.handTo (s : Script) (receive : Consumer m) : m Unit := do
  for line in s.lines do
    if isDirective (trim line) then
      return
  let _ ← receive (Rule.fileLevel name (bytes "missing #Warn directive") s)

/-- Looks at the end of the text. -/
def TrailingNewline.handTo (s : Script) (receive : Consumer m) : m Unit := do
  if s.text.isEmpty || endsLine s.text then
    return
  let _ ← receive (Rule.fileLevel name (bytes "missing trailing newline") s)

/-! ### Lines -/

/-- Looks at one line after the other. -/
def TrailingWhitespace.handTo (s : Script) (receive : Consumer m) : m Unit := do
  for (line, i) in s.lines.zipIdx do
    if !isBad line then
      continue
    if !(← receive (finding s (i + 1))) then
      return

/-- Collects the definitions of all lines first, and then counts the uses of one after the other. -/
def UnusedFunctions.handTo (s : Script) (receive : Consumer m) : m Unit := do
  let mut defined : List (Text × Nat) := []
  for (line, i) in s.lines.zipIdx do
    match definedName? line with
    | none => continue
    | some ident => defined := defined ++ [(ident, i + 1)]
  if defined.isEmpty then
    return
  let code := body s.lines
  for d in defined do
    if 1 < uses d.1 false code then
      continue
    if !(← receive (finding s d)) then
      return

/-! ### All rules -/

/-- An object of a rule of the linter, with the fields of those that have some. -/
inductive StandardObject where
  | requireVersion (fields : RequireVersion.Fields)
  | requireSingleInstance (fields : RequireSingleInstance.Fields)
  | requireWarn
  | trailingNewline
  | trailingWhitespace
  | unusedFunctions

namespace StandardObject

/-- The objects that are registered: one for each rule, with none of its fields set. -/
def registered : List StandardObject :=
  [.requireVersion RequireVersion.object.blank,
    .requireSingleInstance RequireSingleInstance.object.blank, .requireWarn, .trailingNewline,
    .trailingWhitespace, .unusedFunctions]

/-- The rule that an object is one of. -/
def rule : StandardObject → Rule
  | .requireVersion _ => RequireVersion.rule
  | .requireSingleInstance _ => RequireSingleInstance.rule
  | .requireWarn => RequireWarn.rule
  | .trailingNewline => TrailingNewline.rule
  | .trailingWhitespace => TrailingWhitespace.rule
  | .unusedFunctions => UnusedFunctions.rule

/-- The object under an entry. One without fields takes no settings but empty ones. -/
def configure (o : StandardObject) (e : RuleEntry) : Except ConfigureError StandardObject :=
  match o with
  | .requireVersion fields => (RequireVersion.object.configure fields e).map .requireVersion
  | .requireSingleInstance fields =>
    (RequireSingleInstance.object.configure fields e).map .requireSingleInstance
  | o =>
    match e.settings with
    | none | some [] => .ok o
    | some _ => .error (.noSettings o.rule.name)

/-- Hands the findings of an object to a consumer. -/
def handTo (o : StandardObject) (s : Script) (receive : Consumer m) : m Unit :=
  match o with
  | .requireVersion fields => RequireVersion.handTo fields s receive
  | .requireSingleInstance fields => RequireSingleInstance.handTo fields s receive
  | .requireWarn => RequireWarn.handTo s receive
  | .trailingNewline => TrailingNewline.handTo s receive
  | .trailingWhitespace => TrailingWhitespace.handTo s receive
  | .unusedFunctions => UnusedFunctions.handTo s receive

end StandardObject

/-- A consumer that keeps what it receives, up to some number of findings if there is one. -/
def keepUpTo (limit : Option Nat) : Consumer (StateM (List Diagnostic)) := fun d => do
  modify (· ++ [d])
  return limit.all ((← get).length < ·)

end ScriptLint
