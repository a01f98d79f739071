import ScriptLint.Rule.Basic
import ScriptLint.Text.Class
import ScriptLint.Text.Fold

/-!
# The warning directive

A script must switch warnings on with a directive on some line, in any letter case, with white
space around it.
-/

namespace ScriptLint.RequireWarn

/-- The rule's name. -/
def name : Bytes := bytes "require_warn_directive"

/-- Whether a trimmed line starts with the directive. -/
def isDirective (line : Text) : Bool :=
  match Fold.strip? "#Warn".toList line with
  | some rest => !startsWithWord rest
  | none => false

/-- One finding unless some line is the directive. -/
def check : Check := fun s =>
  if s.lines.any fun line => isDirective (trim line) then []
  else [Rule.fileLevel name (bytes "missing #Warn directive") s]

/-- The rule about the warning directive. -/
def rule : Rule where
  name := name
  description := bytes "Script must enable warnings with #Warn."
  check := check

end ScriptLint.RequireWarn
