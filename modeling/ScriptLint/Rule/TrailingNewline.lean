import ScriptLint.Rule.Basic

/-!
# The final newline

A script that is not empty must end in a line terminator.
-/

namespace ScriptLint.TrailingNewline

/-- The rule's name. -/
def name : Bytes := bytes "trailing_newline"

/-- One finding for a script that is not empty and does not end in a line terminator. -/
def check : Check := fun s =>
  if s.text.isEmpty || endsLine s.text then []
  else [Rule.fileLevel name (bytes "missing trailing newline") s]

/-- The rule about the final newline. -/
def rule : Rule where
  name := name
  description := bytes "Non-empty script must end with a newline."
  check := check

end ScriptLint.TrailingNewline
