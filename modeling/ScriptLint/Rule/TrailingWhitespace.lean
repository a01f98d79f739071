import ScriptLint.Rule.Basic
import ScriptLint.Text.Class

/-!
# White space at the end of lines

Every line that ends in a Unicode space character is reported.
-/

namespace ScriptLint.TrailingWhitespace

/-- The rule's name. -/
def name : Bytes := bytes "trailing_whitespace"

/-- Whether a line ends in white space. -/
def isBad (line : Text) : Bool :=
  match line.getLast? with
  | some c => isSpace c
  | none => false

/-- The finding about a line. -/
def finding (s : Script) (line : Nat) : Diagnostic :=
  { file := s.path, line, rule := name, message := bytes "trailing whitespace" }

/-- The findings on lines, of which the first has the given number. -/
def findings (s : Script) : (number : Nat) → List Text → List Diagnostic
  | _, [] => []
  | number, line :: lines =>
    if isBad line then finding s number :: findings s (number + 1) lines
    else findings s (number + 1) lines

/-- One finding for each line that ends in white space, in line order. -/
def check : Check := fun s => findings s 1 s.lines

/-- The rule about white space at the end of lines. -/
def rule : Rule where
  name := name
  description := bytes "Lines must not end with whitespace."
  check := check

end ScriptLint.TrailingWhitespace
