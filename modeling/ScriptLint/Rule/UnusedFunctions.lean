import ScriptLint.Rule.Basic
import ScriptLint.Text.Class

/-!
# Functions that are never called

A line that looks like a function header defines its name, unless the name is a keyword of control
flow. A name is used where it stands as a whole word before an opening parenthesis, anywhere outside
comments, its own header included. A definition is reported when the header is its only use.
-/

namespace ScriptLint.UnusedFunctions

/-- The rule's name. -/
def name : Bytes := bytes "unused_functions"

/-- Words that share the shape of a header but define nothing. -/
def keywords : List Text :=
  ["if", "while", "for", "loop", "switch", "catch", "until", "return", "throw"].map String.toList

/-- What follows the expected character. -/
def expect? (c : Char) : Text → Option Text
  | [] => none
  | d :: r => if d = c then some r else none

/-- The name of a one-line header: blanks, an identifier, blanks, parentheses around anything but a
closing one, blanks and an opening brace. -/
def headerName? (line : Text) : Option Text := do
  let t := line.dropWhile isAsciiBlank
  let c ← t.head?
  if !isIdentStart c then none
  let ident := t.takeWhile isWordChar
  let t ← expect? '(' ((t.dropWhile isWordChar).dropWhile isAsciiBlank)
  let t ← expect? ')' (t.dropWhile (· != ')'))
  let _ ← expect? '{' (t.dropWhile isAsciiBlank)
  return ident

/-- The name that a line defines. -/
def definedName? (line : Text) : Option Text := do
  let ident ← headerName? line
  if keywords.contains (ident.map Char.toLower) then none else some ident

/-- The definitions on lines, each with its line number, of which the first is given. -/
def definitions : (number : Nat) → List Text → List (Text × Nat)
  | _, [] => []
  | number, line :: lines =>
    match definedName? line with
    | some ident => (ident, number) :: definitions (number + 1) lines
    | none => definitions (number + 1) lines

/-- A line up to its first semicolon. -/
def code (line : Text) : Text := line.takeWhile (· != ';')

/-- The code of lines, with line feeds between them. -/
def body : List Text → Text
  | [] => []
  | [line] => code line
  | line :: lines => code line ++ '\n' :: body lines

/-- What follows a text at the front of another. -/
def strip? : (pattern text : Text) → Option Text
  | [], t => some t
  | _ :: _, [] => none
  | p :: ps, c :: cs => if p = c then strip? ps cs else none

/-- Whether a text starts with the name, blanks and an opening parenthesis. -/
def calledAt (ident t : Text) : Bool :=
  match strip? ident t with
  | some r => (r.dropWhile isAsciiBlank).head? == some '('
  | none => false

/-- The number of uses of a name in a text, after a character that is or is not a word
character. -/
def uses (ident : Text) : (afterWord : Bool) → Text → Nat
  | _, [] => 0
  | afterWord, c :: r =>
    (if !afterWord && calledAt ident (c :: r) then 1 else 0) + uses ident (isWordChar c) r

/-- The finding about a definition. -/
def finding (s : Script) (d : Text × Nat) : Diagnostic where
  file := s.path
  line := d.2
  rule := name
  message := bytes "function '" ++ Utf8.encode d.1 ++ bytes "' defined but not used"

/-- One finding for each definition without a second use, in line order. -/
def check : Check := fun s =>
  let code := body s.lines
  ((definitions 1 s.lines).filter fun d => uses d.1 false code ≤ 1).map (finding s)

/-- The rule about functions that are never called. -/
def rule : Rule where
  name := name
  description :=
    bytes "Functions defined in a script should be called somewhere in the same script. " ++
      bytes "Control-flow headers such as `if (x) \x7b` are not definitions."
  check := check

end ScriptLint.UnusedFunctions
