import ScriptLint.Text.Utf8

/-!
# Lines

A line ends at a line feed, a carriage return followed by a line feed, or a carriage return alone.
A text is cut into lines that remember their ending, so that the text can be put together again; a
terminator at the end of the text starts no further line.
-/

namespace ScriptLint

/-- How a line ends. Only the last line of a text may be `unterminated`. -/
inductive Ending where
  | lf
  | crlf
  | cr
  | unterminated
deriving DecidableEq, Repr

namespace Ending

/-- The characters of an ending. -/
def text : Ending → Text
  | .lf => ['\n']
  | .crlf => ['\r', '\n']
  | .cr => ['\r']
  | .unterminated => []

end Ending

/-- A line of a text: its characters and its ending. -/
structure Line where
  body : Text
  ending : Ending
deriving DecidableEq, Repr

namespace Line

/-- The line as it stands in the text. -/
def text (l : Line) : Text := l.body ++ l.ending.text

end Line

/-- Puts a character in front of the first line. -/
def consLine (c : Char) : List Line → List Line
  | [] => [⟨[c], .unterminated⟩]
  | l :: ls => ⟨c :: l.body, l.ending⟩ :: ls

/-- The lines of a text with their endings. -/
def cutLines : Text → List Line
  | [] => []
  | '\r' :: '\n' :: r => ⟨[], .crlf⟩ :: cutLines r
  | c :: r =>
    if c = '\n' then ⟨[], .lf⟩ :: cutLines r
    else if c = '\r' then ⟨[], .cr⟩ :: cutLines r
    else consLine c (cutLines r)

/-- The lines of a text without their endings. -/
def splitLines (t : Text) : List Text := (cutLines t).map (·.body)

/-- Whether a text ends in a line terminator. A carriage return alone counts. -/
def endsLine (t : Text) : Bool :=
  match t.getLast? with
  | some c => c == '\n' || c == '\r'
  | none => false

end ScriptLint
