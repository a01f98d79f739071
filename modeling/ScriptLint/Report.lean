import ScriptLint.Script.Basic
import ScriptLint.Text.Quoted

/-!
# Reports

Findings are written as text, one on each line, or as one JSON document. A writer may fail after
some pieces; text then stops at the first piece that is refused. The exit code tells errors from
findings from a clean run.
-/

namespace ScriptLint

/-! ### Writing -/

/-- Where output goes: the pieces accepted so far, how many are accepted at all, and how many were
refused. -/
structure Sink where
  limit : Option Nat := none
  written : List Bytes := []
  refused : Nat := 0
deriving Repr

namespace Sink

/-- Whether the next piece is accepted. -/
def accepts (s : Sink) : Bool :=
  match s.limit with
  | none => true
  | some n => s.written.length < n

/-- Writes a piece, and tells whether it was accepted. -/
def write (s : Sink) (piece : Bytes) : Sink × Bool :=
  if s.accepts then ({ s with written := s.written ++ [piece] }, true)
  else ({ s with refused := s.refused + 1 }, false)

/-- Writes pieces whether they are accepted or not. -/
def writeEach (s : Sink) (pieces : List Bytes) : Sink := pieces.foldl (fun s p => (s.write p).1) s

/-- Writes pieces up to the first one that is refused, and tells whether all were accepted. -/
def writeAll : Sink → List Bytes → Sink × Bool
  | s, [] => (s, true)
  | s, p :: ps =>
    match s.write p with
    | (s, true) => writeAll s ps
    | (s, false) => (s, false)

/-- Everything that was accepted. -/
def content (s : Sink) : Bytes := s.written.flatten

/-- The reason for a refused piece. -/
def refusal : Bytes := bytes "broken pipe"

end Sink

/-! ### Text -/

namespace Diagnostic

/-- A finding as a line of text, the place in cyan when there is colour. -/
def textLine (colour : Bool) (d : Diagnostic) : Bytes :=
  if colour then
    bytes "\x1b[36m" ++ d.location ++ bytes ":\x1b[0m " ++ d.message ++ bytes "\n"
  else d.render ++ bytes "\n"

end Diagnostic

/-! ### JSON -/

namespace Json

/-- A character inside of a JSON string. The characters that mean something to a browser are
escaped too. -/
def escapeChar (c : Char) : Text :=
  match c with
  | '"' => "\\\"".toList
  | '\\' => "\\\\".toList
  | '\n' => "\\n".toList
  | '\r' => "\\r".toList
  | '\t' => "\\t".toList
  | '\x08' => "\\b".toList
  | '\x0c' => "\\f".toList
  | c =>
    if c.toNat < 0x20 || c == '<' || c == '>' || c == '&' || c == '\u2028' || c == '\u2029' then
      '\\' :: 'u' :: Quoted.hex 4 c.toNat
    else [c]

/-- A JSON string. A stray byte is written as the escaped replacement character. -/
def string (s : Bytes) : Bytes :=
  let piece : Utf8.Piece → Text
    | .char c => escapeChar c
    | .stray _ => "\\ufffd".toList
  Utf8.encode ('"' :: (Utf8.pieces s).flatMap piece ++ ['"'])

/-- A finding as a JSON object inside of an array. A line of zero is left out. -/
def ofDiagnostic (d : Diagnostic) : Bytes :=
  let member (name : String) (value : Bytes) : Bytes :=
    bytes "    \"" ++ bytes name ++ bytes "\": " ++ value
  let members :=
    [member "file" (string d.file)]
      ++ (if d.line = 0 then [] else [member "line" (intBytes d.line)])
      ++ [member "rule" (string d.rule), member "message" (string d.message)]
  bytes "  \x7b\n" ++ joinBytes (bytes ",\n") members ++ bytes "\n  \x7d"

/-- Findings as a JSON array, with a line break behind it. -/
def ofDiagnostics (ds : List Diagnostic) : Bytes :=
  match ds with
  | [] => bytes "[]\n"
  | ds => bytes "[\n" ++ joinBytes (bytes ",\n") (ds.map ofDiagnostic) ++ bytes "\n]\n"

end Json

/-- The formats of a report. -/
inductive ReportFormat where
  | text
  | json
deriving DecidableEq, Repr

namespace ReportFormat

/-- The pieces that a report is written in: a line for each finding, or one document. -/
def pieces (f : ReportFormat) (colour : Bool) (ds : List Diagnostic) : List Bytes :=
  match f with
  | .text => ds.map (·.textLine colour)
  | .json => [Json.ofDiagnostics ds]

/-- Writes a report, and tells whether all of it was accepted. -/
def report (f : ReportFormat) (colour : Bool) (ds : List Diagnostic) (s : Sink) : Sink × Bool :=
  s.writeAll (f.pieces colour ds)

end ReportFormat

/-! ### Exit codes -/

/-- The exit code of a run: two for errors, one for findings, zero for neither. -/
def exitCode (hasDiagnostics hasErrors : Bool) : Nat :=
  if hasErrors then 2 else if hasDiagnostics then 1 else 0

/-! ### The log -/

/-- A log of what a run does, which may be off or lead nowhere. -/
structure Log where
  enabled : Bool
  hasTarget : Bool := true
deriving DecidableEq, Repr

/-- What a log writes for some lines; no log writes nothing. -/
def Log.write (l : Option Log) (lines : List Bytes) : Bytes :=
  match l with
  | some ⟨true, true⟩ => lines.flatMap (· ++ bytes "\n")
  | _ => []

end ScriptLint
