import ScriptLint.Script.Lines

/-!
# Scripts and diagnostics

A script is what a rule sees: its text and the path under which findings are reported. A finding is
a diagnostic, anchored to a line or, with line zero, to the script as a whole.
-/

namespace ScriptLint

/-- A decoded script and the path that its findings name. -/
structure Script where
  path : Bytes
  text : Text
deriving DecidableEq, Repr

/-- The lines of a script, without their endings. -/
def Script.lines (s : Script) : List Text := splitLines s.text

/-- A finding. Lines count from one; anything below stands for the whole file. -/
structure Diagnostic where
  file : Bytes
  line : Int
  rule : Bytes
  message : Bytes
deriving DecidableEq, Repr

namespace Diagnostic

/-- Whether a finding concerns the file as a whole. -/
def isFileLevel (d : Diagnostic) : Bool := d.line ≤ 0

/-- The place of a finding: the file, with the line when there is one. -/
def location (d : Diagnostic) : Bytes :=
  if d.isFileLevel then d.file else d.file ++ bytes ":" ++ intBytes d.line

/-- A finding on one line: its place, a colon and its message. -/
def render (d : Diagnostic) : Bytes := d.location ++ bytes ": " ++ d.message

end Diagnostic

end ScriptLint
