import ScriptLint.FileTree
import ScriptLint.Script.Basic
import ScriptLint.Script.Encoding
import ScriptLint.Text.Quoted

/-!
# Reading scripts

A script file is read, decoded, and named by its path relative to the project's root.
-/

namespace ScriptLint

/-- Why a script file gives no script. -/
inductive ReadError where
  | unreadable (path : Bytes) (cause : FileError)
  | undecodable (path : Bytes) (cause : DecodeError)
deriving DecidableEq, Repr

/-- The wording of a read error. -/
def ReadError.message : ReadError → Bytes
  | .unreadable path e => bytes "reading " ++ Quoted.quote path ++ bytes ": " ++ e.message
  | .undecodable path e => bytes "reading " ++ Quoted.quote path ++ bytes ": " ++ e.message

/-- The script in a file, under its path relative to the root; without a root the path is
absolute. -/
def readScript (w : World) (root path : Bytes) : Except ReadError Script :=
  match w.readFile path with
  | .error e => .error (.unreadable path e)
  | .ok data =>
    match decodeScript data with
    | .error e => .error (.undecodable path e)
    | .ok text => .ok ⟨Path.display w.cwd root (Path.absolute w.cwd path), text⟩

end ScriptLint
