import ScriptLint.Rule.Basic
import ScriptLint.Text.Class
import ScriptLint.Text.Fold

/-!
# The version directive

The first line of a script must require the expected version of the interpreter. Byte order marks
in front of the line are passed over; letter case does not matter; and the version is compared as
literal text, so what follows it on the line is free.
-/

namespace ScriptLint

/-- What follows one or more ASCII blanks. -/
def afterBlanks? : Text → Option Text
  | [] => none
  | c :: r => if isAsciiBlank c then some (r.dropWhile isAsciiBlank) else none

namespace RequireVersion

/-- The version expected unless a setting says otherwise. -/
def defaultVersion : Text := "v2".toList

/-- The byte order mark as a character. -/
def byteOrderMark : Char := '\uFEFF'

/-- Whether a line is a directive for the version: the directive's two words and the version, in
any letter case, with ASCII blanks between them. -/
def requires (version line : Text) : Bool :=
  ((Fold.strip? "#Requires".toList line >>= afterBlanks?
    >>= Fold.strip? "AutoHotkey".toList) >>= afterBlanks?
    >>= Fold.strip? version).isSome

/-- The first line without byte order marks in front; empty for a script without lines. -/
def firstLine (s : Script) : Text :=
  (s.lines.headD []).dropWhile (· == byteOrderMark)

/-- One finding unless the first line requires the version. -/
def check (version : Text) : Check := fun s =>
  if requires version (firstLine s) then []
  else [Rule.fileLevel versionRuleName
    (bytes "missing or incorrect #Requires directive on first line") s]

/-- The version that a mapping of settings asks for, entry by entry; the first entry at fault
decides. -/
def versionOf (version : Bytes) : Settings → Except SettingsError Bytes
  | [] => .ok version
  | (key, value) :: rest =>
    if key = bytes "version" then
      match value with
      | .text s =>
        if trimBytes s = [] then .error (.badVersion value) else versionOf (trimBytes s) rest
      | _ => .error (.badVersion value)
    else .error (.unknownSetting versionRuleName key)

/-- The check that settings give. -/
def apply (settings : Settings) : Except SettingsError Check := do
  let version ← versionOf (Utf8.encode defaultVersion) settings
  match Utf8.decode? version with
  | some t => return check t
  | none => .error (.versionNotUtf8 version)

/-- The rule about the version directive. -/
def rule : Rule where
  name := versionRuleName
  description :=
    bytes "First line must be a #Requires AutoHotkey directive for the expected version."
  check := check defaultVersion
  configurable := some
    { defaults := [(bytes "version", .text (Utf8.encode defaultVersion))], apply }

end RequireVersion

end ScriptLint
