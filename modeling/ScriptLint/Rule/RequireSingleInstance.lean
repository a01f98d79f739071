import ScriptLint.Rule.RequireVersion

/-!
# The single-instance directive

A script must declare what happens when it is started a second time. The first such directive of
the script decides; later lines never matter. The mode is compared in any letter case and must end
where a word ends.
-/

namespace ScriptLint.RequireSingleInstance

/-- The mode expected unless a setting says otherwise. -/
def defaultMode : Text := "Force".toList

/-- The modes that a setting may name, in lower case. -/
def modes : List Text := ["force", "ignore", "prompt", "off"].map String.toList

/-- What follows the directive's word at the front of a line, when the word ends there. -/
def afterDirective? (line : Text) : Option Text := do
  let rest ← Fold.strip? "#SingleInstance".toList line
  if startsWithWord rest then none else some rest

/-- Whether the rest of a directive names the mode. -/
def names (mode rest : Text) : Bool :=
  match afterBlanks? rest >>= Fold.strip? mode with
  | some r => !startsWithWord r
  | none => false

/-- At most one finding: the directive is missing, or the first one has another mode. -/
def check (mode : Text) : Check := fun s =>
  match s.lines.findSome? fun line => afterDirective? (trim line) with
  | none => [Rule.fileLevel instanceRuleName (bytes "missing #SingleInstance directive") s]
  | some rest =>
    if names mode rest then []
    else [Rule.fileLevel instanceRuleName
      (bytes "#SingleInstance should use '" ++ Utf8.encode mode ++ bytes "'") s]

/-- The mode that a byte string names, whatever its letter case. -/
def mode? (s : Bytes) : Option Text := do
  let t ← Utf8.decode? s
  if modes.contains (t.map Fold.lowerAscii) then some t else none

/-- The mode that a mapping of settings asks for, entry by entry; the first entry at fault
decides. -/
def modeOf (mode : Text) : Settings → Except SettingsError Text
  | [] => .ok mode
  | (key, value) :: rest =>
    if key = bytes "mode" then
      match value with
      | .text s =>
        match mode? s with
        | some m => modeOf m rest
        | none => .error (.unknownMode s)
      | _ => .error (.modeNotText value)
    else .error (.unknownSetting instanceRuleName key)

/-- The check that settings give. -/
def apply (settings : Settings) : Except SettingsError Check :=
  (modeOf defaultMode settings).map check

/-- The rule about the single-instance directive. -/
def rule : Rule where
  name := instanceRuleName
  description :=
    bytes "Script must declare #SingleInstance with the expected mode (Force by default)."
  check := check defaultMode
  configurable := some
    { defaults := [(bytes "mode", .text (Utf8.encode defaultMode))], apply }

end ScriptLint.RequireSingleInstance
