import ScriptLint.Script.Basic
import ScriptLint.Value

/-!
# Rules

A rule has a name and turns a script into a list of findings. Some rules take settings: they have
default settings, and applying settings to them gives a new check or a reason why the settings are
refused. Nothing is changed in place, so a refused setting leaves the rule as it was, and the check
that settings give depends on those settings alone.
-/

namespace ScriptLint

/-- The findings of a rule on a script, in the rule's own order. -/
abbrev Check := Script → List Diagnostic

/-- Why settings are refused. -/
inductive SettingsError where
  /-- A setting that the rule does not have. -/
  | unknownSetting (rule key : Bytes)
  /-- The version is no string, or blank. -/
  | badVersion (got : Value)
  /-- The mode is no string. -/
  | modeNotText (got : Value)
  /-- The mode is none of the four modes. -/
  | unknownMode (got : Bytes)
  /-- The version is not UTF-8, so no text can be compared with it. This stops the program. -/
  | versionNotUtf8 (version : Bytes)

/-- The names of the two rules with settings, which their messages start with. -/
def versionRuleName : Bytes := bytes "require_ahk_version"

@[inherit_doc versionRuleName]
def instanceRuleName : Bytes := bytes "require_single_instance"

/-- The characters with a meaning in a pattern, which stand behind a backslash where they are meant
literally. -/
def isPatternMeta (b : UInt8) : Bool := (bytes "\\.+*?()|[]\x7b\x7d^$").contains b

/-- The pattern of a version, as the message about an unusable one shows it. -/
def versionPattern (version : Bytes) : Bytes :=
  bytes "(?i)^#Requires\\s+AutoHotkey\\s+"
    ++ version.flatMap fun b => if isPatternMeta b then [0x5C, b] else [b]

/-- A byte string from its first stray byte on. -/
def fromStray (bs : Bytes) : Bytes :=
  Utf8.joinPieces ((Utf8.pieces bs).dropWhile fun
    | .char _ => true
    | .stray _ => false)

namespace SettingsError

/-- The wording of a settings error. -/
def message : SettingsError → Bytes
  | .unknownSetting rule key => rule ++ bytes ": unknown setting " ++ Quoted.quote key
  | .badVersion got =>
    versionRuleName ++ bytes ": version must be a non-empty string, got " ++ got.render
  | .modeNotText got => instanceRuleName ++ bytes ": mode must be a string, got " ++ got.kindName
  | .unknownMode got =>
    instanceRuleName ++ bytes ": mode must be Force, Ignore, Prompt or Off, got "
      ++ Quoted.quote got
  | .versionNotUtf8 version =>
    bytes "regexp: Compile(" ++ Quoted.quote (versionPattern version)
      ++ bytes "): error parsing regexp: invalid UTF-8: `"
      ++ fromStray (versionPattern version) ++ bytes "`"

/-- Whether the program stops at this error instead of reporting it. -/
def isFatal : SettingsError → Bool
  | .versionNotUtf8 _ => true
  | _ => false

end SettingsError

/-- What a rule with settings offers: its default settings, and the check that settings give. -/
structure Configurable where
  defaults : Settings
  apply : Settings → Except SettingsError Check

/-- What findings are handed to, one by one. It tells after each of them whether more are wanted. -/
abbrev Consumer (m : Type → Type) := Diagnostic → m Bool

/-- Hands findings to a consumer, up to the one after which no more are wanted. -/
def handOver {m : Type → Type} [Monad m] : List Diagnostic → Consumer m → m Unit
  | [], _ => return
  | d :: ds, receive => do
    if ← receive d then
      handOver ds receive

/-- A lint rule. -/
structure Rule where
  name : Bytes
  /-- One line about the rule; empty when it has none. -/
  description : Bytes := []
  check : Check
  /-- Present when the rule takes settings. -/
  configurable : Option Configurable := none

namespace Rule

/-- A finding of a rule about the script as a whole. -/
def fileLevel (name message : Bytes) (s : Script) : Diagnostic :=
  { file := s.path, line := 0, rule := name, message }

/-- A rule without settings that reports the same message about every script. -/
def always (name message : Bytes) : Rule :=
  { name, check := fun s => [fileLevel name message s] }

/-- The rule under new settings; nothing for a rule that takes none. -/
def applySettings? (r : Rule) (s : Settings) : Option (Except SettingsError Rule) :=
  r.configurable.map fun c => (c.apply s).map fun check => { r with check }

/-- A fresh copy: a rule with settings is back at its defaults, any other is as it was. -/
def clone (r : Rule) : Rule :=
  match r.configurable with
  | none => r
  | some c =>
    match c.apply c.defaults with
    | .ok check => { r with check }
    | .error _ => r

/-- Hands the findings of a rule to a consumer. -/
def handTo {m : Type → Type} [Monad m] (r : Rule) (s : Script) (receive : Consumer m) : m Unit :=
  handOver (r.check s) receive

end Rule

end ScriptLint
