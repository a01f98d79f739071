import ScriptLint.Rule.RequireSingleInstance
import ScriptLint.Run.Check

/-!
# Rules as objects

A rule with settings is kept as an object, whose fields say what it looks for. A new object has none
of them set and looks for what is expected by default. Applying settings to an object reads them
entry by entry and then sets its fields; settings that are refused end this on the way, and whatever
has happened to the object by then stays. A fresh copy is a new object to which the default settings
are applied. `Rule` has the check of such an object in place of its fields.
-/

namespace ScriptLint

/-- A rule whose objects have fields of type `σ`. -/
structure RuleObject (σ : Type) where
  name : Bytes
  /-- The fields of a new object. -/
  blank : σ
  /-- The default settings that an object names. -/
  defaults : σ → Settings
  /-- Applies settings to an object. -/
  take : Settings → EStateM SettingsError σ Unit
  /-- The findings of an object with such fields. -/
  check : σ → Check

namespace RuleObject

variable {σ : Type}

/-- The fields of a fresh copy of an object. It is told nowhere if the default settings are
refused. -/
def clone (o : RuleObject σ) (fields : σ) : σ :=
  match (o.take (o.defaults fields)).run o.blank with
  | .ok _ fields => fields
  | .error _ fields => fields

/-- The fields of an object under an entry. Without settings, or with empty ones, it is the object
itself, and else a fresh copy of it to which the settings are applied. -/
def configure (o : RuleObject σ) (fields : σ) (e : RuleEntry) : Except ConfigureError σ :=
  match e.settings with
  | none | some [] => .ok fields
  | some settings =>
    match (o.take settings).run (o.clone fields) with
    | .ok _ fields => .ok fields
    | .error reason _ => .error (.refused o.name reason)

end RuleObject

namespace RequireVersion

/-- The field of an object: the version that its pattern is made from, once there is one. -/
structure Fields where
  pattern : Option Text := none

/-- Applies settings to an object. The entries are read before anything is set. -/
def take (settings : Settings) : EStateM SettingsError Fields Unit := do
  let mut version := Utf8.encode defaultVersion
  for (key, value) in settings do
    if key = bytes "version" then
      match value with
      | .text s =>
        if trimBytes s = [] then
          throw (.badVersion value)
        version := trimBytes s
      | _ => throw (.badVersion value)
    else
      throw (.unknownSetting versionRuleName key)
  match Utf8.decode? version with
  | some t => modify fun fields => { fields with pattern := some t }
  | none => throw (.versionNotUtf8 version)

/-- The rule about the version directive, as objects. -/
def object : RuleObject Fields where
  name := versionRuleName
  blank := {}
  defaults _ := [(bytes "version", .text (Utf8.encode defaultVersion))]
  take
  check fields := check (fields.pattern.getD defaultVersion)

end RequireVersion

namespace RequireSingleInstance

/-- The fields of an object: the mode that messages name, which is empty at first, and the mode that
its pattern is made from, once there is one. -/
structure Fields where
  mode : Text := []
  modePattern : Option Text := none

/-- The mode that messages name. -/
def Fields.modeName (fields : Fields) : Text :=
  if fields.mode = [] then defaultMode else fields.mode

/-- The mode that a directive is compared with. -/
def Fields.pattern (fields : Fields) : Text := fields.modePattern.getD defaultMode

/-- What an object finds: at most one finding, as it is with `RequireSingleInstance.check`. -/
def Fields.check (fields : Fields) : Check := fun s =>
  match s.lines.findSome? fun line => afterDirective? (trim line) with
  | none => [Rule.fileLevel instanceRuleName (bytes "missing #SingleInstance directive") s]
  | some rest =>
    if names fields.pattern rest then []
    else [Rule.fileLevel instanceRuleName
      (bytes "#SingleInstance should use '" ++ Utf8.encode fields.modeName ++ bytes "'") s]

/-- Applies settings to an object. The entries are read before anything is set, and the two fields
are set one after the other. -/
def take (settings : Settings) : EStateM SettingsError Fields Unit := do
  let mut mode := defaultMode
  for (key, value) in settings do
    if key = bytes "mode" then
      match value with
      | .text s =>
        match mode? s with
        | some m => mode := m
        | none => throw (.unknownMode s)
      | _ => throw (.modeNotText value)
    else
      throw (.unknownSetting instanceRuleName key)
  modify fun fields => { fields with mode }
  modify fun fields => { fields with modePattern := some mode }

/-- The rule about the single-instance directive, as objects. -/
def object : RuleObject Fields where
  name := instanceRuleName
  blank := {}
  defaults _ := [(bytes "mode", .text (Utf8.encode defaultMode))]
  take
  check := Fields.check

end RequireSingleInstance

end ScriptLint
