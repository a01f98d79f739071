import ScriptLint.Config.Basic
import ScriptLint.Yaml.Printer

/-!
# Writing configurations

A configuration is written in the order of its fields, without those that say nothing; an override
keeps both of its fields. A rule is written as a boolean, or as its settings when it is on and has
some.
-/

namespace ScriptLint

open Yaml

/-- A rule's entry. -/
def RuleEntry.toTree (e : RuleEntry) : Tree :=
  match e.enabled, e.settings with
  | true, some (s :: ss) => .ofValue (.map (s :: ss))
  | enabled, _ => .ofValue (.bool enabled)

/-- Rules by name. -/
def rulesTree (rules : Entries RuleEntry) : Tree :=
  .ofEntries (rules.map fun (name, e) => (name, e.toTree))

/-- A list of strings. -/
def textsTree (texts : List Bytes) : Tree := .sequence (texts.map .string)

/-- An override. -/
def Override.toTree (o : Override) : Tree :=
  .record [("files", textsTree o.files), ("rules", rulesTree o.rules)]

namespace Config

/-- A configuration without the fields that say nothing. -/
def toTree (c : Config) : Tree :=
  let some? (present : Bool) (name : String) (t : Tree) : List (String × Tree) :=
    if present then [(name, t)] else []
  .record <|
    some? (c.scripts ≠ []) "scripts" (.string c.scripts)
      ++ some? (c.patterns ≠ []) "include" (textsTree c.patterns)
      ++ some? (c.ignored ≠ []) "ignore" (textsTree c.ignored)
      ++ some? (c.jobs ≠ 0) "jobs" (.ofValue (.int c.jobs))
      ++ some? (c.rules ≠ []) "rules" (rulesTree c.rules)
      ++ some? (c.overrides ≠ []) "overrides" (.sequence (c.overrides.map (·.toTree)))

/-- The text of a configuration file. -/
def render (c : Config) : Bytes := Utf8.encode c.toTree.render

end Config

end ScriptLint
