import ScriptLint.Config.Basic
import ScriptLint.Config.Decoding

/-!
# Reading configurations

A configuration file is a mapping with known fields; unknown ones are passed over. Null leaves a
field as it is, or empties a list. A rule's entry is a boolean or a mapping of settings, and one of
any other kind refuses the whole file at once.
-/

namespace ScriptLint

open Yaml

namespace Decoding

/-! ### Scalars -/

/-- Words that count as true or false where a boolean is wanted, besides the usual ones. -/
def switchWord? (s : Bytes) : Option Bool :=
  let isOne (words : List String) : Bool := words.any (bytes · == s)
  if isOne ["y", "Y", "yes", "Yes", "YES", "on", "On", "ON"] then some true
  else if isOne ["n", "N", "no", "No", "NO", "off", "Off", "OFF"] then some false
  else none

/-- A boolean value. -/
def asBool? : Value → Option Bool
  | .bool b => some b
  | .text s => switchWord? s
  | _ => none

/-- An integer value; a fraction loses what stands behind its point. -/
def asInt? : Value → Option Int
  | .int n => if n ≤ Value.maxInt then some n else none
  | .float x => x.truncate?
  | _ => none

/-- A scalar of a wanted kind. Null gives nothing, and any other node is a mismatch. -/
def scalarOf {α : Type} (d : Document) (wanted : Shape) (accept : Value → Option α) (n : Node) :
    Decoding (Option α) :=
  visit d n fun n => do
    match n with
    | .scalar tag t _ =>
      match ← scalarValue tag t with
      | (_, .null) => return none
      | (_, value) =>
        match accept value with
        | some a => return some a
        | none => mismatch d n wanted
    | .mapping _ entries _ =>
      if ← complainDuplicates entries then return none
      mismatch d n wanted
    | _ => mismatch d n wanted

/-! ### Collections -/

/-- A list whose items are decoded one by one; an item that gives nothing is left out. Null is the
empty list. -/
def listOf {α : Type} (d : Document) (wanted : Shape) (item : Node → Decoding (Option α))
    (n : Node) : Decoding (Option (List α)) :=
  visit d n fun n => do
    match n with
    | .sequence _ items _ => return some (← items.filterMapM item)
    | .scalar tag t _ =>
      match ← scalarValue tag t with
      | (_, .null) => return some []
      | _ => mismatch d n wanted
    | .mapping _ entries _ =>
      if ← complainDuplicates entries then return none
      mismatch d n wanted
    | .reference .. => return none

/-- A mapping whose entries are put into a value one by one. Null gives what `null` says. -/
def mappingAt {σ : Type} (d : Document) (wanted : Shape) (null : Option σ) (start : σ)
    (put : σ → Entry Bytes → Decoding σ) (n : Node) : Decoding (Option σ) := do
  match n with
  | .mapping _ entries _ =>
    let fuel := depthBound d
    entriesInto d (anyValue d fuel) (textOf d) .text put fuel true entries start
  | .scalar tag t _ =>
    match ← scalarValue tag t with
    | (_, .null) => return null
    | _ => mismatch d n wanted
  | .sequence .. => mismatch d n wanted
  | .reference .. => return none

/-- A mapping, or the one that an alias stands for. -/
def mappingOf {σ : Type} (d : Document) (wanted : Shape) (null : Option σ) (start : σ)
    (put : σ → Entry Bytes → Decoding σ) (n : Node) : Decoding (Option σ) :=
  visit d n (mappingAt d wanted null start put)

/-- A field that came up before in the same mapping is noted and left alone. -/
def field {σ : Type} (inside : Shape) (e : Entry Bytes) (out : σ) (act : Decoding σ) :
    Decoding σ := do
  if e.isRepeated then
    complain (.duplicateField e.name.line e.key inside)
    return out
  act

/-! ### Rules -/

/-- Decodes a node apart from all others. -/
def apart {α : Type} (act : Decoding α) : Except DocumentError α :=
  match act.run {} with
  | .error e => .error e
  | .ok (a, s) => if s.complaints.isEmpty then .ok a else .error (.complaints s.complaints)

/-- Settings by name. -/
def settingsOf (d : Document) (n : Node) : Decoding (Option Settings) :=
  mappingOf d .settings none [] (fun out e => do
    match ← anyValue d (depthBound d) e.value with
    | some v => return Entries.set out e.key v
    | none => return out) n

/-- A rule's entry under the tag of null, where it is a record of its two parts. -/
def plainRuleEntry (d : Document) (n : Node) : Decoding (Option RuleEntry) :=
  mappingAt d .ruleEntry none {} (fun out e => do
    if e.key = bytes "enabled" then
      field .ruleEntry e out do
        return { out with enabled := (← scalarOf d .bool asBool? e.value).getD out.enabled }
    else if e.key = bytes "settings" then
      field .ruleEntry e out do
        match ← settingsOf d e.value with
        | some s => return { out with settings := some s }
        | none => return out
    else return out) n

/-- A rule's entry: a boolean, or a mapping of settings, which turns the rule on. -/
def ruleEntryOf (d : Document) (n : Node) : Decoding (Option RuleEntry) :=
  visit d n fun n => do
    if d.tagOf n = Tag.null then plainRuleEntry d n
    else
      match n with
      | .scalar _ _ line =>
        match apart (scalarOf d .bool asBool? n) with
        | .ok b => return some { enabled := b.getD false }
        | .error e => throw (.badRuleEntry line (some e))
      | .mapping .. =>
        match apart (settingsOf d n) with
        | .ok s => return some { enabled := true, settings := s }
        | .error e => throw (.badRuleSettings e)
      | n => throw (.badRuleEntry n.line none)

/-- The rules by name. Null under a new name is a rule that is off. -/
def rulesOf (d : Document) (n : Node) : Decoding (Option (Entries RuleEntry)) :=
  mappingOf d .rules (some []) [] (fun out e => do
    match ← ruleEntryOf d e.value with
    | some entry => return out.set e.key entry
    | none =>
      if d.tagOf e.value = Tag.null ∧ (e.isOwn ∨ (out.get? e.key).isNone) then
        return out.set e.key {}
      else return out) n

/-! ### Records -/

/-- An override. -/
def overrideOf (d : Document) (n : Node) : Decoding (Option Override) :=
  mappingOf d .override none {} (fun out e => do
    if e.key = bytes "files" then
      field .override e out do
        return { out with files := (← listOf d .texts (textOf d) e.value).getD out.files }
    else if e.key = bytes "rules" then
      field .override e out do
        return { out with rules := (← rulesOf d e.value).getD out.rules }
    else return out) n

/-- A configuration. -/
def configOf (d : Document) (n : Node) : Decoding (Option Config) :=
  mappingOf d .config none {} (fun out e => do
    if e.key = bytes "scripts" then
      field .config e out do
        return { out with scripts := (← textOf d e.value).getD out.scripts }
    else if e.key = bytes "include" then
      field .config e out do
        return { out with patterns := (← listOf d .texts (textOf d) e.value).getD out.patterns }
    else if e.key = bytes "ignore" then
      field .config e out do
        return { out with ignored := (← listOf d .texts (textOf d) e.value).getD out.ignored }
    else if e.key = bytes "jobs" then
      field .config e out do
        return { out with jobs := (← scalarOf d .int asInt? e.value).getD out.jobs }
    else if e.key = bytes "rules" then
      field .config e out do
        return { out with rules := (← rulesOf d e.value).getD out.rules }
    else if e.key = bytes "overrides" then
      field .config e out do
        return { out with
          overrides := (← listOf d .overrides (overrideOf d) e.value).getD out.overrides }
    else return out) n

end Decoding

namespace Config

/-- The configuration that some bytes describe. No document and null describe an empty one. -/
def decode (data : Bytes) : Except DocumentError Config :=
  match Document.parse? data with
  | .error f => .error (.fault f)
  | .ok none => .ok {}
  | .ok (some d) => do
    let c ← Decoding.apart do
      Decoding.tick
      Decoding.configOf d d.root
    return c.getD {}

/-- Why no configuration is loaded. -/
inductive LoadError where
  | unreadable (e : FileError)
  | malformed (path : Bytes) (e : DocumentError)

namespace LoadError

/-- The wording of a load error. One that stops the program is shown as it is. -/
def message : LoadError → Bytes
  | .unreadable e => bytes "reading config file: " ++ e.message
  | .malformed path e =>
    if e.isFatal then e.message
    else bytes "parsing config file " ++ Quoted.quote path ++ bytes ": " ++ e.message

/-- Whether the program stops at this error instead of reporting it. -/
def isFatal : LoadError → Bool
  | .unreadable _ => false
  | .malformed _ e => e.isFatal

end LoadError

/-- The configuration in a file. -/
def load (w : World) (path : Bytes) : Except LoadError Config :=
  match w.readFile path with
  | .error e => .error (.unreadable e)
  | .ok data =>
    match decode data with
    | .ok c => .ok c
    | .error e => .error (.malformed path e)

end Config

end ScriptLint
