import ScriptLint.Entries
import ScriptLint.Yaml.Node

/-!
# Decoding nodes

Decoding gives the nodes of a document their values. Two kinds of trouble are told apart: a fault
stops it, while a value of the wrong kind is noted as a complaint and left out, so that all
complaints of a document are reported together. Aliases are followed, within a limit on how much of
the work may come from them, and a merge key adds the entries of other mappings that are not there
yet.
-/

namespace ScriptLint

open Yaml

/-! ### Complaints and errors -/

/-- The kinds of values that a configuration is made of. -/
inductive Shape where
  | config
  | override
  | overrides
  | texts
  | text
  | int
  | bool
  | rules
  | ruleEntry
  | settings
deriving DecidableEq, Repr

/-- The name of a kind of values in complaints. -/
def Shape.name : Shape → Bytes
  | .config => bytes "config.Config"
  | .override => bytes "config.Override"
  | .overrides => bytes "[]config.Override"
  | .texts => bytes "[]string"
  | .text => bytes "string"
  | .int => bytes "int"
  | .bool => bytes "bool"
  | .rules => bytes "map[string]config.RuleCfg"
  | .ruleEntry => bytes "config.RuleCfg"
  | .settings => bytes "map[string]interface \x7b\x7d"

/-- A value that is left out. -/
inductive Complaint where
  | mismatch (line : Nat) (tag text : Bytes) (wanted : Shape)
  | duplicateKey (line : Nat) (key : Bytes) (firstLine : Nat)
  | duplicateField (line : Nat) (key : Bytes) (inside : Shape)
deriving DecidableEq, Repr

/-- The text of a value in a complaint: a long one is cut after seven bytes, and collections have
none. -/
def excerpt (tag text : Bytes) : Bytes :=
  if tag = Tag.seq ∨ tag = Tag.map then []
  else if 10 < text.length then bytes " `" ++ text.take 7 ++ bytes "...`"
  else bytes " `" ++ text ++ bytes "`"

/-- The wording of a complaint. -/
def Complaint.message : Complaint → Bytes
  | .mismatch line tag text wanted =>
    bytes "line " ++ natBytes line ++ bytes ": cannot unmarshal " ++ tag ++ excerpt tag text
      ++ bytes " into " ++ wanted.name
  | .duplicateKey line key firstLine =>
    bytes "line " ++ natBytes line ++ bytes ": mapping key " ++ Quoted.quote key
      ++ bytes " already defined at line " ++ natBytes firstLine
  | .duplicateField line key inside =>
    bytes "line " ++ natBytes line ++ bytes ": field " ++ key ++ bytes " already set in type "
      ++ inside.name

/-- Why a document gives no configuration. -/
inductive DocumentError where
  | fault (f : Fault)
  | complaints (cs : List Complaint)
  /-- A list or a mapping as a key, where the keys of other mappings are merged in. This stops the
  program. -/
  | collectionKey (kind : Bytes)
  /-- A rule's entry that is neither a boolean nor a mapping, with the reason for a scalar. -/
  | badRuleEntry (line : Nat) (reason : Option DocumentError)
  /-- A rule's entry with settings that cannot be decoded. -/
  | badRuleSettings (reason : DocumentError)

namespace DocumentError

/-- The wording of a document error. -/
def message : DocumentError → Bytes
  | .fault f => f.message
  | .complaints cs =>
    bytes "yaml: unmarshal errors:\n  " ++ joinBytes (bytes "\n  ") (cs.map (·.message))
  | .collectionKey kind => bytes "runtime error: hash of unhashable type " ++ kind
  | .badRuleEntry line none =>
    bytes "line " ++ natBytes line ++ bytes ": rule config must be a bool or a mapping"
  | .badRuleEntry line (some e) =>
    bytes "line " ++ natBytes line ++ bytes ": rule config must be a bool or a mapping: "
      ++ e.message
  | .badRuleSettings e => bytes "invalid rule config: " ++ e.message

/-- Whether the program stops at this error instead of reporting it. -/
def isFatal : DocumentError → Bool
  | .collectionKey _ => true
  | .badRuleEntry _ (some e) | .badRuleSettings e => e.isFatal
  | _ => false

end DocumentError

/-! ### Steps of decoding -/

/-- What decoding keeps: how many nodes it has visited, how many of them behind an alias, the
aliases it is inside of, the complaints so far, and inside a merge the keys that are set already. -/
structure DecodeState where
  steps : Nat := 0
  aliasSteps : Nat := 0
  inside : List Nat := []
  complaints : List Complaint := []
  merged : Option (List Value) := none

/-- A step of decoding. -/
abbrev Decoding (α : Type) := StateT DecodeState (Except DocumentError) α

namespace Decoding

/-- Stops for a fault. -/
def stop {α : Type} (cause : Cause) : Decoding α := throw (.fault { cause })

/-- Notes a complaint. -/
def complain (c : Complaint) : Decoding Unit :=
  modify fun s => { s with complaints := s.complaints ++ [c] }

/-- Notes that a node is not of the wanted kind. -/
def mismatch {α : Type} (d : Document) (n : Node) (wanted : Shape) : Decoding (Option α) := do
  complain (.mismatch n.line (d.tagOf n) n.text wanted)
  return none

/-- Whether too much of the work comes from aliases: more than 99 percent of it in a document of up
to 400 000 steps, and from there falling evenly to 10 percent at 4 000 000 steps. -/
def isExcessive (steps aliasSteps : Nat) : Bool :=
  100 < aliasSteps && 1000 < steps &&
    if steps ≤ 400000 then 99 * steps < 100 * aliasSteps
    else if 4000000 ≤ steps then steps < 10 * aliasSteps
    else (99 * 3600000 - 89 * (steps - 400000)) * steps < 100 * 3600000 * aliasSteps

/-- Counts a visited node. -/
def tick : Decoding Unit := do
  let s ← get
  let steps := s.steps + 1
  let aliasSteps := if s.inside.isEmpty then s.aliasSteps else s.aliasSteps + 1
  if isExcessive steps aliasSteps then stop .excessiveAliasing
  set { s with steps, aliasSteps }

/-- Visits a node, or the node that an alias stands for. An alias inside itself is refused. -/
def visit {α : Type} (d : Document) (n : Node) (act : Node → Decoding α) : Decoding α := do
  tick
  match n with
  | .reference serial name place _ =>
    let s ← get
    if s.inside.contains serial then stop (.anchorContainsItself name)
    match d.target? place with
    | none => stop (.unknownAnchor name)
    | some target =>
      set { s with inside := serial :: s.inside }
      tick
      let result ← act target
      modify fun t => { t with inside := s.inside }
      return result
  | n => act n

/-- The tag and the value of a scalar. Binary data is the string of its bytes. -/
def scalarValue (tag : Bytes) (t : Text) : Decoding (Bytes × Value) :=
  match resolve tag t with
  | .error cause => stop cause
  | .ok (found, value) =>
    if found = Tag.binary then
      match decodeBase64? t with
      | some data => return (found, .text data)
      | none => stop .badBase64
    else return (found, value)

/-- Notes keys that are written alike, each with every later one, and tells whether there are
any. -/
def complainDuplicates (entries : List (Node × Node)) : Decoding Bool := do
  let found := duplicates (entries.map (·.1))
  found.forM complain
  return !found.isEmpty
where
  duplicates : List Node → List Complaint
    | [] => []
    | k :: ks =>
      (ks.filter k.alike).map (fun j => .duplicateKey j.line j.text k.line) ++ duplicates ks

/-! ### Mappings -/

/-- An entry of a mapping with its decoded key: whether the key came up before in the same mapping,
and whether the entry stands in the mapping itself or in one merged into it. -/
structure Entry (κ : Type) where
  name : Node
  key : κ
  value : Node
  isRepeated : Bool
  isOwn : Bool

/-- Refuses a list or a mapping as a key that is compared with others. -/
def comparable (v : Value) : Decoding Unit :=
  match v with
  | .list _ | .map _ | .table _ => throw (.collectionKey v.kindName)
  | _ => return ()

/-- Adds a key to those that are set, and tells whether it was among them. Outside of a merge none
are kept. -/
def claimKey (v : Value) : Option (List Value) → Decoding (Bool × Option (List Value))
  | none => return (false, none)
  | some keys => do
    comparable v
    return if keys.any (Value.sameKey v) then (true, some keys) else (false, some (v :: keys))

/-- Whether a node is a mapping or an alias of one. -/
def isMapping (d : Document) : Node → Bool
  | .mapping .. => true
  | .reference _ _ place _ =>
    match d.target? place with
    | some (.mapping ..) => true
    | _ => false
  | _ => false

/-- The mappings that a merge key asks for: one, or a list of them. -/
def mergeSources : Node → List Node
  | .sequence _ items _ => items
  | n => [n]

/-- Puts the entries of one mapping that is merged in into `out`, by what `into` does with entries.
A node that is no mapping is refused. -/
def mergeOne {σ : Type} (d : Document) (into : List (Node × Node) → σ → Decoding (Option σ))
    (out : σ) (n : Node) : Decoding σ := do
  if !isMapping d n then stop .badMerge
  visit d n fun
    | .mapping _ inner _ => do return (← into inner out).getD out
    | _ => return out

/-- Puts the decoded entries of a mapping into `out`, and then those of the mappings merged into it.
A key that is merged in never replaces one that is set. -/
def entriesInto {κ σ : Type} [BEq κ] (d : Document) (any : Node → Decoding (Option Value))
    (keyOf : Node → Decoding (Option κ)) (asValue : κ → Value)
    (put : σ → Entry κ → Decoding σ) :
    (fuel : Nat) → (isOwn : Bool) → List (Node × Node) → σ → Decoding (Option σ)
  | 0, _, _, _ => return none
  | fuel + 1, isOwn, entries, out => do
    if ← complainDuplicates entries then return none
    let claimed := (← get).merged
    let isOutermost := claimed.isNone
    modify fun s => { s with merged := none }
    let (out, claimed, _) ← (entries.filter (!·.1.isMerge)).foldlM
      (fun (out, claimed, seen) (name, value) => do
        match ← keyOf name with
        | none => return (out, claimed, seen)
        | some key =>
          let (isSet, claimed) ← claimKey (asValue key) claimed
          if isSet then return (out, claimed, seen)
          let out ← put out { name, key, value, isRepeated := seen.contains key, isOwn }
          return (out, claimed, key :: seen))
      (out, claimed, ([] : List κ))
    modify fun s => { s with merged := claimed }
    match (entries.filter (·.1.isMerge)).getLast? with
    | none => return some out
    | some (_, source) =>
      if isOutermost then
        let keys ← entries.filterMapM fun (name, _) => do
          let key? ← any name
          key?.forM comparable
          return key?
        modify fun s => { s with merged := some keys }
      let out ← (mergeSources source).foldlM
        (mergeOne d fun inner out => entriesInto d any keyOf asValue put fuel false inner out) out
      if isOutermost then modify fun s => { s with merged := none }
      return some out

/-! ### Values without a wanted kind -/

/-- The text of a scalar as it is written, and that of binary data. Null is no text. -/
def textOf (d : Document) (n : Node) : Decoding (Option Bytes) :=
  visit d n fun n => do
    match n with
    | .scalar tag t _ =>
      match ← scalarValue tag t with
      | (_, .null) => return none
      | (found, .text s) => return some (if found = Tag.binary then s else Utf8.encode t)
      | _ => return some (Utf8.encode t)
    | .mapping _ entries _ =>
      if ← complainDuplicates entries then return none
      mismatch d n .text
    | _ => mismatch d n .text

/-- Whether all keys of a mapping are strings, merge keys apart. -/
def hasTextKeys (d : Document) (entries : List (Node × Node)) : Bool :=
  entries.all fun (k, _) =>
    let tag := d.tagOf k
    tag == Tag.str || tag == Tag.merge

/-- The entries of a mapping with strings as keys. -/
def textEntries (d : Document) (any : Node → Decoding (Option Value)) (fuel : Nat)
    (entries : List (Node × Node)) : Decoding (Option (List (Bytes × Value))) :=
  entriesInto d any (textOf d) .text (fun out e => do
    match ← any e.value with
    | some v => return Entries.set out e.key v
    | none => return out) fuel true entries []

/-- The entries of a mapping with keys of any kind. -/
def valueEntries (d : Document) (any : Node → Decoding (Option Value)) (fuel : Nat)
    (entries : List (Node × Node)) : Decoding (Option (List (Value × Value))) :=
  haveI : BEq Value := ⟨Value.sameKey⟩
  entriesInto d any any id (fun out e => do
    match e.key with
    | .list _ | .map _ | .table _ => stop (.badMapKey e.key)
    | _ => pure ()
    match ← any e.value with
    | some v => return Value.insertKey e.key v out
    | none => return out) fuel true entries []

/-- The value of a node of any kind; nothing for a mapping with keys written alike. -/
def anyValue (d : Document) : (fuel : Nat) → Node → Decoding (Option Value)
  | 0, _ => return none
  | fuel + 1, n => visit d n fun n => do
    match n with
    | .scalar tag t _ => return some (← scalarValue tag t).2
    | .sequence _ items _ => return some (.list (← items.filterMapM (anyValue d fuel)))
    | .mapping _ entries _ =>
      if hasTextKeys d entries then
        return (← textEntries d (anyValue d fuel) fuel entries).map .map
      else return (← valueEntries d (anyValue d fuel) fuel entries).map .table
    | .reference .. => return none

/-- A bound of how deep decoding goes: along each alias the whole document at most once. -/
def depthBound (d : Document) : Nat := (d.size + 1) * (d.size + 1)

end Decoding

end ScriptLint
