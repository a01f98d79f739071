import ScriptLint.Number.Binary64
import ScriptLint.Text.Quoted
import ScriptLint.Timestamp

/-!
# Settings values

A rule's settings come from a configuration file and carry no types of their own, so they are held
as a small universe of dynamic values. A mapping keeps its entries as a list: the order stands for
one enumeration of the mapping, and whatever must not depend on it is stated for every permutation.
-/

namespace ScriptLint

/-- A value of a rule's settings. -/
inductive Value where
  | null
  | bool (b : Bool)
  | int (n : Int)
  | float (x : Binary64)
  | text (s : Bytes)
  | time (t : Timestamp)
  | list (items : List Value)
  /-- A mapping whose keys are all strings. -/
  | map (entries : List (Bytes × Value))
  /-- A mapping with a key that is no string. -/
  | table (entries : List (Value × Value))
deriving Inhabited, Repr

/-- Named settings of a rule. -/
abbrev Settings := List (Bytes × Value)

namespace Value

/-- The greatest 64-bit signed integer. -/
def maxInt : Int := intLimit - 1

/-! ### Order of keys -/

/-- The place of a kind of key among the kinds, when a mapping with keys of several kinds is
shown. -/
def kindRank : Value → Nat
  | .null => 0
  | .int n => if maxInt < n then 1 else 2
  | .float _ => 3
  | .bool _ => 4
  | .text _ => 5
  | .time _ => 6
  | .list _ => 7
  | .map _ => 8
  | .table _ => 9

/-- The order in which the keys of a mapping are shown: by kind, then numbers by size, false before
true, and strings by their bytes. -/
def keyLe (a b : Value) : Bool :=
  match a, b with
  | .int x, .int y => x ≤ y
  | .float x, .float y =>
    match Binary64.compare? x y with
    | some o => o != .gt
    | none => x == .nan
  | .bool x, .bool y => !x || y
  | .text x, .text y => !bytesLt y x
  | a, b => kindRank a ≤ kindRank b

/-- Whether two scalar keys name the same entry. Not-a-number names a new entry each time, and no
list or mapping is a key. -/
def sameKey : Value → Value → Bool
  | .null, .null => true
  | .bool x, .bool y => x == y
  | .int x, .int y => x == y
  | .float x, .float y => Binary64.compare? x y == some .eq
  | .text x, .text y => x == y
  | .time x, .time y => x == y && x.offset == 0
  | _, _ => false

/-- Sets an entry of a mapping, in place when the key is there already. -/
def insertKey (key value : Value) : List (Value × Value) → List (Value × Value)
  | [] => [(key, value)]
  | e :: es => if sameKey key e.1 then (e.1, value) :: es else e :: insertKey key value es

/-! ### How a value is shown -/

/-- The word for the kind of a value. -/
def kindName : Value → Bytes
  | .null => bytes "<nil>"
  | .bool _ => bytes "bool"
  | .int n => bytes (if maxInt < n then "uint64" else "int")
  | .float _ => bytes "float64"
  | .text _ => bytes "string"
  | .time _ => bytes "time.Time"
  | .list _ => bytes "[]interface \x7b\x7d"
  | .map _ => bytes "map[string]interface \x7b\x7d"
  | .table _ => bytes "map[interface \x7b\x7d]interface \x7b\x7d"

/-- The mapping's shown entries in key order, joined by spaces. -/
def showEntries (entries : List (Value × Bytes)) : Bytes :=
  bytes "map[" ++ joinBytes (bytes " ") ((entries.mergeSort fun a b => keyLe a.1 b.1).map (·.2))
    ++ bytes "]"

mutual

/-- A value as a message shows it: strings bare, lists in brackets, mappings in key order. -/
def render : Value → Bytes
  | .null => bytes "<nil>"
  | .bool b => bytes (if b then "true" else "false")
  | .int n => intBytes n
  | .float x => Utf8.encode x.render
  | .text s => s
  | .time t => Utf8.encode t.display
  | .list items => bytes "[" ++ joinBytes (bytes " ") (renderList items) ++ bytes "]"
  | .map entries => showEntries (renderMap entries)
  | .table entries => showEntries (renderTable entries)

/-- The values of a list, shown. -/
def renderList : List Value → List Bytes
  | [] => []
  | v :: vs => render v :: renderList vs

/-- The entries of a mapping with string keys, shown, each beside its key. -/
def renderMap : List (Bytes × Value) → List (Value × Bytes)
  | [] => []
  | (k, v) :: es => (.text k, k ++ bytes ":" ++ render v) :: renderMap es

/-- The entries of a mapping with any keys, shown, each beside its key. -/
def renderTable : List (Value × Value) → List (Value × Bytes)
  | [] => []
  | (k, v) :: es => (k, render k ++ bytes ":" ++ render v) :: renderTable es

end

mutual

/-- A value with its kind spelled out, as the message about an unusable mapping key shows it. -/
def renderTyped : Value → Bytes
  | .null => bytes "interface \x7b\x7d(nil)"
  | .bool b => bytes (if b then "true" else "false")
  | .int n => if maxInt < n then bytes "0x" ++ Utf8.encode (Nat.toDigits 16 n.toNat) else intBytes n
  | .float x => Utf8.encode x.render
  | .text s => Quoted.quote s
  | .time t => Utf8.encode t.display
  | .list items => bytes "[]interface \x7b\x7d\x7b" ++ joinBytes (bytes ", ") (renderTypedList items)
      ++ bytes "\x7d"
  | .map entries => typedEntries (bytes "map[string]interface \x7b\x7d") (renderTypedMap entries)
  | .table entries =>
    typedEntries (bytes "map[interface \x7b\x7d]interface \x7b\x7d") (renderTypedTable entries)

/-- The values of a list, with their kinds. -/
def renderTypedList : List Value → List Bytes
  | [] => []
  | v :: vs => renderTyped v :: renderTypedList vs

/-- The entries of a mapping with string keys, with their kinds. -/
def renderTypedMap : List (Bytes × Value) → List (Value × Bytes)
  | [] => []
  | (k, v) :: es => (.text k, Quoted.quote k ++ bytes ":" ++ renderTyped v) :: renderTypedMap es

/-- The entries of a mapping with any keys, with their kinds. -/
def renderTypedTable : List (Value × Value) → List (Value × Bytes)
  | [] => []
  | (k, v) :: es => (k, renderTyped k ++ bytes ":" ++ renderTyped v) :: renderTypedTable es

/-- A mapping with its kind in front and its entries in key order. -/
def typedEntries (kind : Bytes) (entries : List (Value × Bytes)) : Bytes :=
  kind ++ bytes "\x7b"
    ++ joinBytes (bytes ", ") ((entries.mergeSort fun a b => keyLe a.1 b.1).map (·.2))
    ++ bytes "\x7d"

end

end Value

end ScriptLint
