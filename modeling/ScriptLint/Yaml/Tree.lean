import ScriptLint.Entries
import ScriptLint.Text.Letter
import ScriptLint.Yaml.Scalar
import ScriptLint.Yaml.Tag

/-!
# Trees to be written

What a document is written from: scalars with the style they ask for, sequences, and mappings whose
entries have an order. A string is written plain only if it reads back as a string, also by readers
of the older version of the format. The keys of a mapping are in natural order, in which numbers
inside of names count as numbers.
-/

namespace ScriptLint.Yaml

/-- A node to be written. -/
inductive Tree where
  | scalar (tag : Bytes) (text : Text) (style : ScalarStyle)
  | sequence (items : List Tree)
  | mapping (entries : List (Tree × Tree))
deriving Inhabited, Repr

/-! ### Strings -/

/-- A number of base sixty in the older version of the format, such as `1:30`. -/
def isBase60 (t : Text) : Bool :=
  let unsigned :=
    match t with
    | '-' :: r | '+' :: r => r
    | _ => t
  match unsigned with
  | c :: r =>
    let places := r.dropWhile fun x => x.isDigit || x == '_'
    c.isDigit && places.head? == some ':' && groups (places.length + 1) places
  | [] => false
where
  /-- Groups of a colon and one or two digits below sixty, and a fraction behind them. -/
  groups : (fuel : Nat) → Text → Bool
    | _, [] => true
    | 0, _ => false
    | fuel + 1, ':' :: a :: r =>
      a.isDigit &&
        match r with
        | b :: r' => if b.isDigit then a ≤ '5' && groups fuel r' else groups fuel r
        | [] => true
    | _ + 1, '.' :: r => r.all fun x => x.isDigit || x == '_'
    | _ + 1, _ => false

/-- The words for true and false in the older version of the format. -/
def isOldBool (t : Text) : Bool :=
  ["y", "Y", "yes", "Yes", "YES", "on", "On", "ON", "n", "N", "no", "No", "NO", "off", "Off",
    "OFF"].any (·.toList == t)

/-- A character of the base 64 alphabet. -/
def base64Char (n : Nat) : Char :=
  "ABCDEFGHIJKLMNOPQRSTUVWXYZabcdefghijklmnopqrstuvwxyz0123456789+/".toList.getD (n % 64) 'A'

/-- Bytes in base 64, padded to groups of four characters. -/
def encodeBase64 : Bytes → Text
  | [] => []
  | [a] => [base64Char (a.toNat / 4), base64Char (a.toNat % 4 * 16), '=', '=']
  | [a, b] =>
    [base64Char (a.toNat / 4), base64Char (a.toNat % 4 * 16 + b.toNat / 16),
      base64Char (b.toNat % 16 * 4), '=']
  | a :: b :: c :: r =>
    base64Char (a.toNat / 4) :: base64Char (a.toNat % 4 * 16 + b.toNat / 16)
      :: base64Char (b.toNat % 16 * 4 + c.toNat / 64) :: base64Char c.toNat :: encodeBase64 r

/-- The length of a line of binary data. -/
def base64Line : Nat := 70

/-- Cuts a text into lines of one length, each with a line break behind it. -/
def base64Lines : (fuel : Nat) → Text → Text
  | 0, _ => []
  | _, [] => []
  | fuel + 1, t => t.take base64Line ++ '\n' :: base64Lines fuel (t.drop base64Line)

/-- Binary data as text, on several lines when one does not hold it. -/
def binaryText (data : Bytes) : Text :=
  let t := encodeBase64 data
  if t.length < base64Line then t else base64Lines t.length t

namespace Tree

/-- A scalar that is written as it is. -/
def plain (t : Text) : Tree := .scalar [] t .plain

/-- A string. Several lines ask for a literal block, and a text that would read back as something
else for quotation marks. Bytes that are no text are written as binary data. -/
def string (s : Bytes) : Tree :=
  match Utf8.decode? s with
  | none =>
    let t := binaryText s
    .scalar Tag.binary t (if t.contains '\n' then .literal else .plain)
  | some t =>
    if t.contains '\n' then .scalar [] t .literal
    else if (looksLike true t).1 = Tag.str ∧ !isBase60 t ∧ !isOldBool t then plain t
    else .scalar [] t .doubleQuoted

/-! ### Natural order of keys -/

/-- A signed number of 64 bits that continues by some digits. -/
def wrappedDigits (start : Int) (ds : Text) : Int :=
  ds.foldl (fun n c => (n * 10 + (c.toNat - 48 : Int)).bmod (2 * intLimit)) start

/-- Compares two strings behind the characters they share, which stand reversed in `before`. Letters
come behind other characters, except behind a digit; runs of digits compare as numbers. -/
def lessAfter (before : Text) : Text → Text → Bool
  | [], bs => !bs.isEmpty
  | _ :: _, [] => false
  | a :: as, b :: bs =>
    if a = b then lessAfter (a :: before) as bs
    else
      match isLetter a, isLetter b with
      | true, true => a.toNat < b.toNat
      | true, false => before.head?.any isDecimalDigit
      | false, true => !before.head?.any isDecimalDigit
      | false, false =>
        let run := before.takeWhile isDecimalDigit
        let start : Int := if (a = '0' ∨ b = '0') ∧ run.any (· != '0') then 1 else 0
        let da := (a :: as).takeWhile isDecimalDigit
        let db := (b :: bs).takeWhile isDecimalDigit
        let na := wrappedDigits start da
        let nb := wrappedDigits start db
        if na ≠ nb then na < nb
        else if da.length ≠ db.length then da.length < db.length
        else a.toNat < b.toNat

/-- The order of strings as keys. -/
def textLess (a b : Bytes) : Bool := lessAfter [] (Utf8.lossy a) (Utf8.lossy b)

/-- The number that a key counts as, if it counts as one. -/
def keyNumber? : Value → Option Binary64
  | .bool b => some (.ofInt (if b then 1 else 0))
  | .int n => some (.ofInt n)
  | .float x => some x
  | _ => none

/-- The place of a kind of key among the kinds. -/
def keyRank : Value → Nat
  | .bool _ => 0
  | .int n => if n ≤ Value.maxInt then 1 else 2
  | .float _ => 3
  | .null => 4
  | .map _ | .table _ => 5
  | .list _ => 6
  | .text _ => 7
  | .time _ => 8

/-- The order of keys: numbers by size, strings in natural order, and other keys by their kind. -/
def keyLess (a b : Value) : Bool :=
  match keyNumber? a, keyNumber? b with
  | some x, some y =>
    match Binary64.compare? x y with
    | some .lt => true
    | some .eq =>
      if keyRank a ≠ keyRank b then keyRank a < keyRank b
      else
        match a, b with
        | .int n, .int m => n < m
        | _, _ => false
    | _ => false
  | _, _ =>
    match a, b with
    | .text s, .text t => textLess s t
    | _, _ => keyRank a < keyRank b

/-- A mapping with its entries in the order of their keys. -/
def sortedMapping (entries : List (Value × Tree × Tree)) : Tree :=
  .mapping ((entries.mergeSort fun a b => !keyLess b.1 a.1).map (·.2))

/-- Named trees as a mapping in natural order. -/
def ofEntries (entries : Entries Tree) : Tree :=
  sortedMapping (entries.map fun (name, t) => (.text name, string name, t))

/-- Named trees as a mapping in the order given. -/
def record (fields : List (String × Tree)) : Tree :=
  .mapping (fields.map fun (name, t) => (string (bytes name), t))

/-! ### Values -/

/-- A number with a fraction. -/
def ofFloat (x : Binary64) : Tree :=
  match x with
  | .nan => plain ".nan".toList
  | .infinity negative => plain (if negative then "-.inf" else ".inf").toList
  | x => plain x.render

mutual

/-- A value as a tree. -/
def ofValue : Value → Tree
  | .null => plain "null".toList
  | .bool b => plain (if b then "true" else "false").toList
  | .int n => plain (toString n).toList
  | .float x => ofFloat x
  | .text s => string s
  | .time t => plain t.interchange
  | .list items => .sequence (ofValues items)
  | .map entries => sortedMapping (ofMap entries)
  | .table entries => sortedMapping (ofTable entries)

/-- Values as trees. -/
def ofValues : List Value → List Tree
  | [] => []
  | v :: vs => ofValue v :: ofValues vs

/-- The entries of a mapping with strings as keys, each beside its key. -/
def ofMap : List (Bytes × Value) → List (Value × Tree × Tree)
  | [] => []
  | (k, v) :: es => (.text k, string k, ofValue v) :: ofMap es

/-- The entries of a mapping with keys of any kind, each beside its key. -/
def ofTable : List (Value × Value) → List (Value × Tree × Tree)
  | [] => []
  | (k, v) :: es => (k, ofValue k, ofValue v) :: ofTable es

end

end Tree

end ScriptLint.Yaml
