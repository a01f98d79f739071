import ScriptLint.Text.Utf8

/-!
# Script encodings

A script is stored as UTF-8, or as UTF-16 behind a byte order mark. The mark of a UTF-16 script
chooses the byte order and is dropped; a UTF-8 script keeps whatever it starts with, so that rules
see it as written. An unpaired surrogate is read as the replacement character.
-/

namespace ScriptLint

/-- The order of the two bytes of a UTF-16 unit. -/
inductive ByteOrder where
  | little
  | big
deriving DecidableEq, Repr

/-- Why a script cannot be decoded. -/
inductive DecodeError where
  /-- A byte order mark of UTF-16 stands before an odd number of bytes. -/
  | oddLength (count : Nat)
  /-- No byte order mark of UTF-16, and not UTF-8. -/
  | notUtf8
deriving DecidableEq, Repr

/-- The wording of a decoding error. -/
def DecodeError.message : DecodeError → Bytes
  | .oddLength count => bytes "decoding UTF-16: odd byte count " ++ natBytes count
  | .notUtf8 => bytes "file is not valid UTF-8"

namespace Utf16

/-- The unit of two bytes. -/
def unit : ByteOrder → UInt8 → UInt8 → Nat
  | .little, a, b => a.toNat + b.toNat * 0x100
  | .big, a, b => a.toNat * 0x100 + b.toNat

/-- The units of a byte string; a last single byte is left out. -/
def units (order : ByteOrder) : Bytes → List Nat
  | a :: b :: r => unit order a b :: units order r
  | _ => []

/-- The first half of a surrogate pair. -/
def isHigh (u : Nat) : Bool := 0xD800 ≤ u && u < 0xDC00

/-- The second half of a surrogate pair. -/
def isLow (u : Nat) : Bool := 0xDC00 ≤ u && u < 0xE000

/-- What stands in for something that is no character. -/
def replacement : Char := '\uFFFD'

/-- The character of a surrogate pair. -/
def pair (high low : Nat) : Char :=
  Char.ofNat (0x10000 + (high - 0xD800) * 0x400 + (low - 0xDC00))

/-- The text of a list of units. A surrogate takes a following second half with it, and is the
replacement character unless the two make a pair. -/
def join : List Nat → Text
  | [] => []
  | [u] => [if isHigh u || isLow u then replacement else Char.ofNat u]
  | u :: v :: r =>
    if isHigh u || isLow u then
      if isLow v then (if isHigh u then pair u v else replacement) :: join r
      else replacement :: join (v :: r)
    else Char.ofNat u :: join (v :: r)

/-- The two bytes of a unit. -/
def unitBytes : ByteOrder → Nat → Bytes
  | .little, u => [(u % 0x100).toUInt8, (u / 0x100).toUInt8]
  | .big, u => [(u / 0x100).toUInt8, (u % 0x100).toUInt8]

/-- The units of a character: one, or a surrogate pair beyond the basic plane. -/
def encodeChar (c : Char) : List Nat :=
  if c.toNat < 0x10000 then [c.toNat]
  else [0xD800 + (c.toNat - 0x10000) / 0x400, 0xDC00 + (c.toNat - 0x10000) % 0x400]

/-- The UTF-16 bytes of a text, without a byte order mark. -/
def encode (order : ByteOrder) (t : Text) : Bytes :=
  (t.flatMap encodeChar).flatMap (unitBytes order)

/-- The byte order mark. -/
def mark : ByteOrder → Bytes
  | .little => [0xFF, 0xFE]
  | .big => [0xFE, 0xFF]

end Utf16

/-- The byte order that a UTF-16 mark at the front announces, with the bytes after the mark. -/
def markedOrder? : Bytes → Option (ByteOrder × Bytes)
  | a :: b :: r =>
    if a = 0xFF ∧ b = 0xFE then some (.little, r)
    else if a = 0xFE ∧ b = 0xFF then some (.big, r)
    else none
  | _ => none

/-- The text of a stored script. -/
def decodeScript (data : Bytes) : Except DecodeError Text :=
  match markedOrder? data with
  | some (order, r) =>
    if data.length % 2 = 0 then .ok (Utf16.join (Utf16.units order r))
    else .error (.oddLength data.length)
  | none =>
    match Utf8.decode? data with
    | some t => .ok t
    | none => .error .notUtf8

end ScriptLint
