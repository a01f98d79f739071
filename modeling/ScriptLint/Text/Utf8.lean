/-!
# UTF-8

Two carriers run through the whole project. A script that has been decoded is a `Text`, a list of
characters, and every rule is a recursion on it. Everything that may hold arbitrary bytes (paths,
rule names as given, settings, messages, output) is a `Bytes`.

The bridge between them is the UTF-8 encoding. `encode` writes a text. `pieces` reads any byte
string at all, from left to right, as well-formed characters and stray bytes, so that trimming,
quoting and escaping can be said once for every byte string. `decode?` accepts exactly the byte
strings without a stray byte.
-/

namespace ScriptLint

/-- An arbitrary byte string. -/
abbrev Bytes := List UInt8

/-- Decoded text, as a list of Unicode scalar values. -/
abbrev Text := List Char

namespace Utf8

/-! ### Writing -/

/-- The one to four bytes of a character. -/
def encodeChar (c : Char) : Bytes :=
  let n := c.toNat
  if n < 0x80 then [n.toUInt8]
  else if n < 0x800 then [(0xC0 + n / 0x40).toUInt8, (0x80 + n % 0x40).toUInt8]
  else if n < 0x10000 then
    [(0xE0 + n / 0x1000).toUInt8, (0x80 + n / 0x40 % 0x40).toUInt8, (0x80 + n % 0x40).toUInt8]
  else
    [(0xF0 + n / 0x40000).toUInt8, (0x80 + n / 0x1000 % 0x40).toUInt8,
      (0x80 + n / 0x40 % 0x40).toUInt8, (0x80 + n % 0x40).toUInt8]

/-- The UTF-8 bytes of a text. -/
def encode (t : Text) : Bytes := t.flatMap encodeChar

/-! ### Reading -/

/-- A maximal unit of a byte string read from the left: a well-formed character, or a byte that
starts none. -/
inductive Piece where
  | char (c : Char)
  | stray (b : UInt8)
deriving DecidableEq, Repr

/-- The bytes that a piece was read from. -/
def Piece.bytes : Piece → Bytes
  | .char c => encodeChar c
  | .stray b => [b]

/-- The low six bits of a continuation byte `10xxxxxx`. -/
def continuation? (b : UInt8) : Option Nat :=
  if 0x80 ≤ b.toNat ∧ b.toNat < 0xC0 then some (b.toNat - 0x80) else none

/-- The scalar value `n`, provided it needs at least the given number and is no surrogate. -/
def scalar? (least n : Nat) : Option Char :=
  if h : n.isValidChar ∧ least ≤ n then some (Char.ofNatAux n h.1) else none

/-- The character at the front of a byte string and the number of its bytes. Overlong forms and
surrogates are no characters. -/
def front? : Bytes → Option (Char × Nat)
  | [] => none
  | a :: r =>
    if a.toNat < 0x80 then (scalar? 0 a.toNat).map (·, 1)
    else if a.toNat < 0xC0 then none
    else if a.toNat < 0xE0 then
      match r with
      | b :: _ => do
        let x ← continuation? b
        let c ← scalar? 0x80 ((a.toNat - 0xC0) * 0x40 + x)
        return (c, 2)
      | _ => none
    else if a.toNat < 0xF0 then
      match r with
      | b :: c :: _ => do
        let x ← continuation? b
        let y ← continuation? c
        let c ← scalar? 0x800 (((a.toNat - 0xE0) * 0x40 + x) * 0x40 + y)
        return (c, 3)
      | _ => none
    else if a.toNat < 0xF8 then
      match r with
      | b :: c :: d :: _ => do
        let x ← continuation? b
        let y ← continuation? c
        let z ← continuation? d
        let c ← scalar? 0x10000 ((((a.toNat - 0xF0) * 0x40 + x) * 0x40 + y) * 0x40 + z)
        return (c, 4)
      | _ => none
    else none

/-- `pieces` after `skip` bytes that belong to the character read last. -/
def piecesFrom : (skip : Nat) → Bytes → List Piece
  | _, [] => []
  | skip + 1, _ :: r => piecesFrom skip r
  | 0, b :: r =>
    match front? (b :: r) with
    | some (c, n) => .char c :: piecesFrom (n - 1) r
    | none => .stray b :: piecesFrom 0 r

/-- A byte string as characters and stray bytes, from left to right. -/
def pieces (bs : Bytes) : List Piece := piecesFrom 0 bs

/-- The text of a byte string that is well-formed UTF-8. -/
def decode? (bs : Bytes) : Option Text :=
  (pieces bs).mapM fun
    | .char c => some c
    | .stray _ => none

/-- The text of a byte string, with the replacement character for each stray byte. -/
def lossy (bs : Bytes) : Text :=
  (pieces bs).map fun
    | .char c => c
    | .stray _ => '\uFFFD'

/-- The bytes of a list of pieces. -/
def joinPieces (ps : List Piece) : Bytes := ps.flatMap Piece.bytes

end Utf8

/-- The bytes of a string of the program's own wording. -/
def bytes (s : String) : Bytes := Utf8.encode s.toList

/-- The decimal digits of a natural number. -/
def natBytes (n : Nat) : Bytes := Utf8.encode (Nat.toDigits 10 n)

/-- An integer in decimal, with a sign only below zero. -/
def intBytes : Int → Bytes
  | .ofNat n => natBytes n
  | .negSucc n => bytes "-" ++ natBytes (n + 1)

/-- Byte strings with a separator between neighbours. -/
def joinBytes (sep : Bytes) : List Bytes → Bytes
  | [] => []
  | [b] => b
  | b :: bs => b ++ sep ++ joinBytes sep bs

/-- The parts of a byte string between the occurrences of one byte; there is always at least one
part. -/
def splitBytes (sep : UInt8) : Bytes → List Bytes
  | [] => [[]]
  | b :: r =>
    if b = sep then [] :: splitBytes sep r
    else
      match splitBytes sep r with
      | [] => [[b]]
      | p :: ps => (b :: p) :: ps

/-- Lexicographic order by byte value. -/
def bytesLt : Bytes → Bytes → Bool
  | _, [] => false
  | [], _ :: _ => true
  | a :: as, b :: bs => a < b || (a == b && bytesLt as bs)

/-- Insertion sort by byte order; equal strings keep their places. -/
def sortBytes (names : List Bytes) : List Bytes := names.mergeSort fun a b => !bytesLt b a

end ScriptLint
