import ScriptLint.Text.Utf8

/-!
# Character classes and trimming

Two notions of white space live side by side. Lines, names and versions are trimmed of the Unicode
`White_Space` characters (`isSpace`); inside a directive or a function header only the five ASCII
blanks of `isAsciiBlank` separate words. Word characters are ASCII throughout.
-/

namespace ScriptLint

/-- Unicode white space. -/
def isSpace (c : Char) : Bool :=
  let n := c.toNat
  (0x09 ≤ n && n ≤ 0x0D) || n == 0x20 || n == 0x85 || n == 0xA0 || n == 0x1680
    || (0x2000 ≤ n && n ≤ 0x200A) || n == 0x2028 || n == 0x2029 || n == 0x202F || n == 0x205F
    || n == 0x3000

/-- Tab, line feed, form feed, carriage return and space. Vertical tab is not among them. -/
def isAsciiBlank (c : Char) : Bool :=
  c == '\t' || c == '\n' || c == '\x0C' || c == '\r' || c == ' '

/-- An ASCII letter or underscore, which may start an identifier. -/
def isIdentStart (c : Char) : Bool := c.isAlpha || c == '_'

/-- An ASCII letter, digit or underscore. -/
def isWordChar (c : Char) : Bool := c.isAlphanum || c == '_'

/-- Whether a text starts with a word character. -/
def startsWithWord : Text → Bool
  | [] => false
  | c :: _ => isWordChar c

/-- The text without the characters of a class at its end. -/
def dropEndWhile (p : Char → Bool) (t : Text) : Text := (t.reverse.dropWhile p).reverse

/-- The text without Unicode white space at both ends. -/
def trim (t : Text) : Text := dropEndWhile isSpace (t.dropWhile isSpace)

/-- A piece of a byte string that is white space. A stray byte never is. -/
def Utf8.Piece.isSpace : Utf8.Piece → Bool
  | .char c => ScriptLint.isSpace c
  | .stray _ => false

/-- A byte string without Unicode white space at both ends. -/
def trimBytes (bs : Bytes) : Bytes :=
  let inner := (Utf8.pieces bs).dropWhile Utf8.Piece.isSpace
  Utf8.joinPieces (inner.reverse.dropWhile Utf8.Piece.isSpace).reverse

/-- Membership in a class given by the increasing list of the code points where it starts and
stops, alternately: a code point is inside when an odd number of them lie at or below it. -/
def insideBounds (bounds : List Nat) (n : Nat) : Bool :=
  (bounds.takeWhile (· ≤ n)).length % 2 == 1

/-- Membership in a class given by inclusive ranges. -/
def inRanges (ranges : List (Nat × Nat)) (n : Nat) : Bool :=
  ranges.any fun r => r.1 ≤ n && n ≤ r.2

end ScriptLint
