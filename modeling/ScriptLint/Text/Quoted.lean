import ScriptLint.Text.Printable

/-!
# Quoted byte strings

Messages name paths, patterns and settings between double quotation marks. Printable characters
stand for themselves; a quotation mark and a backslash are escaped, the usual control characters
have their short forms, and any other character is written by its code point. A stray byte is
written in hexadecimal, so the quoted form determines the byte string.
-/

namespace ScriptLint.Quoted

/-- A hexadecimal digit in lower case. -/
def hexDigit (n : Nat) : Char := "0123456789abcdef".toList.getD (n % 16) '0'

/-- The last `width` hexadecimal digits of a number. -/
def hex : (width n : Nat) → Text
  | 0, _ => []
  | width + 1, n => hex width (n / 16) ++ [hexDigit n]

/-- A character between quotation marks. -/
def quoteChar (c : Char) : Text :=
  if c = '"' ∨ c = '\\' then ['\\', c]
  else if isPrintable c then [c]
  else
    match c.toNat with
    | 0x07 => "\\a".toList
    | 0x08 => "\\b".toList
    | 0x0C => "\\f".toList
    | 0x0A => "\\n".toList
    | 0x0D => "\\r".toList
    | 0x09 => "\\t".toList
    | 0x0B => "\\v".toList
    | n =>
      if n < 0x20 ∨ n = 0x7F then "\\x".toList ++ hex 2 n
      else if n < 0x10000 then "\\u".toList ++ hex 4 n
      else "\\U".toList ++ hex 8 n

/-- A piece of a byte string between quotation marks. -/
def quotePiece : Utf8.Piece → Text
  | .char c => quoteChar c
  | .stray b => "\\x".toList ++ hex 2 b.toNat

/-- A byte string in double quotation marks. -/
def quote (bs : Bytes) : Bytes :=
  Utf8.encode ('"' :: (Utf8.pieces bs).flatMap quotePiece ++ ['"'])

end ScriptLint.Quoted
