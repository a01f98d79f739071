import ScriptLint.Script.Encoding
import ScriptLint.Yaml.Fault

/-!
# Reading positions

The bytes of a document become characters first: UTF-8, or UTF-16 behind a byte order mark, with
only printable characters, tabs and line breaks allowed. A cursor then walks over the characters and
knows its line and column.
-/

namespace ScriptLint.Yaml

/-! ### Characters of a document -/

/-- The characters that a document may hold. -/
def isAllowed (n : Nat) : Bool :=
  n == 0x09 || n == 0x0A || n == 0x0D || (0x20 ≤ n && n ≤ 0x7E) || n == 0x85
    || (0xA0 ≤ n && n ≤ 0xD7FF) || (0xE000 ≤ n && n ≤ 0xFFFD) || (0x10000 ≤ n && n ≤ 0x10FFFF)

/-- A code point as a character, when a document may hold it. -/
def allowed? (n : Nat) : Except Cause Char :=
  if isAllowed n then .ok (Char.ofNat n) else .error .controlCharacter

/-- The length that the first byte of a UTF-8 sequence announces, with its share of the code
point. -/
def leading? (b : UInt8) : Option (Nat × Nat) :=
  let n := b.toNat
  if n < 0x80 then some (1, n)
  else if n < 0xC0 then none
  else if n < 0xE0 then some (2, n - 0xC0)
  else if n < 0xF0 then some (3, n - 0xE0)
  else if n < 0xF8 then some (4, n - 0xF0)
  else none

/-- Adds continuation bytes to a code point. -/
def continued (n : Nat) : Bytes → Except Cause Nat
  | [] => .ok n
  | b :: r =>
    match Utf8.continuation? b with
    | some x => continued (n * 0x40 + x) r
    | none => .error .badTrailingOctet

/-- The character at the front of UTF-8 bytes and its length. -/
def frontUtf8 (s : Bytes) (b : UInt8) : Except Cause (Char × Nat) :=
  match leading? b with
  | none => .error .badLeadingOctet
  | some (width, n) => do
    if s.length + 1 < width then .error .incompleteUtf8
    let n ← continued n (s.take (width - 1))
    let least := if width = 2 then 0x80 else if width = 3 then 0x800
      else if width = 4 then 0x10000 else 0
    if n < least then .error .overlongUtf8
    if (0xD800 ≤ n ∧ n ≤ 0xDFFF) ∨ 0x10FFFF < n then .error .badCodePoint
    return (← allowed? n, width)

/-- The characters of UTF-8 bytes, after `skip` bytes that belong to the last one. -/
def readUtf8 : (skip : Nat) → Bytes → Except Cause Text
  | _, [] => .ok []
  | skip + 1, _ :: r => readUtf8 skip r
  | 0, b :: r => do
    let (c, width) ← frontUtf8 r b
    return c :: (← readUtf8 (width - 1) r)

/-- The characters of UTF-16 bytes. -/
def readUtf16 (order : ByteOrder) : Bytes → Except Cause Text
  | [] => .ok []
  | [_] => .error .incompleteUtf16
  | a :: b :: r =>
    let u := Utf16.unit order a b
    if Utf16.isLow u then .error .unexpectedLowSurrogate
    else if Utf16.isHigh u then
      match r with
      | c :: d :: r =>
        let v := Utf16.unit order c d
        if Utf16.isLow v then do
          return Utf16.pair u v :: (← readUtf16 order r)
        else .error .expectedLowSurrogate
      | _ => .error .incompletePair
    else do
      return (← allowed? u) :: (← readUtf16 order r)

/-- The characters of a document. An empty document is an empty line. -/
def readCharacters (data : Bytes) : Except Cause Text :=
  match markedOrder? data with
  | some (order, r) => readUtf16 order r
  | none =>
    match data with
    | [] => .ok ['\n']
    | 0xEF :: 0xBB :: 0xBF :: r => readUtf8 0 r
    | data => readUtf8 0 data

/-! ### Character classes -/

/-- A space or a tab. -/
def isBlank (c : Char) : Bool := c == ' ' || c == '\t'

/-- A line break: besides line feed and carriage return the three of Unicode. -/
def isBreak (c : Char) : Bool :=
  c == '\n' || c == '\r' || c == '\u0085' || c == '\u2028' || c == '\u2029'

/-- Whether a word ends in front of this text: at a blank, a break or the end. -/
def endsWord : Text → Bool
  | [] => true
  | c :: _ => isBlank c || isBreak c

/-- Whether a line ends in front of this text. -/
def endsLineAt : Text → Bool
  | [] => true
  | c :: _ => isBreak c

/-- A letter, a digit, an underscore or a hyphen. -/
def isNameChar (c : Char) : Bool := c.isAlphanum || c == '_' || c == '-'

/-- The value of a hexadecimal digit. -/
def hexValue? (c : Char) : Option Nat :=
  if c.isDigit then some (c.toNat - 0x30)
  else if 'a' ≤ c ∧ c ≤ 'f' then some (c.toNat - 0x61 + 10)
  else if 'A' ≤ c ∧ c ≤ 'F' then some (c.toNat - 0x41 + 10)
  else none

/-! ### Cursors -/

/-- A place in a document, counted from zero. -/
structure Mark where
  index : Nat := 0
  line : Nat := 0
  column : Nat := 0
deriving DecidableEq, Repr, Inhabited

/-- A place, what follows it, and the number of line breaks passed since the last character that is
not blank. -/
structure Cursor where
  rest : Text
  mark : Mark := {}
  breaks : Nat := 0
deriving Repr, Inhabited

namespace Cursor

/-- The character some places ahead. -/
def peek? (c : Cursor) (ahead : Nat := 0) : Option Char := c.rest[ahead]?

/-- Whether the next character is the given one. -/
def at? (c : Cursor) (x : Char) : Bool := c.rest.head? == some x

/-- Passes one character that is no line break. -/
def advance (c : Cursor) : Cursor :=
  match c.rest with
  | [] => c
  | x :: r =>
    { rest := r
      mark := { c.mark with index := c.mark.index + 1, column := c.mark.column + 1 }
      breaks := if isBlank x then c.breaks else 0 }

/-- Passes some characters that are no line breaks. -/
def advanceBy (c : Cursor) (n : Nat) : Cursor := Nat.repeat advance n c

/-- Passes the characters of a class, none of them a line break. -/
def skipWhile (p : Char → Bool) (c : Cursor) : Cursor := c.advanceBy (c.rest.takeWhile p).length

/-- The characters of a class ahead, none of them a line break, and the cursor behind them. -/
def takeWhile (p : Char → Bool) (c : Cursor) : Text × Cursor :=
  let t := c.rest.takeWhile p
  (t, c.advanceBy t.length)

/-- A line break as it counts in a scalar, and the cursor on the next line. Carriage return and line
feed together are one break; the separators of Unicode are kept as they are. -/
def takeBreak (c : Cursor) : Text × Cursor :=
  let next (width : Nat) : Cursor :=
    { rest := c.rest.drop width
      mark := ⟨c.mark.index + width, c.mark.line + 1, 0⟩
      breaks := c.breaks + 1 }
  match c.rest with
  | '\r' :: '\n' :: _ => (['\n'], next 2)
  | x :: _ =>
    if x = '\u2028' ∨ x = '\u2029' then ([x], next 1)
    else if isBreak x then (['\n'], next 1)
    else ([], c)
  | [] => ([], c)

/-- The cursor on the next line, when a line break follows. -/
def skipBreak (c : Cursor) : Cursor := c.takeBreak.2

/-- Passes everything up to the next line break. -/
def skipLine (c : Cursor) : Cursor := c.skipWhile fun x => !isBreak x

/-- Whether a document indicator made of this character stands at the start of the line. -/
def atIndicator (c : Cursor) (x : Char) : Bool :=
  c.mark.column == 0 && c.rest.take 3 == [x, x, x] && endsWord (c.rest.drop 3)

/-- A fault noticed at the cursor, about something that started at a mark. The line is that of the
start, or on the first line that of the cursor. -/
def fault (c : Cursor) (start : Mark) (cause : Cause) : Fault :=
  let line := if start.line ≠ 0 then start.line else c.mark.line
  { line := if line = 0 then 0 else line + 1, cause }

end Cursor

end ScriptLint.Yaml
