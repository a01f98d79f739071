import ScriptLint.Yaml.Tree

/-!
# Writing trees

A tree is written in block style, four columns a level; a collection inside a sequence starts on the
line of its dash, two columns in. Whether a scalar can have the style it asks for depends on its
characters, and quotation marks of one kind or the other stand in where it cannot.
-/

namespace ScriptLint.Yaml

/-! ### What a scalar's characters allow -/

/-- The characters that are written as they are. Characters of more than three bytes are not among
them. -/
def isPrintableHere (c : Char) : Bool :=
  let n := c.toNat
  n == 0x0A || (0x20 ≤ n && n ≤ 0x7E) || (0xA0 ≤ n && n ≤ 0xD7FF)
    || (0xE000 ≤ n && n ≤ 0xFFFD && n != 0xFEFF)

/-- What a scalar's characters allow. -/
structure Allowance where
  multiline : Bool
  plain : Bool
  singleQuoted : Bool
  block : Bool
deriving DecidableEq, Repr

/-- Whether an indicator among these characters keeps a scalar from being plain. -/
def hasIndicator (isFirst afterBlank : Bool) : Text → Bool
  | [] => false
  | c :: r =>
    let beforeBlank := r.isEmpty || r.head?.any isBlank
    let here :=
      if isFirst then
        "#,[]\x7b\x7d&*!|>'\"%@`".toList.contains c
          || (beforeBlank && (c == '?' || c == ':' || c == '-'))
      else (c == ':' && beforeBlank) || (c == '#' && afterBlank)
    here || hasIndicator false (isBlank c || isBreak c) r

/-- Whether two neighbouring characters are of two classes. -/
def hasPair (p q : Char → Bool) : Text → Bool
  | a :: b :: r => (p a && q b) || hasPair p q (b :: r)
  | _ => false

/-- What the characters of a scalar allow. -/
def allowance (t : Text) : Allowance :=
  let isSpaceChar (c : Char) : Bool := c == ' '
  let isSpecial (c : Char) : Bool := c != '\t' && !isPrintableHere c
  let tab := t.contains '\t'
  let special := t.any isSpecial
  let breaks := t.any isBreak
  let edge (c : Option Char) : Bool := c.any fun c => isSpaceChar c || isBreak c
  let breakSpace := hasPair isBreak isSpaceChar t
  let spaceBreak := hasPair isSpaceChar isBreak t
  let marked := t.take 3 == ['-', '-', '-'] || t.take 3 == ['.', '.', '.']
  let quotable := !breakSpace && !spaceBreak && !tab && !special
  { multiline := breaks
    plain := quotable && !breaks && !edge t.head? && !edge t.getLast? && !marked
      && !hasIndicator true true t
    singleQuoted := quotable
    block := !t.isEmpty && !spaceBreak && !special && !t.getLast?.any isSpaceChar }

/-- The style that a scalar gets. A key on one line is in no block. -/
def chooseStyle (a : Allowance) (isKey : Bool) (asked : ScalarStyle) : ScalarStyle :=
  match asked with
  | .plain => if a.plain then .plain else if a.singleQuoted then .singleQuoted else .doubleQuoted
  | .singleQuoted => if a.singleQuoted then .singleQuoted else .doubleQuoted
  | .literal => if a.block && !isKey then .literal else .doubleQuoted
  | .folded => if a.block && !isKey then .folded else .doubleQuoted
  | .doubleQuoted => .doubleQuoted

/-! ### The printer -/

/-- What is written, in reverse, and where the next character goes: its column, whether white space
stands before it, and whether only indentation and indicators stand before it on its line. -/
structure Printer where
  reversed : Text := []
  column : Nat := 0
  afterBlank : Bool := true
  indenting : Bool := true

namespace Printer

/-- Writes a character. -/
def put (p : Printer) (c : Char) : Printer :=
  { p with reversed := c :: p.reversed, column := p.column + 1 }

/-- Writes a text. -/
def putAll (p : Printer) (t : Text) : Printer := t.foldl put p

/-- Starts a new line. -/
def newLine (p : Printer) : Printer :=
  { p with reversed := '\n' :: p.reversed, column := 0, indenting := true }

/-- Writes a line break of a scalar. The separators of Unicode are written as they are. -/
def putBreak (p : Printer) (c : Char) : Printer :=
  if c = '\n' then p.newLine
  else { p with reversed := c :: p.reversed, column := 0, indenting := true }

/-- Goes to a column, on a new line unless only indentation stands before it. -/
def indentTo (p : Printer) (column : Nat) : Printer :=
  let p :=
    if !p.indenting || column < p.column || (p.column == column && !p.afterBlank) then p.newLine
    else p
  { p.putAll (List.replicate (column - p.column) ' ') with afterBlank := true }

/-- Writes an indicator, behind a space if it needs one. -/
def indicator (p : Printer) (t : Text) (needsBlank : Bool) (keepsIndenting : Bool := false) :
    Printer :=
  let p := if needsBlank && !p.afterBlank then p.put ' ' else p
  { p.putAll t with afterBlank := false, indenting := p.indenting && keepsIndenting }

/-! ### Scalars -/

/-- A plain scalar. -/
def plain (p : Printer) (t : Text) : Printer :=
  let p := if t.isEmpty || p.afterBlank then p else p.put ' '
  { p.putAll t with afterBlank := false, indenting := false }

/-- Writes the characters between single quotation marks. A line feed is written twice at the first
of several breaks. -/
def singleFrom (column : Nat) : (afterBreak : Bool) → Text → Printer → Printer
  | _, [], p => p
  | afterBreak, c :: r, p =>
    if isBreak c then
      let p := if !afterBreak && c == '\n' then p.newLine else p
      singleFrom column true r (p.putBreak c)
    else if c = ' ' then singleFrom column afterBreak r (p.put c)
    else
      let p := if afterBreak then p.indentTo column else p
      let p := if c = '\'' then p.put c else p
      singleFrom column false r { p.put c with indenting := false }

/-- A scalar in single quotation marks. -/
def single (p : Printer) (column : Nat) (t : Text) : Printer :=
  (singleFrom column false t (p.indicator ['\''] true)).indicator ['\''] false

/-- The letter of an escape. -/
def escapeLetter? (n : Nat) : Option Char :=
  [(0x00, '0'), (0x07, 'a'), (0x08, 'b'), (0x09, 't'), (0x0A, 'n'), (0x0B, 'v'), (0x0C, 'f'),
    (0x0D, 'r'), (0x1B, 'e'), (0x22, '"'), (0x5C, '\\'), (0x85, 'N'), (0xA0, '_'), (0x2028, 'L'),
    (0x2029, 'P')].lookup n

/-- A character between double quotation marks. -/
def escaped (c : Char) : Text :=
  if isPrintableHere c && !isBreak c && c != '"' && c != '\\' then [c]
  else
    '\\' ::
      match escapeLetter? c.toNat with
      | some x => [x]
      | none =>
        let digits (width : Nat) : Text := (Quoted.hex width c.toNat).map Char.toUpper
        if c.toNat ≤ 0xFF then 'x' :: digits 2
        else if c.toNat ≤ 0xFFFF then 'u' :: digits 4
        else 'U' :: digits 8

/-- A scalar in double quotation marks. -/
def double (p : Printer) (t : Text) : Printer :=
  ((p.indicator ['"'] true).putAll (t.flatMap escaped)).indicator ['"'] false

/-- The digit for an indentation that the first line does not show, and the sign for the line breaks
at the end of a block. -/
def blockHints (step : Nat) (t : Text) : Text :=
  let hint := if t.head?.any fun c => c == ' ' || isBreak c then (toString step).toList else []
  let chomp :=
    match t.reverse with
    | [] => ['-']
    | [c] => if isBreak c then ['+'] else ['-']
    | c :: d :: _ => if !isBreak c then ['-'] else if isBreak d then ['+'] else []
  hint ++ chomp

/-- Writes the lines of a block. -/
def blockFrom (column : Nat) : (afterBreak : Bool) → Text → Printer → Printer
  | _, [], p => p
  | afterBreak, c :: r, p =>
    if isBreak c then blockFrom column true r (p.putBreak c)
    else
      let p := if afterBreak then p.indentTo column else p
      blockFrom column false r { p.put c with indenting := false }

/-- A literal block. -/
def literal (p : Printer) (step column : Nat) (t : Text) : Printer :=
  let p := (p.indicator ['|'] true).indicator (blockHints step t) false
  blockFrom column true t { p with afterBlank := true }

end Printer

/-! ### Collections -/

/-- The columns of a level. -/
def indentStep : Nat := 4

/-- Where a node stands: at the root, in a sequence or in a mapping, and from which column on. -/
inductive Place where
  | root
  | item (column : Nat)
  | entry (column : Nat)
deriving DecidableEq, Repr

namespace Place

/-- The column of a block collection. Inside a sequence it skips the dash, and inside a mapping it
goes to the next multiple of the step. -/
def inner : Place → Nat
  | .root => 0
  | .item c => c + 2
  | .entry c => indentStep * ((c + indentStep) / indentStep)

/-- The column of the further lines of a scalar. -/
def scalarColumn : Place → Nat
  | .root => indentStep
  | p => p.inner

end Place

namespace Tree

/-- Keys of up to this many bytes, and on one line, stand in front of their colon. -/
def keyLimitBytes : Nat := 128

/-- Whether a key stands on one line in front of its colon. -/
def isSimpleKey : Tree → Bool
  | .scalar tag t _ =>
    !(allowance t).multiline && tag.length + (Utf8.encode t).length ≤ keyLimitBytes
  | .sequence items => items.isEmpty
  | .mapping entries => entries.isEmpty

/-- Writes a scalar. -/
def printScalar (place : Place) (isKey : Bool) (tag : Bytes) (t : Text) (asked : ScalarStyle)
    (p : Printer) : Printer :=
  let p := if tag.isEmpty then p else p.indicator (Utf8.lossy tag) true
  match chooseStyle (allowance t) isKey asked with
  | .plain => p.plain t
  | .singleQuoted => p.single place.scalarColumn t
  | .doubleQuoted => p.double t
  | .literal | .folded => p.literal indentStep place.scalarColumn t

mutual

/-- Writes a tree. -/
def print (place : Place) (isKey : Bool) : Tree → Printer → Printer
  | .scalar tag t asked, p => printScalar place isKey tag t asked p
  | .sequence [], p => (p.indicator ['['] true).indicator [']'] false
  | .sequence (x :: xs), p => printItems place.inner (x :: xs) p
  | .mapping [], p => (p.indicator ['{'] true).indicator ['}'] false
  | .mapping (e :: es), p => printEntries place.inner (e :: es) p

/-- Writes the items of a sequence, each behind a dash. -/
def printItems (column : Nat) : List Tree → Printer → Printer
  | [], p => p
  | x :: xs, p =>
    printItems column xs
      (print (.item column) false x ((p.indentTo column).indicator ['-'] true true))

/-- Writes the entries of a mapping. A key that is no simple one stands behind a question mark. -/
def printEntries (column : Nat) : List (Tree × Tree) → Printer → Printer
  | [], p => p
  | (k, v) :: es, p =>
    let p := p.indentTo column
    let p :=
      if k.isSimpleKey then (print (.entry column) true k p).indicator [':'] false
      else
        let p := print (.entry column) false k (p.indicator ['?'] true true)
        (p.indentTo column).indicator [':'] true true
    printEntries column es (print (.entry column) false v p)

end

/-- The text of a document with this tree as its root. -/
def render (t : Tree) : Text := ((t.print .root false {}).indentTo 0).reversed.reverse

end Tree

end ScriptLint.Yaml
