import ScriptLint.Yaml.Cursor

/-!
# Scalars

The text of a scalar in its five notations. Plain and quoted scalars fold the white space between
two lines; block scalars keep their lines or fold them, and chomp or keep the line breaks at their
end.
-/

namespace ScriptLint.Yaml

/-- How a scalar is written. -/
inductive ScalarStyle where
  | plain
  | singleQuoted
  | doubleQuoted
  | literal
  | folded
deriving DecidableEq, Repr, Inhabited

/-! ### White space inside flow scalars -/

/-- White space between two words of a scalar: blanks on one line, or a first line break with those
that follow it. -/
structure Gap where
  blanks : Text := []
  broken : Bool := false
  lead : Text := []
  trail : Text := []
deriving Repr, Inhabited

namespace Gap

/-- What a gap stands for: its blanks, a space for a single line feed, or the breaks after the
first. -/
def fold (g : Gap) : Text :=
  if g.broken then
    if g.lead.head? = some '\n' then (if g.trail = [] then [' '] else g.trail)
    else g.lead ++ g.trail
  else g.blanks

/-- Whether there is white space at all. -/
def isEmpty (g : Gap) : Bool := !g.broken && g.blanks.isEmpty

end Gap

/-- Reads a gap. Behind a line break a tab in a column below `indent` is refused. -/
def takeGap (indent : Nat) : (fuel : Nat) → Gap → Cursor → Option (Gap × Cursor)
  | 0, g, c => some (g, c)
  | fuel + 1, g, c =>
    match c.peek? with
    | none => some (g, c)
    | some x =>
      if isBlank x then
        if g.broken then
          if x = '\t' ∧ c.mark.column < indent then none
          else takeGap indent fuel g c.advance
        else takeGap indent fuel { g with blanks := g.blanks ++ [x] } c.advance
      else if isBreak x then
        let (t, c) := c.takeBreak
        if g.broken then takeGap indent fuel { g with trail := g.trail ++ t } c
        else takeGap indent fuel { g with blanks := [], broken := true, lead := t } c
      else some (g, c)

/-! ### Plain scalars -/

/-- A word of a plain scalar: up to white space, a colon at the end of a word, or inside flow
collections one of their indicators. -/
def plainWord (inFlow : Bool) : Text → Text
  | [] => []
  | c :: r =>
    if isBlank c || isBreak c then []
    else if c == ':' && endsWord r then []
    else if inFlow && ",?[]\x7b\x7d".toList.contains c then []
    else c :: plainWord inFlow r

/-- Reads words and gaps of a plain scalar. The result tells whether a line break follows the last
word. -/
def plainFrom (inFlow : Bool) (indent : Nat) (start : Mark) :
    (fuel : Nat) → (value : Text) → (gap : Gap) → Cursor → Except Fault (Text × Bool × Cursor)
  | 0, value, gap, c => .ok (value, gap.broken, c)
  | fuel + 1, value, gap, c =>
    if c.atIndicator '-' || c.atIndicator '.' || c.at? '#' then .ok (value, gap.broken, c)
    else
      let word := plainWord inFlow c.rest
      let (value, gap, c) :=
        if word.isEmpty then (value, gap, c)
        else (value ++ gap.fold ++ word, {}, c.advanceBy word.length)
      match c.peek? with
      | none => .ok (value, gap.broken, c)
      | some x =>
        if !(isBlank x || isBreak x) then .ok (value, gap.broken, c)
        else
          match takeGap indent (c.rest.length + 1) gap c with
          | none =>
            -- The tab is found after blanks and breaks; the report names the line it is on.
            .error ((tabPlace c).fault start .tabInPlain)
          | some (gap, c) =>
            if !inFlow && c.mark.column < indent then .ok (value, gap.broken, c)
            else plainFrom inFlow indent start fuel value gap c
where
  /-- The place of the tab that a gap stops at. -/
  tabPlace (c : Cursor) : Cursor := tabFrom indent (c.rest.length + 1) false c
  /-- Walks white space up to a tab behind a line break in a column below the indentation. -/
  tabFrom (indent : Nat) : (fuel : Nat) → (broken : Bool) → Cursor → Cursor
    | 0, _, c => c
    | fuel + 1, broken, c =>
      match c.peek? with
      | none => c
      | some x =>
        if isBlank x then
          if broken && x == '\t' && c.mark.column < indent then c
          else tabFrom indent fuel broken c.advance
        else if isBreak x then tabFrom indent fuel true c.skipBreak
        else c

/-- A plain scalar: its text, whether a line break follows, and the cursor behind it. -/
def plainScalar (inFlow : Bool) (indent : Nat) (c : Cursor) : Except Fault (Text × Bool × Cursor) :=
  plainFrom inFlow indent c.mark (c.rest.length + 1) [] {} c

/-! ### Quoted scalars -/

/-- The character of an escape with a letter. -/
def simpleEscape? (c : Char) : Option Char :=
  match c with
  | '0' => some (Char.ofNat 0)
  | 'a' => some (Char.ofNat 7)
  | 'b' => some (Char.ofNat 8)
  | 't' | '\t' => some '\t'
  | 'n' => some '\n'
  | 'v' => some (Char.ofNat 0x0B)
  | 'f' => some (Char.ofNat 0x0C)
  | 'r' => some '\r'
  | 'e' => some (Char.ofNat 0x1B)
  | ' ' => some ' '
  | '"' => some '"'
  | '\'' => some '\''
  | '\\' => some '\\'
  | 'N' => some '\u0085'
  | '_' => some '\u00A0'
  | 'L' => some '\u2028'
  | 'P' => some '\u2029'
  | _ => none

/-- The number of hexadecimal digits of a numeric escape. -/
def escapeLength? (c : Char) : Option Nat :=
  match c with
  | 'x' => some 2
  | 'u' => some 4
  | 'U' => some 8
  | _ => none

/-- The number of some hexadecimal digits. -/
def hexNumber? (digits : Text) : Option Nat :=
  digits.foldl (fun n c => do return (← n) * 16 + (← hexValue? c)) (some 0)

/-- The character of an escape in double quotes, after its backslash. -/
def escape (start : Mark) (c : Cursor) : Except Fault (Char × Cursor) :=
  let behind := c.advance
  match behind.peek? with
  | none => .error (c.fault start .unknownEscape)
  | some x =>
    match simpleEscape? x, escapeLength? x with
    | some y, _ => .ok (y, behind.advance)
    | none, none => .error (c.fault start .unknownEscape)
    | none, some n =>
      let c := behind.advance
      let digits := c.rest.take n
      match hexNumber? digits with
      | none => .error (c.fault start .expectedHexadecimal)
      | some value =>
        if digits.length < n then .error (c.fault start .expectedHexadecimal)
        else if (0xD800 ≤ value ∧ value ≤ 0xDFFF) ∨ 0x10FFFF < value then
          .error (c.fault start .badEscapeCode)
        else .ok (Char.ofNat value, c.advanceBy n)

/-- A word of a quoted scalar, up to white space or the closing quotation mark. An escaped line
break ends it too, and counts as a line break already passed. -/
def quotedWord (single : Bool) (start : Mark) :
    (fuel : Nat) → (value : Text) → Cursor → Except Fault (Text × Bool × Cursor)
  | 0, value, c => .ok (value, false, c)
  | fuel + 1, value, c =>
    match c.rest with
    | [] => .ok (value, false, c)
    | x :: r =>
      if isBlank x || isBreak x then .ok (value, false, c)
      else if single then
        if x = '\'' then
          if r.head? = some '\'' then
            quotedWord single start fuel (value ++ ['\'']) (c.advanceBy 2)
          else .ok (value, false, c)
        else quotedWord single start fuel (value ++ [x]) c.advance
      else if x = '"' then .ok (value, false, c)
      else if x = '\\' then
        if r.head?.any isBreak then .ok (value, true, c.advance.skipBreak)
        else do
          let (y, c) ← escape start c
          quotedWord single start fuel (value ++ [y]) c
      else quotedWord single start fuel (value ++ [x]) c.advance

/-- Reads words and gaps up to the closing quotation mark. -/
def quotedFrom (single : Bool) (start : Mark) :
    (fuel : Nat) → (value : Text) → Cursor → Except Fault (Text × Cursor)
  | 0, value, c => .ok (value, c)
  | fuel + 1, value, c => do
    if c.atIndicator '-' || c.atIndicator '.' then .error (c.fault start .documentIndicator)
    if c.rest = [] then .error (c.fault start .endOfStream)
    let (value, broken, c) ← quotedWord single start (c.rest.length + 1) value c
    if c.at? (if single then '\'' else '"') then return (value, c.advance)
    match takeGap 0 (c.rest.length + 1) { broken } c with
    | none => return (value, c)
    | some (gap, c) => quotedFrom single start fuel (value ++ gap.fold) c

/-- A quoted scalar: its text and the cursor behind the closing quotation mark. -/
def quotedScalar (single : Bool) (c : Cursor) : Except Fault (Text × Cursor) :=
  quotedFrom single c.mark (c.rest.length + 1) [] c.advance

/-! ### Block scalars -/

/-- What becomes of the line breaks at the end of a block scalar. -/
inductive Chomp where
  | strip
  | clip
  | keep
deriving DecidableEq, Repr

/-- A chomping indicator. -/
def chomp? (c : Cursor) : Option Chomp :=
  if c.at? '+' then some .keep else if c.at? '-' then some .strip else none

/-- An indentation indicator, a digit above zero. -/
def increment (start : Mark) (c : Cursor) : Except Fault (Nat × Cursor) :=
  match c.peek? with
  | some x =>
    if x.isDigit then
      if x = '0' then .error (c.fault start .zeroIndentation)
      else .ok (x.toNat - 0x30, c.advance)
    else .ok (0, c)
  | none => .ok (0, c)

/-- The indicators of a block scalar, in either order. -/
def blockHeader (start : Mark) (c : Cursor) : Except Fault (Chomp × Nat × Cursor) := do
  match chomp? c with
  | some chomp =>
    let (n, c) ← increment start c.advance
    return (chomp, n, c)
  | none =>
    let (n, c) ← increment start c
    if n = 0 then return (.clip, 0, c)
    match chomp? c with
    | some chomp => return (chomp, n, c.advance)
    | none => return (.clip, n, c)

/-- Passes indentation and empty lines, and finds the indentation when it is not known yet (zero).
The result is the indentation, the breaks of the empty lines and the cursor. -/
def blockBreaks (start : Mark) (parent : Int) (indent : Nat) :
    (fuel deepest : Nat) → (breaks : Text) → Cursor → Except Fault (Nat × Text × Cursor)
  | 0, _, breaks, c => .ok (indent, breaks, c)
  | fuel + 1, deepest, breaks, c =>
    let spaces := (c.rest.takeWhile (· == ' ')).length
    let room := if indent = 0 then spaces else min spaces (indent - c.mark.column)
    let c := c.advanceBy room
    let deepest := max deepest c.mark.column
    if (indent = 0 ∨ c.mark.column < indent) ∧ c.at? '\t' then
      .error (c.fault start .tabIndentation)
    else if c.rest.head?.any isBreak then
      let (t, c) := c.takeBreak
      blockBreaks start parent indent fuel deepest (breaks ++ t) c
    else
      let found := if indent = 0 then max (max deepest (parent + 1).toNat) 1 else indent
      .ok (found, breaks, c)

/-- Reads the lines of a block scalar. `lead` is the break of the line before, `trail` those of the
empty lines after it, and `wasBlank` tells whether that line started with a blank. -/
def blockFrom (folded : Bool) (start : Mark) (parent : Int) (indent : Nat) :
    (fuel : Nat) → (value lead trail : Text) → (wasBlank : Bool) → Cursor →
    Except Fault (Text × Text × Text × Cursor)
  | 0, value, lead, trail, _, c => .ok (value, lead, trail, c)
  | fuel + 1, value, lead, trail, wasBlank, c =>
    if c.mark.column ≠ indent ∨ c.rest = [] then .ok (value, lead, trail, c)
    else
      let isBlankLine := c.rest.head?.any isBlank
      let joint :=
        if folded && !wasBlank && !isBlankLine && lead.head? == some '\n' then
          if trail.isEmpty then [' '] else []
        else lead
      let (line, c) := c.takeWhile fun x => !isBreak x
      let (lead, c) := c.takeBreak
      match blockBreaks start parent indent (c.rest.length + 1) 0 [] c with
      | .error e => .error e
      | .ok (_, breaks, c) =>
        blockFrom folded start parent indent fuel (value ++ joint ++ trail ++ line) lead breaks
          isBlankLine c

/-- A block scalar under a parent indentation: its text and the cursor behind it. -/
def blockScalar (folded : Bool) (parent : Int) (c : Cursor) : Except Fault (Text × Cursor) := do
  let start := c.mark
  let (chomp, n, c) ← blockHeader start c.advance
  let c := c.skipWhile isBlank
  let c := if c.at? '#' then c.skipLine else c
  if !endsLineAt c.rest then .error (c.fault start .expectedLineEnd)
  let c := c.skipBreak
  let given := if n = 0 then 0 else if 0 ≤ parent then parent.toNat + n else n
  let (indent, trail, c) ← blockBreaks start parent given (c.rest.length + 1) 0 [] c
  let (value, lead, trail, c) ←
    blockFrom folded start parent indent (c.rest.length + 1) [] [] trail false c
  let value := if chomp = .strip then value else value ++ lead
  return (if chomp = .keep then value ++ trail else value, c)

end ScriptLint.Yaml
