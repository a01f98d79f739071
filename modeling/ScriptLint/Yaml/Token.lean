import ScriptLint.Yaml.Scalar

/-!
# Tokens

The words of a document: indicators, directives, anchors, tags and scalars, and the invisible
tokens that open and close indented collections. This module holds the readers of the tokens that
have a content of their own.
-/

namespace ScriptLint.Yaml

/-- What a token is. -/
inductive TokenKind where
  | streamStart
  | streamEnd
  | version (major minor : Nat)
  | tagHandle (handle uri : Bytes)
  | documentStart
  | documentEnd
  | blockSequence
  | blockMapping
  | blockEnd
  | flowSequenceStart
  | flowSequenceEnd
  | flowMappingStart
  | flowMappingEnd
  | blockEntry
  | flowEntry
  | key
  | value
  | reference (name : Bytes)
  | anchor (name : Bytes)
  | tag (handle suffix : Bytes)
  | scalar (text : Text) (style : ScalarStyle)
deriving DecidableEq, Repr, Inhabited

/-- A token and the place it starts at. -/
structure Token where
  kind : TokenKind
  start : Mark
deriving Repr, Inhabited

/-! ### Anchors -/

/-- The name behind `&` or `*`. It ends at white space or at an indicator. -/
def anchorName (c : Cursor) : Except Fault (Bytes × Cursor) :=
  let start := c.mark
  let (name, c) := c.advance.takeWhile isNameChar
  if name.isEmpty || !(endsWord c.rest || c.rest.head?.any ("?:,]\x7d%@`".toList.contains ·)) then
    .error (c.fault start .badAnchorName)
  else .ok (Utf8.encode name, c)

/-! ### Tags -/

/-- The characters of a tag's address; `%` starts an escaped byte. -/
def isUriChar (c : Char) : Bool := isNameChar c || ";/?:@&=+$,.!~*'()[]%".toList.contains c

/-- The number of bytes of an escaped character, from its first byte. -/
def escapedWidth? (octet : Nat) : Option Nat :=
  if octet < 0x80 then some 1
  else if octet < 0xC0 then none
  else if octet < 0xE0 then some 2
  else if octet < 0xF0 then some 3
  else if octet < 0xF8 then some 4
  else none

/-- One escaped byte. -/
def uriOctet? (c : Cursor) : Option (Nat × Cursor) :=
  match c.rest with
  | '%' :: h :: l :: _ => do
    let h ← hexValue? h
    let l ← hexValue? l
    return (h * 16 + l, c.advanceBy 3)
  | _ => none

/-- The escaped bytes that continue a character. -/
def uriTrail (start : Mark) : Nat → Bytes → Cursor → Except Fault (Bytes × Cursor)
  | 0, s, c => .ok (s, c)
  | n + 1, s, c =>
    match uriOctet? c with
    | none => .error (c.fault start .badUriEscape)
    | some (octet, next) =>
      if 0x80 ≤ octet ∧ octet < 0xC0 then uriTrail start n (s ++ [octet.toUInt8]) next
      else .error (c.fault start .badUriTrailingOctet)

/-- An escaped character. -/
def uriEscape (start : Mark) (c : Cursor) : Except Fault (Bytes × Cursor) :=
  match uriOctet? c with
  | none => .error (c.fault start .badUriEscape)
  | some (octet, next) =>
    match escapedWidth? octet with
    | none => .error (c.fault start .badUriLeadingOctet)
    | some width => uriTrail start (width - 1) [octet.toUInt8] next

/-- Reads the characters of an address behind what is read already. -/
def uriFrom (start : Mark) : (fuel : Nat) → Bytes → Cursor → Except Fault (Bytes × Cursor)
  | 0, s, c => .ok (s, c)
  | fuel + 1, s, c =>
    match c.rest with
    | [] => .ok (s, c)
    | x :: _ =>
      if !isUriChar x then .ok (s, c)
      else if x = '%' then do
        let (t, c) ← uriEscape start c
        uriFrom start fuel (s ++ t) c
      else uriFrom start fuel (s ++ Utf8.encodeChar x) c.advance

/-- The address of a tag, which may not be empty. -/
def tagUri (start : Mark) (c : Cursor) : Except Fault (Bytes × Cursor) := do
  let (s, next) ← uriFrom start (c.rest.length + 1) [] c
  if s.isEmpty then .error (next.fault start .expectedTagUri)
  return (s, next)

/-- A handle: an exclamation mark, a name, and an exclamation mark when there is one. -/
def takeHandle (c : Cursor) : Text × Cursor :=
  let (name, c) := c.advance.takeWhile isNameChar
  if c.at? '!' then ('!' :: name ++ ['!'], c.advance) else ('!' :: name, c)

/-- A tag: an address in angle brackets, a handle with a suffix, or a name behind a single
exclamation mark. A lone exclamation mark is a suffix without handle. -/
def tagToken (c : Cursor) : Except Fault (TokenKind × Cursor) := do
  let start := c.mark
  let (kind, c) ←
    if c.peek? 1 = some '<' then do
      let (uri, c) ← tagUri start (c.advanceBy 2)
      if !c.at? '>' then .error (c.fault start .expectedTagClose)
      pure (TokenKind.tag [] uri, c.advance)
    else do
      let (handle, c) := takeHandle c
      if 1 < handle.length ∧ handle.getLast? = some '!' then do
        let (suffix, c) ← tagUri start c
        pure (TokenKind.tag (Utf8.encode handle) suffix, c)
      else do
        let (suffix, c) ← uriFrom start (c.rest.length + 1) (Utf8.encode handle.tail) c
        pure (if suffix.isEmpty then .tag [] (bytes "!") else .tag (bytes "!") suffix, c)
  if !endsWord c.rest then .error (c.fault start .expectedBlankOrBreak)
  return (kind, c)

/-! ### Directives -/

/-- A part of a version number, of at most two digits. -/
def versionNumber (start : Mark) (c : Cursor) : Except Fault (Nat × Cursor) := do
  let digits := c.rest.takeWhile (·.isDigit)
  if digits.isEmpty then .error (c.fault start .expectedVersion)
  if 2 < digits.length then .error ((c.advanceBy 2).fault start .versionTooLong)
  return (digits.foldl (fun n d => n * 10 + (d.toNat - 0x30)) 0, c.advanceBy digits.length)

/-- The content of a version directive. -/
def versionDirective (start : Mark) (c : Cursor) : Except Fault (TokenKind × Cursor) := do
  let (major, c) ← versionNumber start (c.skipWhile isBlank)
  if !c.at? '.' then .error (c.fault start .expectedVersionPoint)
  let (minor, c) ← versionNumber start c.advance
  return (.version major minor, c)

/-- The content of a directive that introduces a tag handle. -/
def tagDirective (start : Mark) (c : Cursor) : Except Fault (TokenKind × Cursor) := do
  let c := c.skipWhile isBlank
  if !c.at? '!' then .error (c.fault start .expectedTagHandle)
  let (handle, c) := takeHandle c
  if handle ≠ ['!'] ∧ ¬ (1 < handle.length ∧ handle.getLast? = some '!') then
    .error (c.fault start .expectedTagHandle)
  if !c.rest.head?.any isBlank then .error (c.fault start .expectedBlank)
  let (uri, c) ← tagUri start (c.skipWhile isBlank)
  if !endsWord c.rest then .error (c.fault start .expectedBlankOrBreak)
  return (.tagHandle (Utf8.encode handle) uri, c)

/-- A directive with the rest of its line. -/
def directive (c : Cursor) : Except Fault (TokenKind × Cursor) := do
  let start := c.mark
  let (name, c) := c.advance.takeWhile isNameChar
  if name.isEmpty then .error (c.fault start .expectedDirectiveName)
  if !endsWord c.rest then .error (c.fault start .directiveNotAlphabetical)
  let (kind, c) ←
    if name = "YAML".toList then versionDirective start c
    else if name = "TAG".toList then tagDirective start c
    else .error (c.fault start .unknownDirective)
  let c := c.skipWhile isBlank
  let c := if c.at? '#' then c.skipLine else c
  if !endsLineAt c.rest then .error (c.fault start .expectedLineEnd)
  return (kind, c.skipBreak)

end ScriptLint.Yaml
