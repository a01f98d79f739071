import ScriptLint.Yaml.Token

/-!
# Streams of tokens

Tokens are read on demand, at least three ahead. A mapping key is known only when its colon is
seen, so a stream remembers where a key could have started, on each level of flow collections, and
puts the tokens that open the key and its mapping in front of it then. Indentation opens and closes
block collections.
-/

namespace ScriptLint.Yaml

/-- A place where a key without an indicator may have started: whether it still may be one, whether
it has to be one, and the number of its first token. -/
structure KeyStart where
  possible : Bool := false
  required : Bool := false
  number : Nat := 0
  mark : Mark := {}
deriving Repr, Inhabited

/-- A key on one line has at most this many characters. -/
def keyLimit : Nat := 1024

/-- Collections nest at most this deep. -/
def depthLimit : Nat := 10000

/-- A search for a comment looks at this many characters. -/
def commentReach : Nat := 512

/-- The state between two tokens. `queue` holds the tokens that are read but not taken, and `taken`
counts those before them. `key` and `outer` hold the possible keys of the flow levels, innermost
first, and `levels` maps the number of a possible key's first token to its level. -/
structure TokenStream where
  cursor : Cursor
  started : Bool := false
  flow : Nat := 0
  indent : Int := -1
  indents : List Int := []
  depth : Nat := 0
  keyAllowed : Bool := false
  key : KeyStart := {}
  outer : List KeyStart := []
  levels : List (Nat × Nat) := []
  queue : List Token := []
  taken : Nat := 0
deriving Inhabited

namespace TokenStream

/-- The stream of a document's characters. -/
def ofText (t : Text) : TokenStream := { cursor := { rest := t } }

/-- The place of the cursor. -/
def mark (s : TokenStream) : Mark := s.cursor.mark

/-- What follows the cursor. -/
def rest (s : TokenStream) : Text := s.cursor.rest

/-- A fault noticed at the cursor. -/
def fail {α : Type} (s : TokenStream) (start : Mark) (cause : Cause) : Except Fault α :=
  .error (s.cursor.fault start cause)

/-- The number of the token that would be queued next. -/
def nextNumber (s : TokenStream) : Nat := s.taken + s.queue.length

/-- Queues a token at the end. -/
def push (s : TokenStream) (kind : TokenKind) (start : Mark) : TokenStream :=
  { s with queue := s.queue ++ [⟨kind, start⟩] }

/-- Queues a token in front of the token with a number. -/
def insertAt (s : TokenStream) (number : Nat) (kind : TokenKind) (start : Mark) : TokenStream :=
  if number < s.taken then s.push kind start
  else
    let i := number - s.taken
    { s with queue := s.queue.take i ++ ⟨kind, start⟩ :: s.queue.drop i }

/-- Queues an indicator of some characters at the cursor and passes it. -/
def pushIndicator (s : TokenStream) (kind : TokenKind) (width : Nat := 1) : TokenStream :=
  { s.push kind s.mark with cursor := s.cursor.advanceBy width }

/-! ### Possible keys -/

/-- Forgets the level of a token. -/
def forgetLevel (s : TokenStream) (number : Nat) : TokenStream :=
  { s with levels := s.levels.filter (·.1 ≠ number) }

/-- Whether a key can no longer end on the line and within the length it may have. -/
def isStale (s : TokenStream) (k : KeyStart) : Bool :=
  k.mark.line < s.mark.line || k.mark.index + keyLimit < s.mark.index

/-- A possible key as it stands now: a stale one is none, and a fault when one is required. -/
def freshen (s : TokenStream) (k : KeyStart) : Except Fault KeyStart :=
  if k.possible && s.isStale k then
    if k.required then s.fail k.mark .expectedColon else .ok { k with possible := false }
  else .ok k

/-- Gives up the possible key of the current level. -/
def dropKey (s : TokenStream) : Except Fault TokenStream :=
  if s.key.possible then
    if s.key.required then s.fail s.key.mark .expectedColon
    else .ok { s.forgetLevel s.key.number with key := { s.key with possible := false } }
  else .ok s

/-- Remembers that a key may start at the cursor, where one may. -/
def saveKey (s : TokenStream) : Except Fault TokenStream :=
  if s.keyAllowed then do
    let key : KeyStart :=
      { possible := true
        required := s.flow == 0 && s.indent == s.mark.column
        number := s.nextNumber
        mark := s.mark }
    let s ← s.dropKey
    return { s with key, levels := (key.number, s.flow) :: s.levels.filter (·.1 ≠ key.number) }
  else .ok s

/-- The key of a level, counted from outside. -/
def keyAt? (s : TokenStream) (level : Nat) : Option KeyStart :=
  if level = s.flow then some s.key
  else if level < s.flow then s.outer[s.flow - level - 1]?
  else none

/-- Replaces the key of a level. -/
def setKeyAt (s : TokenStream) (level : Nat) (k : KeyStart) : TokenStream :=
  if level = s.flow then { s with key := k }
  else { s with outer := s.outer.set (s.flow - level - 1) k }

/-! ### Levels -/

/-- Enters a flow collection. -/
def enterFlow (s : TokenStream) : Except Fault TokenStream :=
  let s := { s with
    outer := s.key :: s.outer
    key := { number := s.nextNumber, mark := s.mark }
    flow := s.flow + 1 }
  if depthLimit < s.flow then s.fail s.key.mark .tooDeep else .ok s

/-- Leaves a flow collection, if there is one. -/
def leaveFlow (s : TokenStream) : TokenStream :=
  match s.outer with
  | [] => s
  | k :: outer => { s.forgetLevel s.key.number with key := k, outer, flow := s.flow - 1 }

/-- Opens a block collection at a column deeper than the current one, in front of the token with a
number or at the end. -/
def openBlock (s : TokenStream) (column : Nat) (number : Option Nat) (kind : TokenKind)
    (start : Mark) : Except Fault TokenStream :=
  if s.flow = 0 ∧ s.indent < column then
    let s := { s with indents := s.indent :: s.indents, indent := column, depth := s.depth + 1 }
    if depthLimit < s.depth then s.fail s.key.mark .tooDeep
    else
      match number with
      | some n => .ok (s.insertAt n kind start)
      | none => .ok (s.push kind start)
  else .ok s

/-- Closes the block collections that are deeper than a column. -/
def closeBlocks (s : TokenStream) (column : Int) (start : Mark) : TokenStream :=
  if s.flow = 0 then
    let ended := ((s.indent :: s.indents).takeWhile (column < ·)).length
    let ended := min ended s.indents.length
    { s with
      queue := s.queue ++ List.replicate ended ⟨.blockEnd, start⟩
      indent := ((s.indent :: s.indents)[ended]?).getD s.indent
      indents := s.indents.drop ended
      depth := s.depth - ended }
  else s

/-! ### Between tokens -/

/-- The distance to a comment on one of the next lines, behind the line break at the cursor. -/
def nextComment? (t : Text) : Option Nat :=
  let gap := (t.take commentReach).takeWhile fun c => isBlank c || c == '\n' || c == '\r'
  if gap.length < commentReach ∧ t[gap.length]? = some '#' then some gap.length else none

/-- Passes white space and line breaks up to an index, and what remains of the line there. -/
def passComment (target : Nat) : (fuel : Nat) → Cursor → Cursor
  | 0, c => c
  | fuel + 1, c =>
    if target ≤ c.mark.index then c.skipLine
    else if endsLineAt c.rest then passComment target fuel c.skipBreak
    else passComment target fuel c.advance

/-- Passes a comment and the comments on the lines after it. -/
def passComments : (fuel : Nat) → Cursor → Cursor
  | 0, c => c
  | fuel + 1, c =>
    let c := c.skipLine
    match nextComment? c.rest with
    | some (n + 1) => passComments fuel (passComment (c.mark.index + n + 1) (n + 2) c)
    | _ => c

/-- Passes everything in front of the next token. Tabs count as white space only where no key may
start. A line break allows a key in block collections. -/
def toNextToken : (fuel : Nat) → TokenStream → TokenStream
  | 0, s => s
  | fuel + 1, s =>
    let c := if s.mark.column = 0 ∧ s.cursor.at? '\uFEFF' then s.cursor.advance else s.cursor
    let c := c.skipWhile fun x => x == ' ' || ((0 < s.flow || !s.keyAllowed) && x == '\t')
    let c := if c.at? '#' then passComments (c.rest.length + 1) c else c
    if c.rest.head?.any isBreak then
      toNextToken fuel
        { s with cursor := c.skipBreak, keyAllowed := s.keyAllowed || s.flow == 0 }
    else { s with cursor := c }

/-- Passes a comment on the line of the token just read. -/
def passLineComment (s : TokenStream) : TokenStream :=
  if s.cursor.breaks = 0 then
    let n := (s.rest.takeWhile isBlank).length
    if n < commentReach ∧ s.rest[n]? = some '#' then
      { s with cursor := (s.cursor.advanceBy n).skipLine }
    else s
  else s

/-! ### Reading a token -/

/-- The end of the document counts as the start of a line. -/
def readEnd (s : TokenStream) : Except Fault TokenStream := do
  let mark :=
    if s.mark.column = 0 then s.mark else { s.mark with line := s.mark.line + 1, column := 0 }
  let s := { s with cursor := { s.cursor with mark } }
  let s := { ← (s.closeBlocks (-1) s.mark).dropKey with keyAllowed := false }
  return s.push .streamEnd s.mark

/-- A directive. -/
def readDirective (s : TokenStream) : Except Fault TokenStream := do
  let s := { ← (s.closeBlocks (-1) s.mark).dropKey with keyAllowed := false }
  let (kind, cursor) ← directive s.cursor
  return { s.push kind s.mark with cursor }

/-- The start or the end of a document. -/
def readDocumentIndicator (s : TokenStream) (kind : TokenKind) : Except Fault TokenStream := do
  let s := { ← (s.closeBlocks (-1) s.mark).dropKey with keyAllowed := false }
  return s.pushIndicator kind 3

/-- A bracket that opens a flow collection; it may start a key. -/
def readFlowStart (s : TokenStream) (kind : TokenKind) : Except Fault TokenStream := do
  let s ← (← s.saveKey).enterFlow
  return { s with keyAllowed := true }.pushIndicator kind

/-- A bracket that closes a flow collection. -/
def readFlowEnd (s : TokenStream) (kind : TokenKind) : Except Fault TokenStream := do
  let s ← s.dropKey
  return { s.leaveFlow with keyAllowed := false }.pushIndicator kind

/-- A comma. -/
def readFlowEntry (s : TokenStream) : Except Fault TokenStream := do
  return { ← s.dropKey with keyAllowed := true }.pushIndicator .flowEntry

/-- A dash that starts an entry of a sequence. -/
def readBlockEntry (s : TokenStream) : Except Fault TokenStream := do
  if s.flow = 0 ∧ !s.keyAllowed then s.fail s.mark .entryNotAllowed
  let s ← s.openBlock s.mark.column none .blockSequence s.mark
  return { ← s.dropKey with keyAllowed := true }.pushIndicator .blockEntry

/-- A question mark that starts a key. -/
def readKey (s : TokenStream) : Except Fault TokenStream := do
  if s.flow = 0 ∧ !s.keyAllowed then s.fail s.mark .keyNotAllowed
  let s ← s.openBlock s.mark.column none .blockMapping s.mark
  return { ← s.dropKey with keyAllowed := s.flow == 0 }.pushIndicator .key

/-- A colon behind a key. If a key may have started, the token in front of it is put there now. -/
def readValue (s : TokenStream) : Except Fault TokenStream := do
  let key ← s.freshen s.key
  let s := { s with key }
  if key.possible then
    let s ← (s.insertAt key.number .key key.mark).openBlock key.mark.column (some key.number)
      .blockMapping key.mark
    return { s.forgetLevel key.number with
      key := { key with possible := false }
      keyAllowed := false }.pushIndicator .value
  else
    if s.flow = 0 ∧ !s.keyAllowed then s.fail s.mark .valueNotAllowed
    let s ← s.openBlock s.mark.column none .blockMapping s.mark
    return { s with keyAllowed := s.flow == 0 }.pushIndicator .value

/-- An anchor or an alias. -/
def readAnchor (s : TokenStream) (kind : Bytes → TokenKind) : Except Fault TokenStream := do
  let s := { ← s.saveKey with keyAllowed := false }
  let (name, cursor) ← anchorName s.cursor
  return { s.push (kind name) s.mark with cursor }

/-- A tag. -/
def readTag (s : TokenStream) : Except Fault TokenStream := do
  let s := { ← s.saveKey with keyAllowed := false }
  let (kind, cursor) ← tagToken s.cursor
  return { s.push kind s.mark with cursor }

/-- A block scalar. -/
def readBlockScalar (s : TokenStream) (folded : Bool) : Except Fault TokenStream := do
  let s := { ← s.dropKey with keyAllowed := true }
  let (text, cursor) ← blockScalar folded s.indent s.cursor
  return { s.push (.scalar text (if folded then .folded else .literal)) s.mark with cursor }

/-- A quoted scalar. -/
def readQuoted (s : TokenStream) (single : Bool) : Except Fault TokenStream := do
  let s := { ← s.saveKey with keyAllowed := false }
  let (text, cursor) ← quotedScalar single s.cursor
  let style := if single then ScalarStyle.singleQuoted else .doubleQuoted
  return { s.push (.scalar text style) s.mark with cursor }

/-- A plain scalar. A line break behind it allows a key. -/
def readPlain (s : TokenStream) : Except Fault TokenStream := do
  let s := { ← s.saveKey with keyAllowed := false }
  let (text, broken, cursor) ← plainScalar (0 < s.flow) (s.indent + 1).toNat s.cursor
  return { s.push (.scalar text .plain) s.mark with cursor, keyAllowed := broken }

/-- Whether a plain scalar may start with these characters. -/
def startsPlain (inFlow : Bool) : Text → Bool
  | [] => false
  | x :: r =>
    !(isBlank x || isBreak x || "-?:,[]\x7b\x7d#&*!|>'\"%@`".toList.contains x)
      || (x == '-' && !r.head?.any isBlank)
      || (!inFlow && (x == '?' || x == ':') && !endsWord r)

/-- Reads a token that belongs to the content of a document. -/
def readContent (s : TokenStream) (x : Char) (r : Text) : Except Fault TokenStream :=
  let inFlow := 0 < s.flow
  if x = '[' then s.readFlowStart .flowSequenceStart
  else if x = '{' then s.readFlowStart .flowMappingStart
  else if x = ']' then s.readFlowEnd .flowSequenceEnd
  else if x = '}' then s.readFlowEnd .flowMappingEnd
  else if x = ',' then s.readFlowEntry
  else if x = '-' ∧ endsWord r then s.readBlockEntry
  else if x = '?' ∧ (inFlow ∨ endsWord r) then s.readKey
  else if x = ':' ∧ (inFlow ∨ endsWord r) then s.readValue
  else if x = '*' then s.readAnchor .reference
  else if x = '&' then s.readAnchor .anchor
  else if x = '!' then s.readTag
  else if x = '|' ∧ ¬ inFlow then s.readBlockScalar false
  else if x = '>' ∧ ¬ inFlow then s.readBlockScalar true
  else if x = '\'' then s.readQuoted true
  else if x = '"' then s.readQuoted false
  else if startsPlain (0 < s.flow) (x :: r) then s.readPlain
  else s.fail s.mark .cannotStartToken

/-- Reads the next token into the queue, with the tokens that it makes necessary around it. -/
def read (s : TokenStream) : Except Fault TokenStream :=
  if !s.started then
    .ok { s.push .streamStart s.mark with started := true, keyAllowed := true }
  else
    let before := s.mark
    let s := toNextToken (s.rest.length + 1) s
    let s := s.closeBlocks s.mark.column before
    match s.rest with
    | [] => s.readEnd
    | x :: r =>
      if x = '%' ∧ s.mark.column = 0 then s.readDirective
      else if s.cursor.atIndicator '-' then s.readDocumentIndicator .documentStart
      else if s.cursor.atIndicator '.' then s.readDocumentIndicator .documentEnd
      else do
        let s ← s.readContent x r
        -- A comment behind a dash belongs to what follows it.
        if (s.queue.getLast?.map (·.kind)) = some .blockEntry then return s
        return s.passLineComment

/-! ### Taking tokens -/

/-- Whether more tokens have to be read before the first one is known to stay the first: with fewer
than three, or while it may turn out to start a key. -/
def needsMore (s : TokenStream) : Except Fault (Bool × TokenStream) :=
  if s.queue.length ≤ 2 then .ok (true, s)
  else
    match s.levels.lookup s.taken with
    | none => .ok (false, s)
    | some level =>
      match s.keyAt? level with
      | none => .ok (false, s)
      | some k => do
        let k ← s.freshen k
        return (k.possible, s.setKeyAt level k)

/-- Reads until the first token is settled. -/
def settle : (fuel : Nat) → TokenStream → Except Fault TokenStream
  | 0, s => .ok s
  | fuel + 1, s => do
    let (more, s) ← s.needsMore
    if more then settle fuel (← s.read) else return s

/-- The first token, and the stream that has read it. -/
def peek (s : TokenStream) : Except Fault (Token × TokenStream) := do
  let s ← settle (s.rest.length + 8) s
  return (s.queue.head?.getD ⟨.streamEnd, s.mark⟩, s)

/-- The stream behind its first token. -/
def skip (s : TokenStream) : TokenStream := { s with queue := s.queue.tail, taken := s.taken + 1 }

end TokenStream

end ScriptLint.Yaml
