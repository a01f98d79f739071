import ScriptLint.Yaml.Tag
import ScriptLint.Yaml.TokenStream

/-!
# Nodes

The tree that a document's tokens describe: scalars, sequences and mappings, and aliases that stand
for a node with an anchor. An anchored node may contain an alias of itself, so the anchored nodes
stand in a table beside the tree and an alias holds a place in it.
-/

namespace ScriptLint.Yaml

/-- A node with its tag and the line it starts on. An alias also has a number of its own. -/
inductive Node where
  | scalar (tag : Bytes) (text : Text) (line : Nat)
  | sequence (tag : Bytes) (items : List Node) (line : Nat)
  | mapping (tag : Bytes) (entries : List (Node × Node)) (line : Nat)
  | reference (serial : Nat) (name : Bytes) (target : Nat) (line : Nat)
deriving Inhabited, Repr

/-- A document: its root, the nodes with an anchor by their place in the table, and a bound of the
number of its nodes. -/
structure Document where
  root : Node
  anchored : List (Nat × Node)
  size : Nat
deriving Inhabited, Repr

namespace Node

/-- The line that a node starts on, counted from one. -/
def line : Node → Nat
  | .scalar _ _ n | .sequence _ _ n | .mapping _ _ n | .reference _ _ _ n => n

/-- The text of a scalar or the name of an alias; collections have none. -/
def text : Node → Bytes
  | .scalar _ t _ => Utf8.encode t
  | .reference _ name _ _ => name
  | _ => []

/-- Whether two keys are written alike: nodes of one kind with the same text. -/
def alike : Node → Node → Bool
  | .scalar _ s _, .scalar _ t _ => s == t
  | .sequence .., .sequence .. => true
  | .mapping .., .mapping .. => true
  | .reference _ n _ _, .reference _ m _ _ => n == m
  | _, _ => false

/-- Whether a key asks for the entries of other mappings. -/
def isMerge : Node → Bool
  | .scalar tag t _ => tag == Tag.merge && t == ['<', '<']
  | _ => false

/-- A scalar as it is written: its tag, when it has none, follows from its style and its text. -/
def ofScalar (tag : Bytes) (t : Text) (style : ScalarStyle) (line : Nat) : Node :=
  if tag ≠ [] ∧ tag ≠ bytes "!" then .scalar (Tag.short tag) t line
  else if style ≠ .plain then .scalar Tag.str t line
  else if t = ['<', '<'] then .scalar Tag.merge t line
  else .scalar (looksLike true t).1 t line

/-- The tag of a collection, which is its kind when none is given. -/
def collectionTag (tag kind : Bytes) : Bytes :=
  if tag ≠ [] ∧ tag ≠ bytes "!" then Tag.short tag else kind

/-- The node of an empty place. -/
def empty (place : Mark) : Node := .scalar Tag.null [] (place.line + 1)

end Node

namespace Document

/-- The node that an alias stands for. -/
def target? (d : Document) (place : Nat) : Option Node := d.anchored.lookup place

/-- The tag of a node; that of an alias is its target's. -/
def tagOf (d : Document) : Node → Bytes
  | .scalar tag _ _ | .sequence tag _ _ | .mapping tag _ _ => tag
  | .reference _ _ place _ =>
    match d.target? place with
    | some (.scalar tag _ _) | some (.sequence tag _ _) | some (.mapping tag _ _) => tag
    | _ => []

end Document

/-! ### Reading nodes from tokens -/

/-- What reading a document keeps: the tokens ahead, the tag handles, the latest place of each
anchor name, the finished anchored nodes, and the number of the next alias or place. -/
structure ReadState where
  tokens : TokenStream
  handles : List (Bytes × Bytes) := []
  anchors : List (Bytes × Nat) := []
  anchored : List (Nat × Node) := []
  next : Nat := 0

/-- A step of reading. -/
abbrev Reading (α : Type) := StateT ReadState (Except Fault) α

namespace Reading

/-- The next token. -/
def peek : Reading Token := do
  let s ← get
  let (t, tokens) ← s.tokens.peek
  set { s with tokens }
  return t

/-- Takes the next token. -/
def skip : Reading Unit := modify fun s => { s with tokens := s.tokens.skip }

/-- A fault in the structure around a context, noticed at a token. It is reported on the line before
the context, or on the first line before the token. -/
def fault {α : Type} (context problem : Mark) (cause : Cause) : Reading α :=
  throw { line := if context.line ≠ 0 then context.line else problem.line, cause }

/-- A number not used before. -/
def fresh : Reading Nat :=
  modifyGet fun s => (s.next, { s with next := s.next + 1 })

/-- Reserves a place for a node with an anchor. -/
def reserve : Option Bytes → Reading (Option Nat)
  | none => return none
  | some name => do
    let place ← fresh
    modify fun s => { s with anchors := (name, place) :: s.anchors }
    return some place

/-- Puts a finished node into the place reserved for it. -/
def keep (place : Option Nat) (n : Node) : Reading Node := do
  match place with
  | none => pure ()
  | some p => modify fun s => { s with anchored := (p, n) :: s.anchored }
  return n

/-- The full tag behind a handle. -/
def fullTag (start place : Mark) (handle suffix : Bytes) : Reading Bytes := do
  if handle = [] then return suffix
  match (← get).handles.lookup handle with
  | some uri => return uri ++ suffix
  | none => fault start place .undefinedTagHandle

/-- An anchor and a tag in front of a node, in either order, with the token behind them. -/
def properties (first : Token) : Reading (Option Bytes × Bytes × Token) := do
  match first.kind with
  | .anchor name =>
    skip
    let t ← peek
    match t.kind with
    | .tag handle suffix =>
      skip
      let behind ← peek
      return (some name, ← fullTag first.start t.start handle suffix, behind)
    | _ => return (some name, [], t)
  | .tag handle suffix =>
    skip
    let t ← peek
    match t.kind with
    | .anchor name =>
      skip
      let behind ← peek
      return (some name, ← fullTag first.start first.start handle suffix, behind)
    | _ => return (none, ← fullTag first.start first.start handle suffix, t)
  | _ => return (none, [], first)

/-- A node that an alias refers to. -/
def referenceNode (name : Bytes) (start : Mark) : Reading Node := do
  match (← get).anchors.lookup name with
  | some place => return .reference (← fresh) name place (start.line + 1)
  | none => throw { cause := .unknownAnchor name }

mutual

/-- A node. In the place of a mapping's key or value a sequence needs no indentation. -/
def node (block unindented : Bool) : (fuel : Nat) → Reading Node
  | 0 => return default
  | fuel + 1 => do
    let first ← peek
    if let .reference name := first.kind then
      skip
      return ← referenceNode name first.start
    let (anchor, tag, t) ← properties first
    let line := first.start.line + 1
    match t.kind with
    | .scalar text style =>
      skip
      keep (← reserve anchor) (.ofScalar tag text style line)
    | .flowSequenceStart =>
      let place ← reserve anchor
      skip
      let items ← flowItems t.start true fuel
      keep place (.sequence (Node.collectionTag tag Tag.seq) items line)
    | .flowMappingStart =>
      let place ← reserve anchor
      skip
      let entries ← flowEntries t.start true fuel
      keep place (.mapping (Node.collectionTag tag Tag.map) entries line)
    | kind =>
      if kind = .blockEntry ∧ unindented then
        let place ← reserve anchor
        let items ← unindentedItems fuel
        keep place (.sequence (Node.collectionTag tag Tag.seq) items line)
      else if kind = .blockSequence ∧ block then
        let place ← reserve anchor
        skip
        let items ← blockItems t.start fuel
        keep place (.sequence (Node.collectionTag tag Tag.seq) items line)
      else if kind = .blockMapping ∧ block then
        let place ← reserve anchor
        skip
        let entries ← blockEntries t.start fuel
        keep place (.mapping (Node.collectionTag tag Tag.map) entries line)
      else if anchor.isSome ∨ tag ≠ [] then
        keep (← reserve anchor) (.ofScalar tag [] .plain line)
      else fault first.start t.start .expectedContent

/-- The entries of an indented sequence, each behind a dash. -/
def blockItems (start : Mark) : (fuel : Nat) → Reading (List Node)
  | 0 => return []
  | fuel + 1 => do
    let t ← peek
    skip
    match t.kind with
    | .blockEntry =>
      let kind := (← peek).kind
      let item ←
        if kind = .blockEntry ∨ kind = .blockEnd then pure (Node.empty t.start)
        else node true false fuel
      return item :: (← blockItems start fuel)
    | .blockEnd => return []
    | _ => fault start t.start .expectedDash

/-- The entries of a sequence on the indentation of its mapping. -/
def unindentedItems : (fuel : Nat) → Reading (List Node)
  | 0 => return []
  | fuel + 1 => do
    let t ← peek
    if t.kind ≠ .blockEntry then return []
    skip
    let kind := (← peek).kind
    let item ←
      if kind = .blockEntry ∨ kind = .key ∨ kind = .value ∨ kind = .blockEnd then
        pure (Node.empty t.start)
      else node true false fuel
    return item :: (← unindentedItems fuel)

/-- The entries of an indented mapping. -/
def blockEntries (start : Mark) : (fuel : Nat) → Reading (List (Node × Node))
  | 0 => return []
  | fuel + 1 => do
    let t ← peek
    skip
    match t.kind with
    | .key =>
      let key ← blockPart t.start fuel
      let v ← peek
      let value ←
        if v.kind = .value then
          skip
          blockPart v.start fuel
        else pure (Node.empty v.start)
      return (key, value) :: (← blockEntries start fuel)
    | .blockEnd => return []
    | _ => fault start t.start .expectedKey

/-- A key or a value of an indented mapping, which may be left out. -/
def blockPart (place : Mark) : (fuel : Nat) → Reading Node
  | 0 => return default
  | fuel + 1 => do
    let kind := (← peek).kind
    if kind = .key ∨ kind = .value ∨ kind = .blockEnd then return .empty place
    node true true fuel

/-- The items of a sequence in brackets; an item with a key is a mapping of one entry. -/
def flowItems (start : Mark) (isFirst : Bool) : (fuel : Nat) → Reading (List Node)
  | 0 => return []
  | fuel + 1 => do
    let t ← peek
    if t.kind = .flowSequenceEnd then
      skip
      return []
    let t ←
      if isFirst then pure t
      else if t.kind = .flowEntry then
        skip
        peek
      else fault start t.start .expectedCommaOrBracket
    if t.kind = .flowSequenceEnd then
      skip
      return []
    let item ←
      if t.kind = .key then
        skip
        let entry ← flowPair fuel
        pure (Node.mapping Tag.map [entry] (t.start.line + 1))
      else node false false fuel
    return item :: (← flowItems start false fuel)

/-- The entry of a mapping that stands in a sequence without braces. -/
def flowPair : (fuel : Nat) → Reading (Node × Node)
  | 0 => return default
  | fuel + 1 => do
    let k ← peek
    let key ←
      if k.kind = .value ∨ k.kind = .flowEntry ∨ k.kind = .flowSequenceEnd then
        skip
        pure (Node.empty k.start)
      else node false false fuel
    let v ← peek
    if v.kind = .value then
      skip
      let kind := (← peek).kind
      if kind ≠ .flowEntry ∧ kind ≠ .flowSequenceEnd then
        return (key, ← node false false fuel)
    return (key, .empty v.start)

/-- The entries of a mapping in braces. A node without a key indicator is a key with an empty
value. -/
def flowEntries (start : Mark) (isFirst : Bool) : (fuel : Nat) → Reading (List (Node × Node))
  | 0 => return []
  | fuel + 1 => do
    let t ← peek
    if t.kind = .flowMappingEnd then
      skip
      return []
    let t ←
      if isFirst then pure t
      else if t.kind = .flowEntry then
        skip
        peek
      else fault start t.start .expectedCommaOrBrace
    if t.kind = .flowMappingEnd then
      skip
      return []
    let entry ←
      if t.kind = .key then
        skip
        let k ← peek
        let key ←
          if k.kind = .value ∨ k.kind = .flowEntry ∨ k.kind = .flowMappingEnd then
            pure (Node.empty k.start)
          else node false false fuel
        let value ← flowValue fuel
        pure (key, value)
      else
        let key ← node false false fuel
        pure (key, Node.empty (← peek).start)
    return entry :: (← flowEntries start false fuel)

/-- The value of an entry in braces, which may be left out. -/
def flowValue : (fuel : Nat) → Reading Node
  | 0 => return default
  | fuel + 1 => do
    let v ← peek
    if v.kind = .value then
      skip
      let behind ← peek
      if behind.kind ≠ .flowEntry ∧ behind.kind ≠ .flowMappingEnd then
        return ← node false false fuel
      return .empty behind.start
    return .empty v.start

end

/-! ### Documents -/

/-- Reads the directives in front of a document, and adds the handles that every document knows. -/
def directives : (fuel : Nat) → (versioned : Bool) → Reading Unit
  | 0, _ => return ()
  | fuel + 1, versioned => do
    let t ← peek
    match t.kind with
    | .version major minor =>
      if versioned then fault {} t.start .duplicateVersion
      if major ≠ 1 ∨ minor ≠ 1 then fault {} t.start .incompatibleVersion
      skip
      directives fuel true
    | .tagHandle handle uri =>
      if ((← get).handles.lookup handle).isSome then fault {} t.start .duplicateTagHandle
      modify fun s => { s with handles := s.handles ++ [(handle, uri)] }
      skip
      directives fuel versioned
    | _ =>
      modify fun s =>
        { s with handles := s.handles ++ [(bytes "!", bytes "!"), (bytes "!!", Tag.common)] }

/-- The root of the first document, if there is one. -/
def root (fuel : Nat) : Reading (Option Node) := do
  skip
  let t ← peek
  match t.kind with
  | .streamEnd => return none
  | .version .. | .tagHandle .. | .documentStart =>
    directives fuel false
    let t ← peek
    if t.kind ≠ .documentStart then fault {} t.start .expectedDocumentStart
    skip
    let t ← peek
    match t.kind with
    | .version .. | .tagHandle .. | .documentStart | .documentEnd | .streamEnd =>
      return some (.empty t.start)
    | _ => return some (← node true false fuel)
  | _ =>
    directives fuel false
    return some (← node true false fuel)

/-- The first document. One token behind it is looked at, the rest is not. -/
def document (fuel : Nat) : Reading (Option Document) := do
  let _ ← peek
  match ← root fuel with
  | none => return none
  | some n =>
    let _ ← peek
    return some ⟨n, (← get).anchored, fuel⟩

end Reading

/-- The first document of some bytes, if they hold one. -/
def Document.parse? (data : Bytes) : Except Fault (Option Document) :=
  match readCharacters data with
  | .error cause => .error { cause }
  | .ok t => do
    -- Each character gives rise to at most four tokens, and each step takes one.
    let (d, _) ← (Reading.document (4 * t.length + 16)).run { tokens := .ofText t }
    return d

end ScriptLint.Yaml
