import ScriptLint.Text.Quoted

/-!
# Globs: notation

Ignore and override patterns are globs in which a slash is a character like any other: `*` and `**`
stand for any text, `?` for one character, `[abc]`, `[a-c]` and their negations with `!` for one
character of a class, and `{a,b}` for either of two patterns. A backslash makes the next character
literal. A brace that is never closed is closed at the end of the pattern.
-/

namespace ScriptLint.Glob

/-- A part of a glob. -/
inductive Node where
  | text (t : Text)
  /-- One star. -/
  | any
  /-- Two stars, which mean the same. -/
  | super
  | single
  | list (chars : Text) (negated : Bool)
  | range (lo hi : Char) (negated : Bool)
  | nothing
  | anyOf (alternatives : List Node)
  | pattern (parts : List Node)
deriving Inhabited, Repr

/-- Why a glob is refused. -/
inductive Error where
  /-- The pattern is not text. -/
  | badCharacter
  /-- The pattern ends inside brackets. -/
  | unexpectedEnd
  /-- More than one range stands between brackets. -/
  | expectedClose
  /-- Brackets with nothing between them. -/
  | emptyClass
  /-- A range that runs downwards. -/
  | backwardRange (hi lo : Char)
deriving DecidableEq, Repr

/-- The wording of a refused glob. -/
def Error.message : Error → Bytes
  | .badCharacter => bytes "could not read rune"
  | .unexpectedEnd => bytes "unexpected end of input"
  | .expectedClose => bytes "expected close range character"
  | .emptyClass => bytes "could not parse range"
  | .backwardRange hi lo =>
    bytes "hi character '" ++ Utf8.encode [hi] ++ bytes "' should be greater than lo '"
      ++ Utf8.encode [lo] ++ bytes "'"

mutual

/-- Structural equality. -/
def Node.same : Node → Node → Bool
  | .text a, .text b => a == b
  | .any, .any | .super, .super | .single, .single | .nothing, .nothing => true
  | .list a x, .list b y => a == b && x == y
  | .range a b x, .range c d y => a == c && b == d && x == y
  | .anyOf as, .anyOf bs => sameAll as bs
  | .pattern as, .pattern bs => sameAll as bs
  | _, _ => false

/-- Structural equality of lists. -/
def sameAll : List Node → List Node → Bool
  | [], [] => true
  | a :: as, b :: bs => a.same b && sameAll as bs
  | _, _ => false

end

/-! ### Reading -/

/-- The literal text at the front, up to an unescaped character of a class. A backslash at the very
end stands for nothing. -/
def takeText (stops : Char → Bool) : Text → Text × Text
  | [] => ([], [])
  | '\\' :: c :: r =>
    let (t, rest) := takeText stops r
    (c :: t, rest)
  | ['\\'] => ([], [])
  | c :: r =>
    if stops c then ([], c :: r)
    else
      let (t, rest) := takeText stops r
      (c :: t, rest)

/-- The closing bracket of a class. -/
def closeClass : Text → Except Error Text
  | [] => .error .unexpectedEnd
  | c :: r => if c = ']' then .ok r else .error .expectedClose

/-- The inside of brackets after a possible `!`: either one range or a list of characters. -/
def classBody (negated : Bool) : Text → Except Error (Node × Text)
  | [] => .error .unexpectedEnd
  | lo :: '-' :: r =>
    match r with
    | [] => .error .unexpectedEnd
    | hi :: r => do
      let rest ← closeClass r
      if hi < lo then .error (.backwardRange hi lo)
      else if lo.toNat = 0 then .error .emptyClass
      else return (.range lo hi negated, rest)
  | t => do
    let (chars, r) := takeText (· == ']') t
    let rest ← closeClass r
    if chars = [] then .error .emptyClass else return (.list chars negated, rest)

/-- A class, after its opening bracket. -/
def charClass : Text → Except Error (Node × Text)
  | '!' :: r => classBody true r
  | t => classBody false t

/-- Characters that end a literal text: inside braces also the comma and the closing brace. -/
def endsText (inBraces : Bool) (c : Char) : Bool :=
  c == '?' || c == '*' || c == '[' || c == '{' || (inBraces && (c == '}' || c == ','))

/-- A brace that is open: what stands before it and the alternatives already read, both with the
latest first. -/
structure Frame where
  before : List Node
  alternatives : List Node

/-- Closes the innermost brace. -/
def Frame.close (f : Frame) (parts : List Node) : List Node :=
  .anyOf (.pattern parts.reverse :: f.alternatives).reverse :: f.before

/-- Closes all braces that are still open. -/
def closeAll (parts : List Node) : List Frame → List Node
  | [] => parts
  | f :: fs => closeAll (f.close parts) fs

/-- Reads the parts of a glob, with the parts since the innermost open brace, latest first. Each
step consumes a character, so the length of the text is fuel enough. -/
def readParts : (fuel : Nat) → List Node → List Frame → Text → Except Error (List Node)
  | 0, parts, frames, _ => .ok (closeAll parts frames)
  | _, parts, frames, [] => .ok (closeAll parts frames)
  | fuel + 1, parts, frames, c :: r =>
    match c, frames with
    | '{', _ => readParts fuel [] (⟨parts, []⟩ :: frames) r
    | ',', f :: fs =>
      readParts fuel [] ({ f with alternatives := .pattern parts.reverse :: f.alternatives } :: fs) r
    | '}', f :: fs => readParts fuel (f.close parts) fs r
    | '[', _ => do
      let (node, rest) ← charClass r
      readParts fuel (node :: parts) frames rest
    | '?', _ => readParts fuel (.single :: parts) frames r
    | '*', _ =>
      match r with
      | '*' :: r => readParts fuel (.super :: parts) frames r
      | r => readParts fuel (.any :: parts) frames r
    | _, _ =>
      let (t, rest) := takeText (endsText (!frames.isEmpty)) (c :: r)
      readParts fuel (if t = [] then parts else .text t :: parts) frames rest

/-- The characters before the first thing that is no character, and whether there is one. The
replacement character counts as none. -/
def readable (ps : List Utf8.Piece) : Text × Bool :=
  match ps with
  | [] => ([], false)
  | .stray _ :: _ => ([], true)
  | .char c :: ps =>
    if c = '\uFFFD' then ([], true)
    else
      let (t, bad) := readable ps
      (c :: t, bad)

/-- The parts of a glob. -/
def parse (source : Bytes) : Except Error Node := do
  let (t, bad) := readable (Utf8.pieces source)
  let parts ← readParts t.length [] [] t
  if bad then .error .badCharacter else return .pattern parts.reverse

end ScriptLint.Glob
