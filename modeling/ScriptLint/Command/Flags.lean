import ScriptLint.Text.Quoted
import ScriptLint.Yaml.Tag

/-!
# Flags

Arguments are flags, in a long and a short spelling, with their values, and other words between
them. Reading them gives the values in order, or stops at the first one that is not understood. A
request for help that no flag answers stops the reading too.
-/

namespace ScriptLint

/-- What values a flag takes. -/
inductive FlagKind where
  | text
  /-- A text that may be given several times. -/
  | texts
  | int
  /-- A switch, which is turned on when no value is attached. -/
  | switch
deriving DecidableEq, Repr

/-- A flag: its long name, its letter, its values, what it is for, and its value when it is not
given. -/
structure Flag where
  name : Bytes
  letter : Option UInt8 := none
  kind : FlagKind
  purpose : Bytes
  initial : Bytes := []
deriving DecidableEq, Repr

/-- Arguments that are read: the values of flags in order, and the other words. -/
structure Parsed where
  values : List (Bytes × Bytes) := []
  words : List Bytes := []
deriving DecidableEq, Repr

/-- Why reading stops. -/
inductive FlagStop where
  | help
  | invalid
deriving DecidableEq, Repr

namespace Flag

/-! ### Values -/

/-- Whether every underscore stands between two digits, a base mark counting as one. -/
def underscoresFit (isDigit : Char → Bool) : (afterDigit afterUnderscore : Bool) → Text → Bool
  | _, afterUnderscore, [] => !afterUnderscore
  | afterDigit, afterUnderscore, c :: r =>
    if c == '_' then afterDigit && underscoresFit isDigit false true r
    else if isDigit c then underscoresFit isDigit true false r
    else !afterUnderscore && underscoresFit isDigit false false r

/-- Whether the underscores of a number stand where they may. -/
def underscoresAllowed (t : Text) : Bool :=
  let unsigned :=
    match t with
    | '-' :: r | '+' :: r => r
    | _ => t
  match unsigned with
  | '0' :: x :: r =>
    if x == 'x' || x == 'X' then
      underscoresFit (fun c => (Yaml.digitValue? c).any (· < 16)) true false r
    else if x == 'o' || x == 'O' || x == 'b' || x == 'B' then
      underscoresFit Char.isDigit true false r
    else underscoresFit Char.isDigit false false unsigned
  | _ => underscoresFit Char.isDigit false false unsigned

/-- An integer of 64 bits, in decimal or with a base mark, with underscores between digits. -/
def int? (value : Bytes) : Option Int := do
  let t ← Utf8.decode? value
  if underscoresAllowed t then
    Yaml.signed64? Yaml.natural? (t.filter (· != '_'))
  else none

/-- A truth value in one of its spellings. -/
def bool? (value : Bytes) : Option Bool :=
  let isOne (words : List String) : Bool := words.any (bytes · == value)
  if isOne ["1", "t", "T", "TRUE", "true", "True"] then some true
  else if isOne ["0", "f", "F", "FALSE", "false", "False"] then some false
  else none

/-- Whether a flag takes a value. -/
def admits (f : Flag) (value : Bytes) : Bool :=
  match f.kind with
  | .text | .texts => true
  | .int => (int? value).isSome
  | .switch => (bool? value).isSome

/-- The value of a switch that is only named. -/
def on : Bytes := bytes "true"

/-! ### Reading -/

/-- Adds the value of a flag. -/
def assign (f : Flag) (value : Bytes) (p : Parsed) : Except FlagStop Parsed :=
  if f.admits value then .ok { p with values := p.values ++ [(f.name, value)] }
  else .error .invalid

/-- The part of a byte string before the first equals sign, and what follows it if there is one. -/
def splitEquals (s : Bytes) : Bytes × Option Bytes :=
  let name := s.takeWhile (· != 0x3D)
  match s.drop name.length with
  | [] => (name, none)
  | _ :: value => (name, some value)

/-- Reads a flag in its long spelling, without its dashes; the value may be the next argument. The
result tells whether it was. -/
def readLong (flags : List Flag) (body : Bytes) (next : Option Bytes) (p : Parsed) :
    Except FlagStop (Parsed × Bool) :=
  match body with
  | [] => .error .invalid
  | b :: _ =>
    if b = 0x2D ∨ b = 0x3D then .error .invalid
    else
      let (name, attached) := splitEquals body
      match flags.find? (·.name == name) with
      | none => .error (if name = bytes "help" then .help else .invalid)
      | some f =>
        match attached, f.kind, next with
        | some value, _, _ => do return (← f.assign value p, false)
        | none, .switch, _ => do return (← f.assign on p, false)
        | none, _, some value => do return (← f.assign value p, true)
        | none, _, none => .error .invalid

/-- The start of flags that belong to a test runner and are passed over. -/
def testMark : Bytes := bytes "test."

/-- Reads flags in their short spelling, several letters behind one dash; the value of the last one
may be the next argument. -/
def readLetters (flags : List Flag) (next : Option Bytes) :
    Bytes → Parsed → Except FlagStop (Parsed × Bool)
  | [], p => .ok (p, false)
  | c :: r, p =>
    if testMark.isPrefixOf (c :: r) then .ok (p, false)
    else
      match flags.find? (·.letter == some c) with
      | none => .error (if c = 0x68 then .help else .invalid)
      | some f =>
        match r, f.kind, next with
        | e :: v :: vs, kind, _ =>
          if e = 0x3D then do return (← f.assign (v :: vs) p, false)
          else if kind = .switch then do readLetters flags next (e :: v :: vs) (← f.assign on p)
          else do return (← f.assign (e :: v :: vs) p, false)
        | r, .switch, _ => do readLetters flags next r (← f.assign on p)
        | [], _, some value => do return (← f.assign value p, true)
        | [], _, none => .error .invalid
        | r, _, _ => do return (← f.assign r p, false)

/-- Reads arguments. Two dashes alone end the flags, and one dash alone is a word. -/
def parseFrom (flags : List Flag) : List Bytes → Parsed → Except FlagStop Parsed
  | [], p => .ok p
  | a :: rest, p =>
    match a with
    | 0x2D :: 0x2D :: [] => .ok { p with words := p.words ++ rest }
    | 0x2D :: 0x2D :: body => do
      let (p, usedNext) ← readLong flags body rest.head? p
      match usedNext, rest with
      | true, _ :: rest => parseFrom flags rest p
      | _, rest => parseFrom flags rest p
    | 0x2D :: c :: letters => do
      let (p, usedNext) ← readLetters flags rest.head? (c :: letters) p
      match usedNext, rest with
      | true, _ :: rest => parseFrom flags rest p
      | _, rest => parseFrom flags rest p
    | word => parseFrom flags rest { p with words := p.words ++ [word] }

/-- Reads arguments. -/
def parse (flags : List Flag) (arguments : List Bytes) : Except FlagStop Parsed :=
  parseFrom flags arguments {}

/-! ### Help -/

/-- The word for the values of a flag. -/
def kindWord (f : Flag) : Bytes :=
  match f.kind with
  | .text => bytes " string"
  | .texts => bytes " stringArray"
  | .int => bytes " int"
  | .switch => []

/-- The spellings of a flag and the word for its values. -/
def spelling (f : Flag) : Bytes :=
  let lead :=
    match f.letter with
    | some c => bytes "  -" ++ [c] ++ bytes ", --"
    | none => bytes "      --"
  lead ++ f.name ++ f.kindWord

/-- The lines about some flags, in byte order of their names and in two columns. -/
def describe (flags : List Flag) : Bytes :=
  let sorted := flags.mergeSort fun a b => !bytesLt b.name a.name
  let width := (sorted.map (·.spelling.length)).foldl max 0
  sorted.flatMap fun f =>
    let usual :=
      if f.initial = [] then [] else bytes " (default " ++ Quoted.quote f.initial ++ bytes ")"
    f.spelling ++ List.replicate (width - f.spelling.length + 3) 0x20 ++ f.purpose ++ usual
      ++ bytes "\n"

end Flag

namespace Parsed

/-- The last value of a flag. -/
def last? (p : Parsed) (name : String) : Option Bytes :=
  (p.values.filter (·.1 == bytes name)).getLast?.map (·.2)

/-- All values of a flag. -/
def all (p : Parsed) (name : String) : List Bytes :=
  (p.values.filter (·.1 == bytes name)).map (·.2)

/-- Whether a switch is on. -/
def isOn (p : Parsed) (name : String) : Bool := ((p.last? name).bind Flag.bool?).getD false

/-- The value of a flag that takes a number. -/
def number (p : Parsed) (name : String) : Int := ((p.last? name).bind Flag.int?).getD 0

/-- The value of a flag that takes a text. -/
def text (p : Parsed) (name : String) : Bytes := (p.last? name).getD []

end Parsed

end ScriptLint
