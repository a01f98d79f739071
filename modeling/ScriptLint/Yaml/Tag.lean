import ScriptLint.Yaml.Fault

/-!
# Tags and values of scalars

A tag says what a scalar means. A plain scalar without one is read as null, a boolean, a number, a
point in time or, when it looks like none of these, a string. An explicit tag of one of these kinds
has to agree with what the text looks like.
-/

namespace ScriptLint.Yaml

namespace Tag

/-! ### Names -/

/-- The long form of the tags that every document knows. -/
def common : Bytes := bytes "tag:yaml.org,2002:"

def null : Bytes := bytes "!!null"
def bool : Bytes := bytes "!!bool"
def str : Bytes := bytes "!!str"
def int : Bytes := bytes "!!int"
def float : Bytes := bytes "!!float"
def timestamp : Bytes := bytes "!!timestamp"
def seq : Bytes := bytes "!!seq"
def map : Bytes := bytes "!!map"
def binary : Bytes := bytes "!!binary"
def merge : Bytes := bytes "!!merge"

/-- A tag with `!!` for the long form that every document knows. -/
def short (tag : Bytes) : Bytes :=
  match common.isPrefixOf? tag with
  | some rest => bytes "!!" ++ rest
  | none => tag

end Tag

/-! ### Integers -/

/-- The value of a digit up to `z`. -/
def digitValue? (c : Char) : Option Nat :=
  if c.isDigit then some (c.toNat - 0x30)
  else if 'a' ≤ c ∧ c ≤ 'z' then some (c.toNat - 0x61 + 10)
  else if 'A' ≤ c ∧ c ≤ 'Z' then some (c.toNat - 0x41 + 10)
  else none

/-- The number of at least one digit of a base. -/
def digits? (base : Nat) (t : Text) : Option Nat :=
  if t.isEmpty then none
  else t.foldl (fun n c => do
    let d ← digitValue? c
    if d < base then return (← n) * base + d else none) (some 0)

/-- The number of digits whose first ones tell the base: `0x`, `0o`, `0b`, or `0` for eight. -/
def natural? (t : Text) : Option Nat :=
  match t with
  | '0' :: x :: r =>
    if x = 'x' ∨ x = 'X' then digits? 16 r
    else if x = 'o' ∨ x = 'O' then digits? 8 r
    else if x = 'b' ∨ x = 'B' then digits? 2 r
    else digits? 8 (x :: r)
  | _ => digits? 10 t

/-- A signed number in the range of 64 bits, its digits read by the given function. -/
def signed64? (read : Text → Option Nat) (t : Text) : Option Int :=
  match t with
  | '-' :: r => do
    let n ← read r
    if n ≤ intLimit then return -(n : Int) else none
  | '+' :: r => within r
  | _ => within t
where
  within (r : Text) : Option Int := do
    let n ← read r
    if n < intLimit then return n else none

/-- An integer of 64 bits, with a sign or, when it has none, up to twice as large. -/
def integer? (read : Text → Option Nat) (t : Text) : Option Int :=
  match signed64? read t with
  | some n => some n
  | none => do
    let n ← read t
    if n < 2 * intLimit then return n else none

/-! ### Decimal fractions -/

/-- A decimal number `digits · 10 ^ exponent`. -/
structure Decimal where
  negative : Bool
  digits : Nat
  exponent : Int

/-- The number that a run of digits stands for. -/
def digitsNat (t : Text) : Nat := t.foldl (fun n c => n * 10 + (c.toNat - 0x30)) 0

/-- An optional exponent, up to the end of the text. Only its order of magnitude counts once it is
far outside the range of any value. -/
def exponent? : Text → Option Int
  | [] => some 0
  | e :: r =>
    if e = 'e' ∨ e = 'E' then
      let (negative, ds) :=
        match r with
        | '-' :: ds => (true, ds)
        | '+' :: ds => (false, ds)
        | _ => (false, r)
      if ds.isEmpty || !ds.all (·.isDigit) then none
      else
        let n := digitsNat ((ds.dropWhile (· == '0')).take 5)
        some (if negative then -(n : Int) else n)
    else none

/-- A decimal number: a sign, digits with a point among them, and an exponent. -/
def decimal? (t : Text) : Option Decimal :=
  let (negative, t) :=
    match t with
    | '-' :: r => (true, r)
    | '+' :: r => (false, r)
    | _ => (false, t)
  let whole := t.takeWhile Char.isDigit
  let t := t.drop whole.length
  let (fraction, t) :=
    match t with
    | '.' :: r => (r.takeWhile Char.isDigit, r.dropWhile Char.isDigit)
    | _ => ([], t)
  if whole.isEmpty && fraction.isEmpty then none
  else do
    let e ← exponent? t
    return ⟨negative, digitsNat (whole ++ fraction), e - fraction.length⟩

/-- The value of a decimal number, unless it is too large. -/
def Decimal.value? (d : Decimal) : Option Binary64 :=
  Binary64.ofDecimal? d.negative d.digits d.exponent

/-- Whether every underscore stands between two digits. -/
def underscoresSeparate : (before : Option Char) → Text → Bool
  | before, [] => before != some '_'
  | before, c :: r =>
    (if c == '_' then before.any (·.isDigit) else before != some '_' || c.isDigit)
      && underscoresSeparate (some c) r

/-! ### Plain scalars -/

/-- Words with a meaning of their own. -/
def word? (t : Text) : Option (Bytes × Value) :=
  let isOne (words : List String) : Bool := words.any (·.toList == t)
  if isOne ["true", "True", "TRUE"] then some (Tag.bool, .bool true)
  else if isOne ["false", "False", "FALSE"] then some (Tag.bool, .bool false)
  else if isOne ["", "~", "null", "Null", "NULL"] then some (Tag.null, .null)
  else if isOne [".nan", ".NaN", ".NAN"] then some (Tag.float, .float .nan)
  else if isOne [".inf", ".Inf", ".INF", "+.inf", "+.Inf", "+.INF"] then
    some (Tag.float, .float (.infinity false))
  else if isOne ["-.inf", "-.Inf", "-.INF"] then some (Tag.float, .float (.infinity true))
  else none

/-- A number written with a sign behind its base mark, such as `0o-7`. -/
def innerSigned? (t : Text) : Option Int :=
  match t with
  | '0' :: 'b' :: r => integer? (digits? 2) r
  | '-' :: '0' :: 'b' :: r => signed64? (digits? 2) ('-' :: r)
  | '0' :: 'o' :: r => integer? (digits? 8) r
  | '-' :: '0' :: 'o' :: r => signed64? (digits? 8) ('-' :: r)
  | _ => none

/-- An integer or a fraction. Underscores do not count. -/
def number? (t : Text) : Option (Bytes × Value) :=
  let plain := t.filter (· != '_')
  match integer? natural? plain with
  | some n => some (Tag.int, .int n)
  | none =>
    match (decimal? plain).bind (·.value?) with
    | some x => some (Tag.float, .float x)
    | none => (innerSigned? plain).map fun n => (Tag.int, .int n)

/-- A fraction that starts with a point. -/
def pointNumber? (t : Text) : Option (Bytes × Value) :=
  if underscoresSeparate none t then do
    let x ← (← decimal? (t.filter (· != '_'))).value?
    return (Tag.float, .float x)
  else none

/-- The tag and the value that a text looks like. A date counts only when asked for. -/
def looksLike (dates : Bool) (t : Text) : Bytes × Value :=
  let string := (Tag.str, Value.text (Utf8.encode t))
  match t with
  | [] => (Tag.null, .null)
  | c :: _ =>
    if c == '.' then ((word? t).orElse fun _ => pointNumber? t).getD string
    else if c == '+' || c == '-' || c.isDigit then
      match word? t with
      | some found => found
      | none =>
        match if dates then Timestamp.parse? t else none with
        | some time => (Tag.timestamp, .time time)
        | none => (number? t).getD string
    else if "yYnNtTfFoO~".toList.contains c then (word? t).getD string
    else string

/-- The tag and the value of a scalar with a tag, which is empty when none is given. A tag of an
unknown kind leaves the text as it is. -/
def resolve (tag : Bytes) (t : Text) : Except Cause (Bytes × Value) :=
  let string := Value.text (Utf8.encode t)
  if tag = Tag.str then .ok (Tag.str, string)
  else if tag = [] then .ok (looksLike true t)
  else if [Tag.bool, Tag.int, Tag.float, Tag.null, Tag.timestamp].contains tag then
    match looksLike (tag == Tag.timestamp) t with
    | (found, value) =>
      if found = tag then .ok (found, value)
      else
        match tag == Tag.float, value with
        | true, .int n =>
          if n ≤ Value.maxInt then .ok (Tag.float, .float (.ofInt n))
          else .error (.cannotDecode found (Utf8.encode t) tag)
        | _, _ => .error (.cannotDecode found (Utf8.encode t) tag)
  else .ok (tag, string)

/-! ### Binary data -/

/-- The six bits of a character of the base 64 alphabet. -/
def base64Value? (c : Char) : Option Nat :=
  if 'A' ≤ c ∧ c ≤ 'Z' then some (c.toNat - 0x41)
  else if 'a' ≤ c ∧ c ≤ 'z' then some (c.toNat - 0x61 + 26)
  else if c.isDigit then some (c.toNat - 0x30 + 52)
  else if c = '+' then some 62
  else if c = '/' then some 63
  else none

/-- The bytes of groups of four characters, the last one padded with `=`. -/
def base64Groups? : Text → Option Bytes
  | [] => some []
  | [a, b, '=', '='] => do
    let n := (← base64Value? a) * 64 + (← base64Value? b)
    return [(n / 16).toUInt8]
  | [a, b, c, '='] => do
    let n := ((← base64Value? a) * 64 + (← base64Value? b)) * 64 + (← base64Value? c)
    return [(n / 1024).toUInt8, (n / 4 % 256).toUInt8]
  | a :: b :: c :: d :: r => do
    let n := (((← base64Value? a) * 64 + (← base64Value? b)) * 64 + (← base64Value? c)) * 64
      + (← base64Value? d)
    let group := [(n / 65536).toUInt8, (n / 256 % 256).toUInt8, (n % 256).toUInt8]
    return group ++ (← base64Groups? r)
  | _ => none

/-- The bytes of base 64 data, in which line breaks do not count. -/
def decodeBase64? (t : Text) : Option Bytes :=
  base64Groups? (t.filter fun c => c != '\n' && c != '\r')

end ScriptLint.Yaml
