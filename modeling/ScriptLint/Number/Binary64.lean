import ScriptLint.Text.Utf8

/-!
# Binary floating point in exact arithmetic

A setting may be a number with a fraction. It is held as the binary64 value that its decimal text
rounds to, and shown by the fewest digits that read back as the same value. Both directions are
computed in exact natural-number arithmetic, so nothing here depends on the machine's floats.
-/

namespace ScriptLint

/-- A binary64 value. A finite one is `± mant · 2 ^ exp` with `mant < 2 ^ 53`, `-1074 ≤ exp`, and
`2 ^ 52 ≤ mant` unless `exp = -1074`. -/
inductive Binary64 where
  | nan
  | infinity (negative : Bool)
  | finite (negative : Bool) (mant : Nat) (exp : Int)
deriving DecidableEq, Repr

/-- One more than the greatest integer of 64 bits with a sign. -/
def intLimit : Nat := 0x8000000000000000

namespace Binary64

/-! ### Rounding a fraction -/

/-- The least significand of full precision, `2 ^ 52`. -/
def fullMant : Nat := 0x10000000000000

/-- The two factors that bring `a · 2 ^ e` and `b` to a common scale. -/
def powers (base : Nat) (e : Int) : Nat × Nat :=
  match e with
  | .ofNat n => (Nat.pow base n, 1)
  | .negSucc n => (1, Nat.pow base (n + 1))

/-- The quotient rounded to the nearest natural number, a tie to the even one. -/
def roundDiv (num den : Nat) : Nat :=
  let q := num / den
  let r := num % den
  if 2 * r < den then q
  else if 2 * r = den ∧ q % 2 = 0 then q
  else q + 1

/-- The value nearest to `num / den`, or nothing when it is too large to be finite. -/
def ofFraction? (negative : Bool) (num den : Nat) : Option Binary64 :=
  if num = 0 ∨ den = 0 then some (.finite negative 0 (-1074))
  else
    let guess : Int := (num.log2 : Int) - (den.log2 : Int) - 52
    let scaled (e : Int) : Nat × Nat :=
      let p := powers 2 e
      (num * p.2, den * p.1)
    -- The guess leaves a quotient between `2 ^ 51` and `2 ^ 53`.
    let e₁ := if (scaled guess).1 / (scaled guess).2 < fullMant then guess - 1 else guess
    let e₂ := max e₁ (-1074)
    let m := roundDiv (scaled e₂).1 (scaled e₂).2
    let (m, e₃) := if m = 2 * fullMant then (fullMant, e₂ + 1) else (m, e₂)
    if 971 < e₃ then none else some (.finite negative m e₃)

/-- The value nearest to `digits · 10 ^ e`. Exponents far outside the range of the format are
settled without computing their power. -/
def ofDecimal? (negative : Bool) (digits : Nat) (e : Int) : Option Binary64 :=
  let size : Int := (Nat.toDigits 10 digits).length + e
  if digits = 0 ∨ size < -400 then some (.finite negative 0 (-1074))
  else if 400 < size then none
  else
    let p := powers 10 e
    ofFraction? negative (digits * p.1) p.2

/-- The value of an integer, which the nearest even value stands in for beyond 53 bits. -/
def ofInt (n : Int) : Binary64 :=
  (ofFraction? (n < 0) n.natAbs 1).getD (.infinity (n < 0))

/-! ### The fewest digits that read back -/

/-- Decimal digits `d₁ d₂ … dₙ` and the exponent `p` of the value `d₁.d₂ … dₙ · 10 ^ p`. -/
structure Digits where
  digits : Text
  exponent : Int
deriving DecidableEq, Repr

/-- The decimal exponent of `mant · 2 ^ exp`: the `p` with `10 ^ p ≤ value < 10 ^ (p + 1)`. -/
def decimalExponent (mant : Nat) (exp : Int) : Int :=
  let atLeast (p : Int) : Bool :=
    let b := powers 2 exp
    let d := powers 10 p
    d.1 * b.2 ≤ mant * b.1 * d.2
  let guess := Int.fdiv (((mant.log2 : Int) + exp) * 30103) 100000
  if atLeast (guess + 1) then guess + 1
  else if atLeast guess then guess
  else guess - 1

/-- The decimal with `n` digits that lies nearest to a positive value, among those that round back
to the value. -/
def nearest? (m : Nat) (exp p : Int) (n : Nat) : Option Digits :=
  -- Quarter units in the last place: the neighbours' midpoints are then whole numbers.
  let low := if m = fullMant ∧ -1074 < exp then 4 * m - 1 else 4 * m - 2
  let high := 4 * m + 2
  let b := powers 2 (exp - 2)
  let k := p - (n - 1)
  let d := powers 10 k
  -- `c · 10 ^ k` against `x` quarter units: compare `c * cs` with `x * xs`.
  let cs := d.1 * b.2
  let xs := b.1 * d.2
  let inside (c : Nat) : Bool :=
    if m % 2 = 0 then low * xs ≤ c * cs && c * cs ≤ high * xs
    else low * xs < c * cs && c * cs < high * xs
  let below := 4 * m * xs / cs
  let above := below + 1
  let pick : Option Nat :=
    match inside below, inside above with
    | true, true =>
      if 4 * m * xs - below * cs ≤ above * cs - 4 * m * xs then some below else some above
    | true, false => some below
    | false, true => some above
    | false, false => none
  pick.map fun c =>
    let t := Nat.toDigits 10 c
    -- Rounding up to a power of ten adds a digit.
    if n < t.length then ⟨t.take n, p + 1⟩ else ⟨t, p⟩

/-- The fewest digits that read back as a positive finite value. Seventeen always do. -/
def shortest (mant : Nat) (exp : Int) : Digits :=
  let p := decimalExponent mant exp
  ((List.range 17).findSome? fun i => nearest? mant exp p (i + 1)).getD ⟨['0'], 0⟩

/-! ### Text -/

/-- Zeros to write before or after digits. -/
def zeros (n : Nat) : Text := List.replicate n '0'

/-- Digits without the zeros at their end, keeping at least one. -/
def dropTrailingZeros (ds : Text) : Text :=
  match (ds.reverse.dropWhile (· == '0')).reverse with
  | [] => ['0']
  | ds => ds

/-- Digits with their exponent: positional from `1e-4` up to below `1e6`, and otherwise with an
exponent of at least two digits. -/
def Digits.render (d : Digits) : Text :=
  let ds := dropTrailingZeros d.digits
  let p := d.exponent
  if -4 ≤ p ∧ p < 6 then
    match p with
    | .negSucc n => "0.".toList ++ zeros n ++ ds
    | .ofNat n =>
      if ds.length ≤ n + 1 then ds ++ zeros (n + 1 - ds.length)
      else ds.take (n + 1) ++ '.' :: ds.drop (n + 1)
  else
    let mantissa := match ds with
      | [] => []
      | [x] => [x]
      | x :: xs => x :: '.' :: xs
    let magnitude := Nat.toDigits 10 p.natAbs
    let magnitude := if magnitude.length < 2 then '0' :: magnitude else magnitude
    mantissa ++ 'e' :: (if p < 0 then '-' else '+') :: magnitude

/-- The text of a value. Zero keeps its sign. -/
def render : Binary64 → Text
  | .nan => "NaN".toList
  | .infinity negative => (if negative then "-Inf" else "+Inf").toList
  | .finite negative mant exp =>
    let digits := if mant = 0 then ['0'] else (shortest mant exp).render
    if negative then '-' :: digits else digits

/-- The value without its fraction, for a finite value inside the 64-bit range. Every other value
below the upper end of the range stands for the least 64-bit integer, and those above it or not a
number for none. -/
def truncate? : Binary64 → Option Int
  | .nan => none
  | .infinity negative => if negative then some (-intLimit) else none
  | .finite negative mant exp =>
    let p := powers 2 exp
    let n := mant * p.1 / p.2
    if negative then
      some (if n ≤ intLimit then -(n : Int) else -intLimit)
    else if n < intLimit then some n
    else if mant * p.1 = intLimit * p.2 then some (-intLimit)
    else none

/-- Numeric order and equality of two values; anything but a number is in no order. -/
def compare? (a b : Binary64) : Option Ordering :=
  let sign (negative : Bool) (o : Ordering) := if negative then o.swap else o
  match a, b with
  | .nan, _ | _, .nan => none
  | .infinity n, .infinity m => some (if n = m then .eq else if n then .lt else .gt)
  | .infinity n, .finite .. => some (if n then .lt else .gt)
  | .finite .., .infinity m => some (if m then .gt else .lt)
  | .finite n x e, .finite m y f =>
    let p := powers 2 e
    let q := powers 2 f
    let u := x * p.1 * q.2
    let v := y * q.1 * p.2
    if u = 0 ∧ v = 0 then some .eq
    else if n = m then some (sign n (compare u v))
    else some (if u = 0 then (if m then .gt else .lt) else if n then .lt else .gt)

end Binary64

end ScriptLint
