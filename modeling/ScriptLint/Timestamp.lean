import ScriptLint.Text.Utf8

/-!
# Timestamps

A plain scalar that looks like a date becomes a point in time. The fields are kept as written, with
the offset from UTC beside them, since that is how the value is shown again.
-/

namespace ScriptLint

/-- A date and time of day, with an offset from UTC in minutes. -/
structure Timestamp where
  year : Nat
  month : Nat
  day : Nat
  hour : Nat := 0
  minute : Nat := 0
  second : Nat := 0
  nano : Nat := 0
  offset : Int := 0
deriving DecidableEq, Repr

namespace Timestamp

/-! ### Reading -/

/-- The number of days of a month. -/
def daysIn (year month : Nat) : Nat :=
  if month = 2 then
    if year % 4 = 0 ∧ (year % 100 ≠ 0 ∨ year % 400 = 0) then 29 else 28
  else if month = 4 ∨ month = 6 ∨ month = 9 ∨ month = 11 then 30
  else 31

/-- The value of a decimal digit. -/
def digit? (c : Char) : Option Nat := if c.isDigit then some (c.toNat - '0'.toNat) else none

/-- A number of one or two digits. -/
def short? : Text → Option (Nat × Text)
  | [] => none
  | c :: r => do
    let a ← digit? c
    match r with
    | d :: r' => match digit? d with
      | some b => return (a * 10 + b, r')
      | none => return (a, r)
    | [] => return (a, [])

/-- A number of exactly two digits. -/
def two? : Text → Option (Nat × Text)
  | c :: d :: r => do
    let a ← digit? c
    let b ← digit? d
    return (a * 10 + b, r)
  | _ => none

/-- The expected character. -/
def expect? (c : Char) : Text → Option Text
  | d :: r => if d = c then some r else none
  | [] => none

/-- The nanoseconds of a fraction's digits, of which nine count. -/
def nanos (ds : Text) : Nat :=
  let kept := ds.take 9
  (kept.foldl (fun n c => n * 10 + (c.toNat - '0'.toNat)) 0) * Nat.pow 10 (9 - kept.length)

/-- An optional fraction of a second, after a point or a comma. -/
def fraction : Text → Nat × Text
  | c :: d :: r =>
    if (c = '.' ∨ c = ',') ∧ d.isDigit then
      let ds := d :: r.takeWhile Char.isDigit
      (nanos ds, r.dropWhile Char.isDigit)
    else (0, c :: d :: r)
  | t => (0, t)

/-- A four-digit year, and a month and a day of one or two digits. -/
def date? (t : Text) : Option (Timestamp × Text) := do
  let y := t.take 4
  if y.length ≠ 4 ∨ !y.all Char.isDigit then none
  let year := y.foldl (fun n c => n * 10 + (c.toNat - '0'.toNat)) 0
  let t ← expect? '-' (t.drop 4)
  let (month, t) ← short? t
  if month < 1 ∨ 12 < month then none
  let t ← expect? '-' t
  let (day, t) ← short? t
  if day < 1 ∨ daysIn year month < day then none
  return ({ year, month, day }, t)

/-- Hours, minutes and seconds with their fraction. -/
def clock? (s : Timestamp) (t : Text) : Option (Timestamp × Text) := do
  let (hour, t) ← short? t
  if 24 ≤ hour then none
  let t ← expect? ':' t
  let (minute, t) ← short? t
  if 60 ≤ minute then none
  let t ← expect? ':' t
  let (second, t) ← short? t
  if 60 ≤ second then none
  let (nano, t) := fraction t
  return ({ s with hour, minute, second, nano }, t)

/-- A zone: `Z`, or a sign with hours and minutes. -/
def zone? (s : Timestamp) : Text → Option Timestamp
  | ['Z'] => some s
  | c :: t => do
    let negative ← if c = '-' then some true else if c = '+' then some false else none
    let (h, t) ← two? t
    let t ← expect? ':' t
    let (m, t) ← two? t
    if 24 < h ∨ 60 < m ∨ t ≠ [] then none
    let minutes : Int := (h * 60 + m : Nat)
    return { s with offset := if negative then -minutes else minutes }
  | [] => none

/-- A timestamp in one of its four forms: date and zoned time after `T` or `t`, date and time after
spaces with no zone, or a date alone. -/
def parse? (t : Text) : Option Timestamp := do
  let (s, r) ← date? t
  match r with
  | [] => return s
  | c :: r =>
    if c = 'T' ∨ c = 't' then
      let (s, r) ← clock? s r
      zone? s r
    else if c = ' ' then
      let (s, r) ← clock? s (r.dropWhile (· == ' '))
      if r = [] then return s else none
    else none

/-! ### Writing -/

/-- A number with zeros in front up to a width. -/
def padded (width n : Nat) : Text :=
  let ds := Nat.toDigits 10 n
  List.replicate (width - ds.length) '0' ++ ds

/-- The fraction of a second without zeros at its end; nothing for a whole second. -/
def fractionText (nano : Nat) : Text :=
  if nano = 0 then [] else '.' :: ((padded 9 nano).reverse.dropWhile (· == '0')).reverse

/-- The sign, hours and minutes of an offset. -/
def offsetText (separator : Text) (offset : Int) : Text :=
  (if offset < 0 then '-' else '+') :: padded 2 (offset.natAbs / 60) ++ separator
    ++ padded 2 (offset.natAbs % 60)

/-- The date, the time of day and the given character between them. -/
def dateTimeText (between : Char) (s : Timestamp) : Text :=
  padded 4 s.year ++ '-' :: padded 2 s.month ++ '-' :: padded 2 s.day ++ between :: padded 2 s.hour
    ++ ':' :: padded 2 s.minute ++ ':' :: padded 2 s.second ++ fractionText s.nano

/-- The interchange form, `2006-01-02T15:04:05Z`. -/
def interchange (s : Timestamp) : Text :=
  dateTimeText 'T' s ++ if s.offset = 0 then ['Z'] else offsetText [':'] s.offset

/-- The form shown in messages, `2006-01-02 15:04:05 +0000 UTC`. -/
def display (s : Timestamp) : Text :=
  dateTimeText ' ' s ++ ' ' :: offsetText [] s.offset ++ ' ' ::
    if s.offset = 0 then "UTC".toList else offsetText [] s.offset

end Timestamp

end ScriptLint
