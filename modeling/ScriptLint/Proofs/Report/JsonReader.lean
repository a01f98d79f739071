import ScriptLint.Proofs.Number.Digits
import ScriptLint.Script.Encoding
import ScriptLint.Text.Quoted

/-!
# Reading JSON

A reader of JSON documents that knows the whole grammar and nothing of reports, so that what a
report says can be told by what is read from it. It is strict: numbers have no leading zeros,
strings no bare control characters, escaped surrogates come in pairs, and nothing but white space
surrounds a document. `Json.parse?` gives the value of a document.

The reader is built from readers of parts, which return what they read together with the text behind
it. What the parts read is stated for any text behind them: strings (`Json.body?_eq_some`), numbers
(`Json.number?_intText`) and the elements between brackets (`Json.elements?_lines`).
-/

namespace ScriptLint.Json

/-- A JSON value. The members of an object stay in order. -/
inductive Value where
  | null
  | bool (b : Bool)
  /-- The decimal `mantissa · 10 ^ exponent`. -/
  | number (mantissa exponent : Int)
  | string (s : Text)
  | array (values : List Value)
  | object (members : List (Text × Value))

/-! ### The reader -/

/-- White space between tokens. -/
def isSpace (c : Char) : Bool := c == ' ' || c == '\t' || c == '\n' || c == '\r'

/-- The text behind white space. -/
def skip (t : Text) : Text := t.dropWhile isSpace

/-- The value of a hexadecimal digit. -/
def hexValue? (c : Char) : Option Nat :=
  if '0' ≤ c ∧ c ≤ '9' then some (c.toNat - '0'.toNat)
  else if 'a' ≤ c ∧ c ≤ 'f' then some (c.toNat - 'a'.toNat + 10)
  else if 'A' ≤ c ∧ c ≤ 'F' then some (c.toNat - 'A'.toNat + 10)
  else none

/-- A UTF-16 unit of four hexadecimal digits. -/
def unit? : Text → Option (Nat × Text)
  | a :: b :: c :: d :: r => do
    let a ← hexValue? a
    let b ← hexValue? b
    let c ← hexValue? c
    let d ← hexValue? d
    return (((a * 16 + b) * 16 + c) * 16 + d, r)
  | _ => none

/-- The character of an escape, behind its backslash. -/
def escape? : Text → Option (Char × Text)
  | '"' :: r => some ('"', r)
  | '\\' :: r => some ('\\', r)
  | '/' :: r => some ('/', r)
  | 'b' :: r => some ('\x08', r)
  | 'f' :: r => some ('\x0c', r)
  | 'n' :: r => some ('\n', r)
  | 'r' :: r => some ('\r', r)
  | 't' :: r => some ('\t', r)
  | 'u' :: r => do
    let (u, r) ← unit? r
    if Utf16.isHigh u then
      match r with
      | '\\' :: 'u' :: r => do
        let (v, r) ← unit? r
        if Utf16.isLow v then some (Utf16.pair u v, r) else none
      | _ => none
    else if Utf16.isLow u then none
    else some (Char.ofNat u, r)
  | _ => none

/-- A character of a string. -/
def char? : Text → Option (Char × Text)
  | [] => none
  | '\\' :: r => escape? r
  | c :: r => if c.toNat < 0x20 ∨ c = '"' then none else some (c, r)

/-- The characters of a string, behind its opening quotation mark, of which there are at most
`fuel`. -/
def bodyFrom? : (fuel : Nat) → Text → Option (Text × Text)
  | _, '"' :: r => some ([], r)
  | 0, _ => none
  | fuel + 1, t => do
    let (c, r) ← char? t
    let (s, r) ← bodyFrom? fuel r
    return (c :: s, r)

/-- A string, behind its opening quotation mark. -/
def body? (t : Text) : Option (Text × Text) := bodyFrom? t.length t

/-- Decimal digits, at least one. -/
def digits? (t : Text) : Option (Text × Text) :=
  let digits := t.takeWhile Char.isDigit
  if digits.isEmpty then none else some (digits, t.dropWhile Char.isDigit)

/-- The digits behind a decimal point, if there is one. -/
def fraction? : Text → Option (Text × Text)
  | '.' :: r => digits? r
  | t => some ([], t)

/-- The exponent behind a letter `e`, if there is one. -/
def exponent? : Text → Option (Int × Text)
  | [] => some (0, [])
  | e :: r =>
    if e = 'e' ∨ e = 'E' then
      match r with
      | '+' :: r => (digits? r).map fun (d, r) => (Nat.ofDigitChars 10 d 0, r)
      | '-' :: r => (digits? r).map fun (d, r) => (-Nat.ofDigitChars 10 d 0, r)
      | r => (digits? r).map fun (d, r) => (Nat.ofDigitChars 10 d 0, r)
    else some (0, e :: r)

/-- A number without a sign: its digits as a whole, and its exponent. -/
def magnitude? (t : Text) : Option (Nat × Int × Text) := do
  let (whole, r) ← digits? t
  if whole.head? = some '0' ∧ whole ≠ ['0'] then none
  else
    let (part, r) ← fraction? r
    let (e, r) ← exponent? r
    return (Nat.ofDigitChars 10 (whole ++ part) 0, e - part.length, r)

/-- A number. -/
def number? : Text → Option (Value × Text)
  | '-' :: r => (magnitude? r).map fun (m, e, r) => (.number (-m) e, r)
  | t => (magnitude? t).map fun (m, e, r) => (.number m e, r)

/-- Elements with commas between them, up to a closing bracket. There is at least one of them, and
at most `fuel`. -/
def separatedFrom? {α : Type} (element : Text → Option (α × Text)) (close : Char) :
    (fuel : Nat) → Text → Option (List α × Text)
  | 0, _ => none
  | fuel + 1, t => do
    let (a, r) ← element (skip t)
    match skip r with
    | [] => none
    | c :: r =>
      if c = ',' then (separatedFrom? element close fuel r).map fun (as, r) => (a :: as, r)
      else if c = close then some ([a], r)
      else none

/-- Elements with commas between them, behind an opening bracket. -/
def elements? {α : Type} (element : Text → Option (α × Text)) (close : Char) (t : Text) :
    Option (List α × Text) :=
  match skip t with
  | [] => none
  | c :: r => if c = close then some ([], r) else separatedFrom? element close t.length t

/-- A member of an object. -/
def member? (value : Text → Option (Value × Text)) : Text → Option ((Text × Value) × Text)
  | '"' :: r => do
    let (name, r) ← body? r
    match skip r with
    | ':' :: r => (value (skip r)).map fun (v, r) => ((name, v), r)
    | _ => none
  | _ => none

/-- A value, nested less than `depth` deep. -/
def value? : (depth : Nat) → Text → Option (Value × Text)
  | 0, _ => none
  | depth + 1, t =>
    match t with
    | '"' :: r => (body? r).map fun (s, r) => (.string s, r)
    | '[' :: r => (elements? (value? depth) ']' r).map fun (vs, r) => (.array vs, r)
    | '\x7b' :: r =>
      (elements? (member? (value? depth)) '\x7d' r).map fun (ms, r) => (.object ms, r)
    | 'n' :: 'u' :: 'l' :: 'l' :: r => some (.null, r)
    | 't' :: 'r' :: 'u' :: 'e' :: r => some (.bool true, r)
    | 'f' :: 'a' :: 'l' :: 's' :: 'e' :: r => some (.bool false, r)
    | t => number? t

/-- The value of a document: UTF-8 that holds one value between white space. -/
def parse? (document : Bytes) : Option Value := do
  let t ← Utf8.decode? document
  let (v, r) ← value? (t.length + 1) (skip t)
  if (skip r).isEmpty then some v else none

example : parse? (bytes " [-1.50e+2, \"a\\ud83d\\ude00\\/\", \x7b \"\" :null\x7d, [ ], 0]") =
    some (.array [.number (-150) 0, .string "a😀/".toList, .object [([], .null)], .array [],
      .number 0 0]) := by
  cbv

/-! ### Strings -/

theorem hexValue?_hexDigit (n : Nat) : hexValue? (Quoted.hexDigit n) = some (n % 16) := by
  have hdigits : ∀ k < 16, hexValue? ("0123456789abcdef".toList.getD k '0') = some k := by decide
  exact hdigits _ (Nat.mod_lt n (by decide))

/-- A unit is read back from its four digits. -/
theorem unit?_hex {n : Nat} (h : n < 0x10000) (r : Text) :
    unit? (Quoted.hex 4 n ++ r) = some (n, r) := by
  simp only [Quoted.hex, List.nil_append, List.cons_append, unit?, hexValue?_hexDigit,
    Option.bind_eq_bind, Option.bind_some, Option.pure_def, Option.some.injEq, Prod.mk.injEq,
    and_true]
  omega

/-- A character that can be read at the front of a text is the next one of a string. -/
theorem bodyFrom?_succ {t r : Text} {c : Char} (h : char? t = some (c, r)) (fuel : Nat) :
    bodyFrom? (fuel + 1) t = (bodyFrom? fuel r).map fun (s, r) => (c :: s, r) := by
  have hquote (r' : Text) : t ≠ '"' :: r' := by
    rintro rfl
    exact absurd h (by simp [char?])
  rw [bodyFrom?.eq_3 _ _ hquote, h, Option.bind_eq_bind, Option.bind_some]
  cases hr : bodyFrom? fuel r with
  | none => simp [hr]
  | some x => simp [hr]

/-- **A string is read** character by character, whatever each of them is written as. -/
theorem body?_eq_some {α : Type} {text : α → Text} {char : α → Char}
    (h : ∀ a r, char? (text a ++ r) = some (char a, r)) (as : List α) (r : Text) :
    body? (as.flatMap text ++ '"' :: r) = some (as.map char, r) := by
  have hne (a : α) : 0 < (text a).length := by
    refine List.length_pos_iff.mpr fun hnil => ?_
    have hread := h a []
    rw [hnil] at hread
    exact absurd hread (Option.some_ne_none _).symm
  suffices hfrom : ∀ fuel, (as.flatMap text).length ≤ fuel →
      bodyFrom? fuel (as.flatMap text ++ '"' :: r) = some (as.map char, r) from
    hfrom _ (by rw [List.length_append]; exact Nat.le_add_right _ _)
  induction as with
  | nil =>
    intro fuel _
    rw [List.flatMap_nil, List.nil_append, bodyFrom?]
    rfl
  | cons a as ih =>
    intro fuel hfuel
    rw [List.flatMap_cons, List.length_append] at hfuel
    obtain ⟨fuel, rfl⟩ := Nat.exists_eq_add_one_of_ne_zero (n := fuel) (by have := hne a; omega)
    rw [List.flatMap_cons, List.append_assoc, bodyFrom?_succ (h a _),
      ih fuel (by have := hne a; omega)]
    rfl

/-! ### Numbers -/

/-- Whether a number ends in front of a text. -/
def EndsNumber (r : Text) : Prop :=
  ∀ c ∈ r.head?, c.isDigit = false ∧ c ≠ '.' ∧ c ≠ 'e' ∧ c ≠ 'E'

theorem digits?_append {digits r : Text} (hne : digits ≠ []) (h : ∀ c ∈ digits, c.isDigit = true)
    (hr : EndsNumber r) : digits? (digits ++ r) = some (digits, r) := by
  have hstop : r.takeWhile Char.isDigit = [] ∧ r.dropWhile Char.isDigit = r := by
    cases r with
    | nil => exact ⟨rfl, rfl⟩
    | cons c r =>
      have hc := (hr c rfl).1
      exact ⟨List.takeWhile_cons_of_neg (by simp [hc]), List.dropWhile_cons_of_neg (by simp [hc])⟩
  rw [digits?, List.takeWhile_append_of_pos h, List.dropWhile_append_of_pos h, hstop.1, hstop.2,
    List.append_nil, if_neg (by simpa using hne)]

theorem fraction?_eq_some {r : Text} (hr : EndsNumber r) : fraction? r = some ([], r) := by
  unfold fraction?
  split
  · exact absurd rfl (hr '.' rfl).2.1
  · rfl

theorem exponent?_eq_some {r : Text} (hr : EndsNumber r) : exponent? r = some (0, r) := by
  unfold exponent?
  split
  · rfl
  · next e r =>
    obtain ⟨-, -, he, hE⟩ := hr e rfl
    rw [if_neg (by simp [he, hE])]

theorem magnitude?_toDigits (n : Nat) {r : Text} (hr : EndsNumber r) :
    magnitude? (Nat.toDigits 10 n ++ r) = some (n, 0, r) := by
  have hdigits : digits? (Nat.toDigits 10 n ++ r) = some (Nat.toDigits 10 n, r) :=
    digits?_append Nat.toDigits_ne_nil (fun _ => isDigit_of_mem_toDigits) hr
  have hlead : ¬ ((Nat.toDigits 10 n).head? = some '0' ∧ Nat.toDigits 10 n ≠ ['0']) :=
    fun h => h.2 (toDigits_eq_of_head? h.1)
  simp only [magnitude?, hdigits, fraction?_eq_some hr, exponent?_eq_some hr, Option.bind_eq_bind,
    Option.bind_some, if_neg hlead, List.append_nil, Nat.ofDigitChars_ten_toDigits]
  rfl

/-- **An integer is read back from its decimal digits.** -/
theorem number?_intText (n : Int) {r : Text} (hr : EndsNumber r) :
    number? (intText n ++ r) = some (.number n 0, r) := by
  cases n with
  | ofNat n =>
    have hsign (r' : Text) : Nat.toDigits 10 n ++ r ≠ '-' :: r' := by
      intro h
      obtain ⟨c, cs, hcs⟩ := List.exists_cons_of_ne_nil (Nat.toDigits_ne_nil (n := n) (b := 10))
      have hc : c.isDigit = true := isDigit_of_mem_toDigits (hcs ▸ List.mem_cons_self)
      rw [hcs, List.cons_append, List.cons.injEq] at h
      rw [h.1] at hc
      exact absurd hc (by decide)
    rw [intText, number?.eq_2 _ hsign, magnitude?_toDigits n hr]
    rfl
  | negSucc n =>
    rw [intText, List.cons_append, number?, magnitude?_toDigits (n + 1) hr]
    rfl

/-! ### Elements between brackets -/

theorem skip_cons_of_isSpace {c : Char} (h : isSpace c = true) (t : Text) :
    skip (c :: t) = skip t := List.dropWhile_cons_of_pos h

theorem skip_cons {c : Char} (h : isSpace c = false) (t : Text) : skip (c :: t) = c :: t :=
  List.dropWhile_cons_of_neg (by simp [h])

/-- White space in front of elements makes no difference. -/
theorem separatedFrom?_cons_of_isSpace {α : Type} (element : Text → Option (α × Text))
    (close : Char) (fuel : Nat) {c : Char} (h : isSpace c = true) (t : Text) :
    separatedFrom? element close fuel (c :: t) = separatedFrom? element close fuel t := by
  cases fuel with
  | zero => rfl
  | succ fuel => rw [separatedFrom?, separatedFrom?, skip_cons_of_isSpace h]

/-- Elements one on each line, with commas between them. -/
def lines (elements : List Text) : Text := ",\n".toList.intercalate elements

/-- Lines start with their first element. -/
theorem exists_lines_cons (e : Text) (es : List Text) : ∃ r, lines (e :: es) = e ++ r := by
  cases es with
  | nil => exact ⟨[], by rw [lines, List.intercalate_singleton, List.append_nil]⟩
  | cons f es => exact ⟨_, by rw [lines, List.intercalate_cons_cons, List.append_assoc]⟩

theorem length_le_length_lines (elements : List Text) :
    elements.length ≤ (lines elements).length + 1 := by
  induction elements with
  | nil => exact Nat.zero_le _
  | cons e es ih =>
    cases es with
    | nil => exact Nat.le_add_left 1 _
    | cons f es =>
      rw [lines, List.intercalate_cons_cons, List.length_append, List.length_append,
        List.length_cons]
      rw [lines] at ih
      have : ",\n".toList.length = 2 := rfl
      omega

section

variable {α β : Type} {element : Text → Option (β × Text)} {text : α → Text} {value : α → β}
  {close : Char} {last r : Text} {as : List α}

theorem separatedFrom?_lines (hclose : close ≠ ',') (hlast : skip last = close :: r)
    (hne : as ≠ [])
    (h : ∀ a ∈ as, ∀ r, (∃ s, r = ',' :: s ∨ r = '\n' :: s) →
      element (skip (text a ++ r)) = some (value a, r)) {fuel : Nat} (hfuel : as.length ≤ fuel) :
    separatedFrom? element close fuel (lines (as.map text) ++ '\n' :: last)
      = some (as.map value, r) := by
  -- The last element stands in front of a line break, and every other one in front of a comma.
  induction as generalizing fuel with
  | nil => exact absurd rfl hne
  | cons a as ih =>
    obtain ⟨fuel, rfl⟩ := Nat.exists_eq_add_one_of_ne_zero (n := fuel)
      (Nat.ne_of_gt (Nat.lt_of_lt_of_le (Nat.succ_pos _) hfuel))
    cases as with
    | nil =>
      have hread := h a (List.mem_singleton_self a) ('\n' :: last) ⟨last, .inr rfl⟩
      have hskip : skip ('\n' :: last) = close :: r := hlast ▸ skip_cons_of_isSpace (by decide) last
      rw [List.map_singleton, lines, List.intercalate_singleton, separatedFrom?, hread]
      simp [hskip, hclose]
    | cons b as =>
      have hread := h a List.mem_cons_self
        (",\n".toList ++ (lines ((b :: as).map text) ++ '\n' :: last)) ⟨_, .inl rfl⟩
      have hrest := ih (List.cons_ne_nil b as) (fun x hx => h x (List.mem_cons_of_mem a hx))
        (Nat.le_of_succ_le_succ hfuel)
      have hskip (t : Text) : skip (",\n".toList ++ t) = ',' :: '\n' :: t :=
        skip_cons (by decide) ('\n' :: t)
      have hsplit : lines ((a :: b :: as).map text) ++ '\n' :: last
          = text a ++ (",\n".toList ++ (lines ((b :: as).map text) ++ '\n' :: last)) := by
        rw [lines, List.map_cons, List.map_cons, List.intercalate_cons_cons, List.append_assoc,
          List.append_assoc]
        rfl
      rw [hsplit, separatedFrom?, hread, Option.bind_eq_bind, Option.bind_some]
      simp only [hskip, if_pos]
      rw [separatedFrom?_cons_of_isSpace _ _ _ (by decide), hrest]
      rfl

/-- **Elements on lines of their own are read**, if each is read in front of a comma and in front of
a line break, and none looks like the end. -/
theorem elements?_lines (hclose : close ≠ ',') (hlast : skip last = close :: r) (hne : as ≠ [])
    (h : ∀ a ∈ as, ∀ r, (∃ s, r = ',' :: s ∨ r = '\n' :: s) →
      element (skip (text a ++ r)) = some (value a, r))
    (hstart : ∀ a ∈ as, ∀ r, ∃ c s, c ≠ close ∧ skip (text a ++ r) = c :: s) :
    elements? element close ('\n' :: (lines (as.map text) ++ '\n' :: last))
      = some (as.map value, r) := by
  obtain ⟨c, s, hc, hskip⟩ :
      ∃ c s, c ≠ close ∧ skip (lines (as.map text) ++ '\n' :: last) = c :: s := by
    cases as with
    | nil => exact absurd rfl hne
    | cons a as =>
      obtain ⟨rest, hrest⟩ := exists_lines_cons (text a) (as.map text)
      rw [List.map_cons, hrest, List.append_assoc]
      exact hstart a List.mem_cons_self _
  have hspace : skip ('\n' :: (lines (as.map text) ++ '\n' :: last)) = c :: s :=
    hskip ▸ skip_cons_of_isSpace (by decide) _
  have hlength := length_le_length_lines (as.map text)
  rw [List.length_map] at hlength
  rw [elements?, hspace]
  simp only [if_neg hc]
  rw [separatedFrom?_cons_of_isSpace _ _ _ (by decide)]
  refine separatedFrom?_lines hclose hlast hne h ?_
  rw [List.length_cons, List.length_append]
  omega

end

end ScriptLint.Json
