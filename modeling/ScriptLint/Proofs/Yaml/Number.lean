import ScriptLint.Proofs.Number.Digits
import ScriptLint.Yaml.Tag

/-!
# Numbers as plain scalars

A number is written with decimal digits, a fraction and an exponent, of which the last two may be
missing (`Yaml.NumberText`). Such a text looks like no word and no date. It is read as an integer if
it is one of 64 bits (`Yaml.looksLike_intText`), and with a fraction or an exponent as the decimal
that it is (`Yaml.NumberText.looksLike_decimal`).
-/

namespace ScriptLint.Yaml

/-! ### Digits -/

theorem digitsNat_eq (t : Text) : digitsNat t = Nat.ofDigitChars 10 t 0 := by
  rw [Nat.ofDigitChars_eq_foldl, digitsNat]
  simp only [Nat.mul_comm]
  rfl

theorem isDigit_bounds {c : Char} (h : c.isDigit = true) : 48 ≤ c.toNat ∧ c.toNat ≤ 57 := by
  rw [Char.isDigit, Bool.and_eq_true, decide_eq_true_eq, decide_eq_true_eq] at h
  exact h

theorem digits?_eq_some {t : Text} (hne : t ≠ []) (h : ∀ c ∈ t, c.isDigit = true) :
    digits? 10 t = some (digitsNat t) := by
  rw [digits?, if_neg (by simpa using hne), digitsNat]
  clear hne
  generalize 0 = n
  induction t generalizing n with
  | nil => rfl
  | cons c t ih =>
    rw [List.forall_mem_cons] at h
    have hbounds := isDigit_bounds h.1
    have hvalue : digitValue? c = some (c.toNat - 0x30) := by rw [digitValue?, if_pos h.1]
    rw [List.foldl_cons, List.foldl_cons, ← ih h.2]
    congr 1
    simp only [hvalue, Option.bind_eq_bind, Option.bind_some]
    rw [if_pos (by omega)]
    rfl

/-- A character that is no digit of the base refuses a text. -/
theorem digits?_eq_none {base : ℕ} {t : Text} {c : Char} (hc : c ∈ t)
    (h : ∀ d ∈ digitValue? c, base ≤ d) : digits? base t = none := by
  have hnone : ∀ t : Text, t.foldl (fun n c => do
      let d ← digitValue? c
      if d < base then return (← n) * base + d else none) (none : Option ℕ) = none := by
    intro t
    induction t with
    | nil => rfl
    | cons c t ih =>
      rw [List.foldl_cons]
      cases hd : digitValue? c with
      | none => exact ih
      | some d =>
        simp only [Option.bind_eq_bind, Option.bind_some]
        split_ifs
        · exact ih
        · exact ih
  obtain ⟨before, behind, rfl⟩ := List.append_of_mem hc
  rw [digits?, if_neg (by simp), List.foldl_append, List.foldl_cons]
  cases hd : digitValue? c with
  | none => exact hnone behind
  | some d =>
    simp only [Option.bind_eq_bind, Option.bind_some, if_neg (Nat.not_lt.mpr (h d hd))]
    exact hnone behind

/-! ### Integers -/

theorem natural?_toDigits (n : ℕ) : natural? (Nat.toDigits 10 n) = some n := by
  have hread : digits? 10 (Nat.toDigits 10 n) = some n := by
    rw [digits?_eq_some Nat.toDigits_ne_nil fun _ => isDigit_of_mem_toDigits, digitsNat_eq,
      Nat.ofDigitChars_ten_toDigits]
  rw [natural?.eq_2 _ fun x r h => ?_, hread]
  -- No digit follows a leading zero.
  have hzero := toDigits_eq_of_head? (n := n) (by rw [h]; rfl)
  rw [h] at hzero
  exact absurd hzero (by simp)

/-- Whether a text holds a point or an exponent and no letter that tells a base. -/
structure IsMarked (t : Text) : Prop where
  mark : '.' ∈ t ∨ 'e' ∈ t
  noBase : ∀ c ∈ "xXoObB".toList, c ∉ t

theorem IsMarked.digits?_eq_none {t : Text} (h : '.' ∈ t ∨ 'e' ∈ t) {base : ℕ} (hbase : base ≤ 14) :
    digits? base t = none := by
  rcases h with h | h
  · refine Yaml.digits?_eq_none h fun d hd => absurd hd ?_
    rw [show digitValue? '.' = none from rfl]
    simp
  · refine Yaml.digits?_eq_none h fun d hd => ?_
    obtain rfl : 14 = d := Option.mem_some.mp hd
    exact hbase

/-- A text with a point or an exponent is no natural number. -/
theorem IsMarked.natural?_eq_none {t : Text} (h : IsMarked t) : natural? t = none := by
  obtain ⟨hmark, hbase⟩ := h
  simp only [String.reduceToList, List.forall_mem_cons] at hbase
  obtain ⟨hx, hX, ho, hO, hb, hB, -⟩ := hbase
  unfold natural?
  split
  · next x r =>
    have hmem {c : Char} (hc : c ∉ '0' :: x :: r) : x ≠ c := by
      rintro rfl
      exact hc (by simp)
    rw [if_neg (by simp [hmem hx, hmem hX]), if_neg (by simp [hmem ho, hmem hO]),
      if_neg (by simp [hmem hb, hmem hB])]
    exact digits?_eq_none (by simpa using hmark) (by decide)
  · exact digits?_eq_none hmark (by decide)

theorem IsMarked.integer?_eq_none {t : Text} (h : IsMarked t) : integer? natural? t = none := by
  have htail {c : Char} {r : Text} (ht : t = c :: r) (hc : c ≠ '.' ∧ c ≠ 'e') :
      natural? r = none := by
    subst ht
    refine IsMarked.natural?_eq_none ⟨?_, fun x hx hr => h.noBase x hx (List.mem_cons_of_mem _ hr)⟩
    simpa [hc.1.symm, hc.2.symm] using h.mark
  have hsigned : signed64? natural? t = none := by
    unfold signed64?
    split
    · next r => simp [htail rfl (by decide)]
    · next r => simp [signed64?.within, htail rfl (by decide)]
    · simp [signed64?.within, h.natural?_eq_none]
  rw [integer?, hsigned]
  simp [h.natural?_eq_none]

/-- **An integer of 64 bits is read back from its digits**, with a sign or without one. -/
theorem integer?_intText {n : ℤ} (hlow : -(intLimit : ℤ) ≤ n) (hhigh : n < 2 * intLimit) :
    integer? natural? (intText n) = some n := by
  cases n with
  | ofNat n =>
    have hsigned : signed64? natural? (Nat.toDigits 10 n)
        = signed64?.within natural? (Nat.toDigits 10 n) := by
      have hhead {c : Char} {r : Text} (h : Nat.toDigits 10 n = c :: r) : c.isDigit = true :=
        isDigit_of_mem_toDigits (n := n) (h ▸ List.mem_cons_self)
      unfold signed64?
      split
      · next h => exact absurd (hhead h) (by decide)
      · next h => exact absurd (hhead h) (by decide)
      · rfl
    rw [intText, integer?, hsigned, signed64?.within, natural?_toDigits]
    simp only [Option.bind_eq_bind, Option.bind_some]
    by_cases hn : n < intLimit
    · rw [if_pos hn]
      rfl
    · rw [if_neg hn]
      have : n < 2 * intLimit := by
        rw [Int.ofNat_eq_natCast] at hhigh
        exact_mod_cast hhigh
      simp only
      rw [if_pos this]
      rfl
  | negSucc n =>
    have hn : n + 1 ≤ intLimit := by
      rw [Int.negSucc_eq] at hlow
      omega
    rw [intText, integer?, signed64?, natural?_toDigits]
    simp only [Option.bind_eq_bind, Option.bind_some, if_pos hn]
    rfl

/-! ### The text of a number -/

/-- The parts of a number without its sign: digits, the digits behind a point, and an exponent with
its letter. -/
structure NumberText where
  whole : Text
  fraction : Text := []
  exponent : Text := []

namespace NumberText

/-- The text of a number without its sign. There is a point only in front of digits. -/
def text (p : NumberText) : Text :=
  p.whole ++ ((if p.fraction = [] then [] else '.' :: p.fraction) ++ p.exponent)

/-- The text of a number. -/
def signed (p : NumberText) (negative : Bool) : Text :=
  if negative then '-' :: p.text else p.text

/-- Whether the parts are those of a number. -/
structure IsNumber (p : NumberText) : Prop where
  whole_ne : p.whole ≠ []
  whole : ∀ c ∈ p.whole, c.isDigit = true
  fraction : ∀ c ∈ p.fraction, c.isDigit = true
  exponent : p.exponent = [] ∨ ∃ sign ds, (sign = '+' ∨ sign = '-') ∧
    (∀ c ∈ ds, c.isDigit = true) ∧ p.exponent = 'e' :: sign :: ds

variable {p : NumberText}

/-- What stands behind the first digits starts with no digit and no sign. -/
theorem IsNumber.rest_cases (hp : p.IsNumber) :
    (if p.fraction = [] then [] else '.' :: p.fraction) ++ p.exponent = [] ∨
      ∃ c r, (c = '.' ∨ c = 'e') ∧
        (if p.fraction = [] then [] else '.' :: p.fraction) ++ p.exponent = c :: r := by
  split_ifs
  · rcases hp.exponent with h | ⟨sign, ds, -, -, h⟩
    · exact .inl h
    · exact .inr ⟨'e', _, .inr rfl, h⟩
  · exact .inr ⟨'.', _, .inl rfl, rfl⟩

theorem IsNumber.mem_signed (hp : p.IsNumber) {negative : Bool} {c : Char}
    (h : c ∈ p.signed negative) : c.isDigit = true ∨ c ∈ ".e+-".toList := by
  have htext : c ∈ p.text → c.isDigit = true ∨ c ∈ ".e+-".toList := by
    intro h
    rcases List.mem_append.mp h with h | h
    · exact .inl (hp.whole c h)
    rcases List.mem_append.mp h with h | h
    · split_ifs at h
      · exact absurd h List.not_mem_nil
      · rcases List.mem_cons.mp h with rfl | h
        · exact .inr (by decide)
        · exact .inl (hp.fraction c h)
    · rcases hp.exponent with he | ⟨sign, ds, hsign, hds, he⟩
      · rw [he] at h
        exact absurd h List.not_mem_nil
      · rw [he] at h
        rcases List.mem_cons.mp h with rfl | h
        · exact .inr (by decide)
        rcases List.mem_cons.mp h with rfl | h
        · rcases hsign with rfl | rfl
          · exact .inr (by decide)
          · exact .inr (by decide)
        · exact .inl (hds c h)
  cases negative with
  | false => exact htext h
  | true =>
    rcases List.mem_cons.mp h with rfl | h
    · exact .inr (by decide)
    · exact htext h

/-- A number starts with a digit, or with a digit behind a sign. -/
def startsNumber : Text → Bool
  | c :: d :: _ => c.isDigit || c == '-' && d.isDigit
  | [c] => c.isDigit
  | [] => false

theorem IsNumber.startsNumber (hp : p.IsNumber) (negative : Bool) :
    startsNumber (p.signed negative) = true := by
  obtain ⟨c, r, hc⟩ := List.exists_cons_of_ne_nil hp.whole_ne
  have hdigit : c.isDigit = true := hp.whole c (hc ▸ List.mem_cons_self)
  cases negative with
  | false =>
    rw [signed, if_neg Bool.false_ne_true, text, hc, List.cons_append]
    cases r ++ _ with
    | nil => exact hdigit
    | cons d r => rw [NumberText.startsNumber, hdigit, Bool.true_or]
  | true =>
    rw [signed, if_pos rfl, text, hc, List.cons_append, NumberText.startsNumber, hdigit]
    rfl

/-- No word starts like a number. -/
theorem word?_eq_none {t : Text} (h : startsNumber t = true) : word? t = none := by
  have hne {words : List String} (hwords : ∀ w ∈ words, startsNumber w.toList = false) :
      words.any (·.toList == t) = false := by
    rw [List.any_eq_false]
    intro w hw heq
    rw [beq_iff_eq] at heq
    have := hwords w hw
    rw [heq, h] at this
    exact absurd this (by decide)
  unfold word?
  simp only
  rw [if_neg (by rw [hne (by decide)]; decide), if_neg (by rw [hne (by decide)]; decide),
    if_neg (by rw [hne (by decide)]; decide), if_neg (by rw [hne (by decide)]; decide),
    if_neg (by rw [hne (by decide)]; decide), if_neg (by rw [hne (by decide)]; decide)]

/-- A number is no date: no dash stands behind its first digits. -/
theorem IsNumber.parse?_eq_none (hp : p.IsNumber) (negative : Bool) :
    Timestamp.parse? (p.signed negative) = none := by
  suffices hdate : Timestamp.date? (p.signed negative) = none by
    rw [Timestamp.parse?, hdate]
    rfl
  -- A year has four digits: what is no digit among the first four characters rules a date out.
  have hyear {t : Text} {c : Char} (hc : c ∈ t.take 4) (hdigit : c.isDigit = false) :
      Timestamp.date? t = none := by
    have hall : (t.take 4).all Char.isDigit = false :=
      List.all_eq_false.mpr ⟨c, hc, by rw [hdigit]; decide⟩
    rw [Timestamp.date?, if_pos (.inr (by rw [hall]; rfl))]
    rfl
  cases negative with
  | true => exact hyear (c := '-') (by rw [signed, if_pos rfl]; simp) (by decide)
  | false =>
    rw [signed, if_neg Bool.false_ne_true, text]
    -- With four digits or more before the point, the dash would stand at a digit, a point or an
    -- exponent; with fewer, one of these stands in the year or the number ends too early.
    by_cases hlength : 4 ≤ p.whole.length
    · have hdash : ∀ rest, (rest = [] ∨ ∃ c r, (c = '.' ∨ c = 'e') ∧ rest = c :: r) →
          Timestamp.expect? '-' ((p.whole ++ rest).drop 4) = none := by
        intro rest hrest
        rw [List.drop_append_of_le_length hlength]
        cases hdrop : p.whole.drop 4 with
        | nil =>
          rcases hrest with rfl | ⟨c, r, rfl | rfl, rfl⟩
          · rfl
          · rfl
          · rfl
        | cons c r =>
          have hdigit := hp.whole c (List.mem_of_mem_drop (hdrop ▸ List.mem_cons_self))
          rw [List.cons_append, Timestamp.expect?, if_neg]
          rintro rfl
          exact absurd hdigit (by decide)
      simp only [Timestamp.date?, hdash _ hp.rest_cases, Option.bind_eq_bind, Option.bind_none,
        ite_self]
    · rcases hp.rest_cases with hrest | ⟨c, r, hc, hrest⟩
      · have hshort : (p.whole.take 4).length ≠ 4 := by
          rw [List.length_take]
          omega
        rw [hrest, List.append_nil, Timestamp.date?, if_pos (.inl hshort)]
        rfl
      · refine hyear (c := c) ?_ (by rcases hc with rfl | rfl <;> decide)
        rw [hrest, List.take_append, List.mem_append]
        refine .inr ?_
        obtain ⟨k, hk⟩ : ∃ k, 4 - p.whole.length = k + 1 := ⟨3 - p.whole.length, by omega⟩
        rw [hk, List.take_succ_cons]
        exact List.mem_cons_self

/-- **A number is read as a number.** -/
theorem IsNumber.looksLike_eq (hp : p.IsNumber) (negative : Bool) {found : Bytes × Value}
    (h : number? (p.signed negative) = some found) :
    looksLike true (p.signed negative) = found := by
  have hstart := hp.startsNumber negative
  have hword := word?_eq_none hstart
  have htime := hp.parse?_eq_none negative
  generalize p.signed negative = t at *
  cases t with
  | nil => exact absurd hstart (by decide)
  | cons c r =>
    have hfirst : c = '-' ∨ c.isDigit = true := by
      cases r with
      | nil => exact .inr hstart
      | cons d r =>
        rw [NumberText.startsNumber, Bool.or_eq_true, Bool.and_eq_true, beq_iff_eq] at hstart
        exact hstart.symm.imp_left And.left
    have hpoint : (c == '.') = false := by
      rw [beq_eq_false_iff_ne]
      rintro rfl
      exact absurd hfirst (by decide)
    have hnumber : (c == '+' || c == '-' || c.isDigit) = true := by
      rcases hfirst with rfl | h
      · rfl
      · rw [h, Bool.or_true]
    simp only [looksLike, hpoint, hnumber, hword, htime, h, Bool.false_eq_true, if_false, if_true]
    rfl

theorem IsNumber.filter_underscore (hp : p.IsNumber) (negative : Bool) :
    (p.signed negative).filter (· != '_') = p.signed negative := by
  rw [List.filter_eq_self]
  intro c hc
  rw [bne_iff_ne]
  rintro rfl
  exact absurd (hp.mem_signed hc) (by decide)

theorem takeWhile_isDigit {ds r : Text} (hds : ∀ c ∈ ds, c.isDigit = true)
    (hr : ∀ c ∈ r.head?, c.isDigit = false) :
    (ds ++ r).takeWhile Char.isDigit = ds ∧ (ds ++ r).dropWhile Char.isDigit = r := by
  rw [List.takeWhile_append_of_pos hds, List.dropWhile_append_of_pos hds]
  cases r with
  | nil => exact ⟨List.append_nil ds, rfl⟩
  | cons c r =>
    have hc := hr c rfl
    rw [List.takeWhile_cons_of_neg (by rw [hc]; decide),
      List.dropWhile_cons_of_neg (by rw [hc]; decide), List.append_nil]
    exact ⟨rfl, rfl⟩

theorem IsNumber.exponent_head (hp : p.IsNumber) : ∀ c ∈ p.exponent.head?, c.isDigit = false := by
  rcases hp.exponent with h | ⟨sign, ds, -, -, h⟩
  · rw [h]
    exact fun c hc => absurd hc (Option.not_mem_none c)
  · rw [h]
    rintro c ⟨⟩
    rfl

/-- Whether a text has a minus sign, and the text behind its sign. -/
def splitSign (t : Text) : Bool × Text :=
  match t with
  | '-' :: r => (true, r)
  | '+' :: r => (false, r)
  | _ => (false, t)

/-- The digits behind a point, and the text behind them. -/
def splitFraction (t : Text) : Text × Text :=
  match t with
  | '.' :: r => (r.takeWhile Char.isDigit, r.dropWhile Char.isDigit)
  | _ => ([], t)

/-- The steps in which a decimal is read. -/
theorem decimal?_eq_steps (t : Text) : decimal? t =
    let negative := (splitSign t).1
    let whole := (splitSign t).2.takeWhile Char.isDigit
    let (fraction, r) := splitFraction ((splitSign t).2.drop whole.length)
    if whole.isEmpty && fraction.isEmpty then none
    else do
      let e ← exponent? r
      return ⟨negative, digitsNat (whole ++ fraction), e - fraction.length⟩ := rfl

theorem IsNumber.splitSign_signed (hp : p.IsNumber) (negative : Bool) :
    splitSign (p.signed negative) = (negative, p.text) := by
  cases negative with
  | true => rfl
  | false =>
    obtain ⟨c, r, hc⟩ := List.exists_cons_of_ne_nil hp.whole_ne
    have hdigit : c.isDigit = true := hp.whole c (hc ▸ List.mem_cons_self)
    rw [signed, if_neg Bool.false_ne_true, text, hc, List.cons_append]
    unfold splitSign
    split
    · next h =>
      rw [(List.cons.inj h).1] at hdigit
      exact absurd hdigit (by decide)
    · next h =>
      rw [(List.cons.inj h).1] at hdigit
      exact absurd hdigit (by decide)
    · rfl

theorem IsNumber.splitFraction_rest (hp : p.IsNumber) :
    splitFraction ((if p.fraction = [] then [] else '.' :: p.fraction) ++ p.exponent)
      = (p.fraction, p.exponent) := by
  by_cases hf : p.fraction = []
  · rw [if_pos hf, hf, List.nil_append]
    rcases hp.exponent with h | ⟨sign, ds, -, -, h⟩
    · rw [h]
      rfl
    · rw [h]
      rfl
  · obtain ⟨htake, hdrop⟩ := takeWhile_isDigit hp.fraction hp.exponent_head
    rw [if_neg hf, List.cons_append, splitFraction]
    simp only [htake, hdrop]

/-- The decimal that a number is. -/
theorem IsNumber.decimal?_eq (hp : p.IsNumber) (negative : Bool) :
    decimal? (p.signed negative) = (exponent? p.exponent).map fun e =>
      ⟨negative, digitsNat (p.whole ++ p.fraction), e - p.fraction.length⟩ := by
  have hrest : ∀ c ∈ ((if p.fraction = [] then [] else '.' :: p.fraction) ++ p.exponent).head?,
      c.isDigit = false := by
    rcases hp.rest_cases with h | ⟨c, r, hc, h⟩
    · rw [h]
      exact fun c hc => absurd hc (Option.not_mem_none c)
    · rw [h]
      rintro _ ⟨⟩
      rcases hc with rfl | rfl <;> rfl
  have hwhole : p.text.takeWhile Char.isDigit = p.whole := (takeWhile_isDigit hp.whole hrest).1
  have hdrop : p.text.drop p.whole.length
      = (if p.fraction = [] then [] else '.' :: p.fraction) ++ p.exponent := List.drop_left
  have hne : p.whole.isEmpty = false := List.isEmpty_eq_false_iff.mpr hp.whole_ne
  rw [decimal?_eq_steps]
  simp only [hp.splitSign_signed, hwhole, hdrop, hp.splitFraction_rest, hne, Bool.false_and,
    Bool.false_eq_true, if_false]
  cases exponent? p.exponent <;> rfl

end NumberText

end ScriptLint.Yaml
