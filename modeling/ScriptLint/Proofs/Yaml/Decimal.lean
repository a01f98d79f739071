import ScriptLint.Proofs.Number.Shortest
import ScriptLint.Proofs.Yaml.Number
import ScriptLint.Yaml.Tree
import Mathlib.Data.List.TakeWhile

/-!
# Reading back the text of a number

The text that a binary64 value is written as is a number, and its decimal rounds back to the value
(`Yaml.exists_numberText_render`). As a plain scalar it is read as the same value unless it is a
whole number below a million, which is written without a point and therefore read as an integer
(`Yaml.looksLike_floatText`).
-/

namespace ScriptLint

namespace Binary64

/-! ### Decimals -/

/-- A number lies between the powers of ten that its digits tell. -/
theorem toDigits_bounds {n : ℕ} (hn : n ≠ 0) :
    (10 : ℚ) ^ ((Nat.toDigits 10 n).length - 1) ≤ n ∧
      (n : ℚ) < 10 ^ (Nat.toDigits 10 n).length := by
  have hpositive : 0 < (Nat.toDigits 10 n).length := Nat.length_toDigits_pos
  constructor
  · have hle : 10 ^ ((Nat.toDigits 10 n).length - 1) ≤ n := by
      by_cases hone : (Nat.toDigits 10 n).length = 1
      · rw [hone]
        exact Nat.one_le_iff_ne_zero.mpr hn
      · rw [← Nat.not_lt, ← Nat.length_toDigits_le_iff (by decide) (by omega)]
        omega
    exact_mod_cast hle
  · exact_mod_cast (Nat.length_toDigits_le_iff (by decide) hpositive).mp (Nat.le_refl _)

/-- The decimal exponent of digits in scientific form. -/
theorem scientific_bounds {c : ℕ} (hc : c ≠ 0) (p : ℤ) :
    (10 : ℚ) ^ p ≤ scientific c p ∧ scientific c p < 10 ^ (p + 1) := by
  have hten : (10 : ℚ) ≠ 0 := by norm_num
  have hpositive : 0 < (Nat.toDigits 10 c).length := Nat.length_toDigits_pos
  obtain ⟨hge, hlt⟩ := toDigits_bounds hc
  rw [scientific]
  set l := (Nat.toDigits 10 c).length with hl
  have hunit : (0 : ℚ) < 10 ^ (p - ((l : ℤ) - 1)) := zpow_pos (by norm_num) _
  constructor
  · calc (10 : ℚ) ^ p = 10 ^ (l - 1) * 10 ^ (p - ((l : ℤ) - 1)) := by
          rw [← zpow_natCast, ← zpow_add₀ hten]
          congr 1
          omega
      _ ≤ c * 10 ^ (p - ((l : ℤ) - 1)) := mul_le_mul_of_nonneg_right hge hunit.le
  · calc c * (10 : ℚ) ^ (p - ((l : ℤ) - 1)) < 10 ^ l * 10 ^ (p - ((l : ℤ) - 1)) :=
          mul_lt_mul_of_pos_right hlt hunit
      _ = 10 ^ (p + 1) := by
          rw [← zpow_natCast, ← zpow_add₀ hten]
          congr 1
          omega

/-- A decimal is read as the value that it is near to. -/
theorem ofDecimal?_of_isNear {mant digits : ℕ} {exp e p : ℤ} (negative : Bool)
    (hfields : IsFields mant exp) (hmant : mant ≠ 0) (hdigits : digits ≠ 0)
    (hlow : (10 : ℚ) ^ p ≤ digits * 10 ^ e) (hhigh : digits * (10 : ℚ) ^ e < 10 ^ (p + 1))
    (hp : -324 ≤ p) (hp' : p ≤ 309) (hnear : IsNear (digits * 10 ^ e) mant exp) :
    ofDecimal? negative digits e = some (.finite negative mant exp) := by
  have hten : (10 : ℚ) ≠ 0 := by norm_num
  have hpos : (0 : ℚ) < 10 ^ e := zpow_pos (by norm_num) e
  set length := (Nat.toDigits 10 digits).length with hlength
  obtain ⟨hge, hlt⟩ := toDigits_bounds hdigits
  -- The number of digits is that of the value, so that it is within the bounds.
  have hsize_high : (length : ℤ) + e ≤ p + 1 := by
    by_contra h
    have : (10 : ℚ) ^ (p + 1) ≤ digits * 10 ^ e := by
      calc (10 : ℚ) ^ (p + 1) ≤ 10 ^ (((length - 1 : ℕ) : ℤ) + e) :=
            zpow_le_zpow_right₀ (by norm_num) (by omega)
        _ = 10 ^ (length - 1) * 10 ^ e := by rw [zpow_add₀ hten, zpow_natCast]
        _ ≤ digits * 10 ^ e := mul_le_mul_of_nonneg_right hge hpos.le
    exact absurd hhigh (not_lt.mpr this)
  have hsize_low : p < (length : ℤ) + e := by
    by_contra h
    have : digits * (10 : ℚ) ^ e < 10 ^ p := by
      calc digits * (10 : ℚ) ^ e < 10 ^ length * 10 ^ e := mul_lt_mul_of_pos_right hlt hpos
        _ = 10 ^ ((length : ℤ) + e) := by rw [zpow_add₀ hten, zpow_natCast]
        _ ≤ 10 ^ p := zpow_le_zpow_right₀ (by norm_num) (by omega)
    exact absurd hlow (not_le.mpr this)
  have hpowers := powers_pos (by decide : 0 < 10) e
  rw [ofDecimal?, if_neg (by rw [← hlength]; omega), if_neg (by rw [← hlength]; omega)]
  refine ofFraction?_of_isNear negative hfields hmant
    (Nat.mul_ne_zero hdigits hpowers.1.ne') hpowers.2.ne' ?_
  have hvalue : ((digits * (powers 10 e).1 : ℕ) : ℚ) / ((powers 10 e).2 : ℕ)
      = digits * 10 ^ e := by
    have := powers_div 10 e
    push_cast at this ⊢
    rw [mul_div_assoc, this]
  rwa [hvalue]

/-- A value is a whole number below a million. -/
def IsSmallWhole : Binary64 → Prop
  | .finite _ mant exp => ∃ n : ℕ, n < 1000000 ∧ magnitude mant exp = n
  | _ => False

/-- A value near to a small whole number is this number. -/
theorem magnitude_eq_of_isNear {mant n : ℕ} {exp : ℤ} (hfields : IsFields mant exp)
    (hn : n < 1000000) (hnear : IsNear n mant exp) : magnitude mant exp = n := by
  obtain ⟨hmlt, hexp, hexp', hnormal⟩ := hfields
  obtain ⟨hlow, hhigh, -⟩ := hnear
  have htwo : (2 : ℚ) ≠ 0 := by norm_num
  have hunit : (0 : ℚ) < 2 ^ (exp - 2) := zpow_pos (by norm_num) _
  have hquarters : (4 * mant - 2 : ℚ) ≤ lowQuarters mant exp := by
    rw [sub_le_iff_le_add]
    have : 4 * mant ≤ lowQuarters mant exp + 2 := by
      unfold lowQuarters
      split_ifs <;> omega
    exact_mod_cast this
  have hlow' : (4 * mant - 2 : ℚ) * 2 ^ (exp - 2) ≤ n :=
    (mul_le_mul_of_nonneg_right hquarters hunit.le).trans hlow
  have hn' : (n : ℚ) < 1000000 := by exact_mod_cast hn
  -- Values of a positive exponent are far larger, so the number is a multiple of the unit.
  have hexp_le : exp ≤ 0 := by
    by_contra h
    have hmant : (4503599627370496 : ℚ) ≤ mant := by
      exact_mod_cast hnormal.resolve_right (by omega)
    have hhalf : (1 / 2 : ℚ) ≤ 2 ^ (exp - 2) := by
      calc (1 / 2 : ℚ) = 2 ^ (-1 : ℤ) := by norm_num
        _ ≤ 2 ^ (exp - 2) := zpow_le_zpow_right₀ (by norm_num) (by omega)
    nlinarith
  obtain ⟨k, hk⟩ : ∃ k : ℕ, exp = -k := ⟨exp.natAbs, by omega⟩
  have hscale : (n : ℚ) = 4 * (n * 2 ^ k : ℕ) * 2 ^ (exp - 2) := by
    rw [hk, zpow_sub₀ htwo, zpow_neg, zpow_natCast]
    push_cast
    field_simp
  rw [hscale] at hlow' hhigh
  rw [mul_le_mul_iff_left₀ hunit] at hlow' hhigh
  have heq : n * 2 ^ k = mant := by
    have h1 : 4 * mant ≤ 4 * (n * 2 ^ k) + 2 := by
      rw [sub_le_iff_le_add] at hlow'
      exact_mod_cast hlow'
    have h2 : 4 * (n * 2 ^ k) ≤ 4 * mant + 2 := by exact_mod_cast hhigh
    omega
  rw [magnitude_eq_quarters, hscale, heq]

end Binary64

namespace Yaml

open Binary64

/-! ### Digits -/

theorem digitsNat_append (s t : Text) :
    digitsNat (s ++ t) = digitsNat s * 10 ^ t.length + digitsNat t := by
  have hfold : ∀ n : ℕ, t.foldl (fun n c => n * 10 + (c.toNat - 0x30)) n
      = n * 10 ^ t.length + digitsNat t := by
    rw [digitsNat]
    induction t using List.reverseRecOn with
    | nil => intro n; simp
    | append_singleton t c ih =>
      intro n
      rw [List.foldl_append, List.foldl_append, ih n, List.length_append]
      simp only [List.foldl_cons, List.foldl_nil, List.length_singleton, pow_succ]
      ring
  rw [digitsNat, List.foldl_append, hfold]
  rfl

theorem digitsNat_zeros (n : ℕ) : digitsNat (zeros n) = 0 := by
  induction n with
  | zero => rfl
  | succ n ih =>
    rw [zeros, List.replicate_succ', digitsNat_append]
    rw [zeros] at ih
    rw [ih]
    rfl

theorem digitsNat_append_zeros (t : Text) (n : ℕ) :
    digitsNat (t ++ zeros n) = digitsNat t * 10 ^ n := by
  rw [digitsNat_append, digitsNat_zeros, Nat.add_zero, zeros, List.length_replicate]

theorem digitsNat_zeros_append (n : ℕ) (t : Text) : digitsNat (zeros n ++ t) = digitsNat t := by
  rw [digitsNat_append, digitsNat_zeros, Nat.zero_mul, Nat.zero_add]

theorem isDigit_of_mem_zeros {n : ℕ} {c : Char} (h : c ∈ zeros n) : c.isDigit = true := by
  rw [zeros] at h
  rw [(List.mem_replicate.mp h).2]
  rfl

theorem digitsNat_toDigits (n : ℕ) : digitsNat (Nat.toDigits 10 n) = n := by
  rw [digitsNat_eq, Nat.ofDigitChars_ten_toDigits]

theorem digitsNat_dropWhile (t : Text) : digitsNat (t.dropWhile (· == '0')) = digitsNat t := by
  induction t with
  | nil => rfl
  | cons c t ih =>
    by_cases hc : c = '0'
    · subst hc
      rw [List.dropWhile_cons_of_pos rfl, ih]
      exact (digitsNat_zeros_append 1 t).symm
    · rw [List.dropWhile_cons_of_neg (by simpa using hc)]

theorem digitsNat_lt {t : Text} (h : ∀ c ∈ t, c.isDigit = true) :
    digitsNat t < 10 ^ t.length := by
  induction t with
  | nil => exact Nat.one_pos
  | cons c t ih =>
    rw [List.forall_mem_cons] at h
    have hc := isDigit_bounds h.1
    have hvalue : digitsNat [c] = c.toNat - 0x30 := by
      rw [digitsNat, List.foldl_cons, Nat.zero_mul, Nat.zero_add]
      rfl
    have hle : digitsNat [c] * 10 ^ t.length ≤ 9 * 10 ^ t.length :=
      Nat.mul_le_mul_right _ (by omega)
    have hlt := ih h.2
    rw [show c :: t = [c] ++ t from rfl, digitsNat_append, List.length_append,
      List.length_singleton, pow_add, pow_one]
    omega

/-- A text is what stands in front of its last zeros, and these zeros. -/
theorem exists_eq_append_zeros (t : Text) :
    ∃ n, t = (t.reverse.dropWhile (· == '0')).reverse ++ zeros n := by
  have hzeros : (t.reverse.takeWhile (· == '0')).reverse
      = zeros (t.reverse.takeWhile (· == '0')).length := by
    rw [zeros, ← List.length_reverse, List.eq_replicate_iff]
    refine ⟨rfl, fun c hc => ?_⟩
    have := List.mem_takeWhile_imp (List.mem_reverse.mp hc)
    simpa using this
  refine ⟨(t.reverse.takeWhile (· == '0')).length, ?_⟩
  rw [← hzeros, ← List.reverse_append, List.takeWhile_append_dropWhile, List.reverse_reverse]

/-- Only zeros are dropped, unless there is nothing else. -/
theorem exists_eq_dropTrailingZeros {t : Text} (h : ∃ c ∈ t, c ≠ '0') :
    dropTrailingZeros t ≠ [] ∧ ∃ n, t = dropTrailingZeros t ++ zeros n := by
  obtain ⟨n, hn⟩ := exists_eq_append_zeros t
  have hne : (t.reverse.dropWhile (· == '0')).reverse ≠ [] := by
    intro hnil
    obtain ⟨c, hc, hne⟩ := h
    rw [hnil, List.nil_append, zeros] at hn
    rw [hn] at hc
    exact hne (List.mem_replicate.mp hc).2
  have hdrop : dropTrailingZeros t = (t.reverse.dropWhile (· == '0')).reverse := by
    unfold dropTrailingZeros
    split
    · next hnil => exact absurd hnil hne
    · rfl
  rw [hdrop]
  exact ⟨hne, n, hn⟩

/-! ### The text of digits with an exponent -/

theorem exponent?_eq {sign : Char} {n : ℕ} {ds : Text} (hsign : sign = '+' ∨ sign = '-')
    (hds : ∀ c ∈ ds, c.isDigit = true) (hne : ds ≠ []) (hlength : ds.length ≤ 5)
    (hvalue : digitsNat ds = n) :
    exponent? ('e' :: sign :: ds) = some (if sign = '-' then -(n : ℤ) else n) := by
  have hall : (ds.isEmpty || !ds.all (·.isDigit)) = false := by
    rw [List.isEmpty_eq_false_iff.mpr hne, List.all_eq_true.mpr hds]
    rfl
  have htake : digitsNat ((ds.dropWhile (· == '0')).take 5) = n := by
    rw [List.take_of_length_le ((List.length_dropWhile_le _ _).trans hlength),
      digitsNat_dropWhile, hvalue]
  rcases hsign with rfl | rfl
  · simp only [exponent?, hall, htake]
    rfl
  · simp only [exponent?, hall, htake]
    rfl

/-- The number whose text stands for `digits · 10 ^ e`. -/
structure NumberText.StandsFor (q : NumberText) (digits : ℕ) (e : ℤ) : Prop where
  isNumber : q.IsNumber
  exponent : (exponent? q.exponent).map (· - (q.fraction.length : ℤ)) = some e
  digits : digitsNat (q.whole ++ q.fraction) = digits

/-- The number that digits with an exponent are written as. It may have zeros behind the digits, and
without a point or an exponent it is short. -/
structure NumberText.Writes (q : NumberText) (ds : Text) (p : ℤ) : Prop where
  value : ∃ k : ℕ, ∃ e : ℤ, q.StandsFor (digitsNat ds * 10 ^ k) e ∧ e + k = p - (ds.length - 1)
  text : ∀ t, dropTrailingZeros t = ds → (Digits.mk t p).render = q.text
  short : q.fraction = [] → q.exponent = [] → q.whole.length ≤ 6

section

variable {ds : Text} {p : ℤ}

/-- A value below one is written with zeros behind the point. -/
theorem exists_writes_small (hne : ds ≠ []) (hds : ∀ c ∈ ds, c.isDigit = true) {n : ℕ}
    (hp : -4 ≤ Int.negSucc n) : ∃ q : NumberText, q.Writes ds (Int.negSucc n) := by
  have hfraction : zeros n ++ ds ≠ [] := by simp [hne]
  refine ⟨{ whole := ['0'], fraction := zeros n ++ ds }, ⟨0, -((zeros n ++ ds).length : ℤ),
    ⟨⟨List.cons_ne_nil _ _, List.forall_mem_singleton.mpr rfl, fun c hc => ?_, .inl rfl⟩, ?_, ?_⟩,
    ?_⟩, fun t ht => ?_, fun hnil => absurd hnil hfraction⟩
  · rcases List.mem_append.mp hc with hc | hc
    · exact isDigit_of_mem_zeros hc
    · exact hds c hc
  · show some (0 - ((zeros n ++ ds).length : ℤ)) = _
    rw [zero_sub]
  · rw [← List.append_assoc, show ['0'] ++ zeros n = zeros (n + 1) from rfl,
      digitsNat_zeros_append, pow_zero, mul_one]
  · rw [List.length_append, zeros, List.length_replicate, Int.negSucc_eq]
    omega
  · simp only [Digits.render, ht, if_pos (And.intro hp (by omega : Int.negSucc n < 6)),
      NumberText.text, if_neg hfraction, List.append_nil, List.append_assoc]
    rfl

/-- A value from one up to a million is written with its point in place, if it needs one. -/
theorem exists_writes_positional (hne : ds ≠ []) (hds : ∀ c ∈ ds, c.isDigit = true) {n : ℕ}
    (hp : n < 6) : ∃ q : NumberText, q.Writes ds n := by
  have hpositive : 0 < ds.length := List.length_pos_iff.mpr hne
  have hplain : -4 ≤ (n : ℤ) ∧ (n : ℤ) < 6 := by omega
  -- With no more digits than places before the point, zeros are added and no point is written.
  by_cases hwhole : ds.length ≤ n + 1
  · refine ⟨{ whole := ds ++ zeros (n + 1 - ds.length) }, ⟨n + 1 - ds.length, 0,
      ⟨⟨by simp [hne], fun c hc => ?_, List.forall_mem_nil _, .inl rfl⟩, rfl, ?_⟩, ?_⟩,
      fun t ht => ?_, fun _ _ => ?_⟩
    · rcases List.mem_append.mp hc with hc | hc
      · exact hds c hc
      · exact isDigit_of_mem_zeros hc
    · rw [List.append_nil, digitsNat_append_zeros]
    · omega
    · simp only [Digits.render, ht, if_pos hplain, if_pos hwhole, NumberText.text, if_true,
        List.append_nil]
    · rw [List.length_append, zeros, List.length_replicate]
      omega
  · have hfraction : ds.drop (n + 1) ≠ [] := by
      rw [Ne, List.drop_eq_nil_iff]
      exact hwhole
    refine ⟨{ whole := ds.take (n + 1), fraction := ds.drop (n + 1) }, ⟨0,
      -((ds.drop (n + 1)).length : ℤ), ⟨⟨by simpa using hne, fun c hc =>
        hds c (List.mem_of_mem_take hc), fun c hc => hds c (List.mem_of_mem_drop hc), .inl rfl⟩,
        ?_, ?_⟩, ?_⟩, fun t ht => ?_, fun hnil => absurd hnil hfraction⟩
    · show some (0 - ((ds.drop (n + 1)).length : ℤ)) = _
      rw [zero_sub]
    · rw [List.take_append_drop, pow_zero, mul_one]
    · rw [List.length_drop]
      omega
    · simp only [Digits.render, ht, if_pos hplain, if_neg hwhole, NumberText.text,
        if_neg hfraction, List.append_nil]

/-- The digits of an exponent, at least two of them. -/
def exponentDigits (n : ℕ) : Text :=
  if (Nat.toDigits 10 n).length < 2 then '0' :: Nat.toDigits 10 n else Nat.toDigits 10 n

theorem exponentSign_cases (p : ℤ) :
    (if p < 0 then '-' else '+') = '+' ∨ (if p < 0 then '-' else '+') = '-' := by
  split_ifs
  · exact .inr rfl
  · exact .inl rfl

/-- An exponent is read back. -/
theorem exponent?_exponentDigits (hp : p.natAbs < 1000) :
    exponent? ('e' :: (if p < 0 then '-' else '+') :: exponentDigits p.natAbs) = some p ∧
      ∀ c ∈ exponentDigits p.natAbs, c.isDigit = true := by
  have hlength := (Nat.length_toDigits_le_iff (b := 10) (by decide) (by decide)).mpr
    (show p.natAbs < 10 ^ 3 from hp)
  have hdigit : ∀ c ∈ Nat.toDigits 10 p.natAbs, c.isDigit = true :=
    fun c hc => isDigit_of_mem_toDigits hc
  have hdigits : exponentDigits p.natAbs ≠ [] ∧ (exponentDigits p.natAbs).length ≤ 5 ∧
      (∀ c ∈ exponentDigits p.natAbs, c.isDigit = true) ∧
      digitsNat (exponentDigits p.natAbs) = p.natAbs := by
    rw [exponentDigits]
    split_ifs
    · exact ⟨List.cons_ne_nil _ _, by rw [List.length_cons]; omega,
        List.forall_mem_cons.mpr ⟨rfl, hdigit⟩,
        (digitsNat_zeros_append 1 _).trans (digitsNat_toDigits _)⟩
    · exact ⟨Nat.toDigits_ne_nil, by omega, hdigit, digitsNat_toDigits _⟩
  obtain ⟨hne, hshort, hall, hvalue⟩ := hdigits
  refine ⟨?_, hall⟩
  rw [exponent?_eq (exponentSign_cases p) hall hne hshort hvalue]
  -- The sign that is read is the one that was written, so the two mixed cases cannot be.
  split_ifs with h1 h2 h2
  · congr 1
    omega
  · exact absurd rfl h2
  · exact absurd h2 (by decide)
  · congr 1
    omega

/-- Any other value is written with an exponent. -/
theorem exists_writes_scientific (hne : ds ≠ []) (hds : ∀ c ∈ ds, c.isDigit = true)
    (hp : p.natAbs < 1000) (hplain : ¬ (-4 ≤ p ∧ p < 6)) : ∃ q : NumberText, q.Writes ds p := by
  obtain ⟨x, xs, rfl⟩ := List.exists_cons_of_ne_nil hne
  obtain ⟨hexponent, hdigit⟩ := exponent?_exponentDigits hp
  refine ⟨⟨[x], xs, 'e' :: (if p < 0 then '-' else '+') :: exponentDigits p.natAbs⟩,
    ⟨0, p - (xs.length : ℤ), ⟨⟨List.cons_ne_nil _ _,
      List.forall_mem_singleton.mpr (hds x List.mem_cons_self),
      fun c hc => hds c (List.mem_cons_of_mem _ hc),
      .inr ⟨_, _, exponentSign_cases p, hdigit, rfl⟩⟩, ?_, ?_⟩, ?_⟩,
    fun t ht => ?_, fun _ hnil => absurd hnil (List.cons_ne_nil _ _)⟩
  · rw [hexponent]
    rfl
  · rw [List.singleton_append, pow_zero, mul_one]
  · rw [List.length_cons]
    omega
  · simp only [Digits.render, ht, if_neg hplain, NumberText.text]
    cases xs with
    | nil => rfl
    | cons y ys => rfl

/-- **Digits with their exponent are written as a number.** -/
theorem exists_writes (hne : ds ≠ []) (hds : ∀ c ∈ ds, c.isDigit = true) (hp : p.natAbs < 1000) :
    ∃ q : NumberText, q.Writes ds p := by
  by_cases hplain : -4 ≤ p ∧ p < 6
  · cases p with
    | ofNat n =>
      rw [Int.ofNat_eq_natCast] at hplain
      exact exists_writes_positional hne hds (by omega)
    | negSucc n => exact exists_writes_small hne hds hplain.1
  · exact exists_writes_scientific hne hds hp hplain

end

/-! ### The text of a value -/

/-- What a value is written as. -/
def floatText : Binary64 → Text
  | .nan => ".nan".toList
  | .infinity negative => (if negative then "-.inf" else ".inf").toList
  | x => x.render

theorem ofFloat_eq (x : Binary64) : Tree.ofFloat x = Tree.plain (floatText x) := by
  cases x <;> rfl

/-- The decimal that a number stands for is read with its sign. -/
theorem NumberText.StandsFor.decimal?_eq {q : NumberText} {digits : ℕ} {e : ℤ}
    (hq : q.StandsFor digits e) (negative : Bool) :
    decimal? (q.signed negative) = some ⟨negative, digits, e⟩ := by
  obtain ⟨hnumber, hexponent, hdigits⟩ := hq
  rw [hnumber.decimal?_eq]
  obtain ⟨e', he', rfl⟩ := Option.map_eq_some_iff.mp hexponent
  rw [he', hdigits]
  rfl

/-- The digits of a number without the zeros at their end, and the power of ten that these stand
for. -/
theorem exists_significant {c : ℕ} (hc : c ≠ 0) :
    ∃ ds : Text, ∃ z : ℕ, dropTrailingZeros (Nat.toDigits 10 c) = ds ∧ ds ≠ [] ∧
      (∀ x ∈ ds, x.isDigit = true) ∧ (Nat.toDigits 10 c).length = ds.length + z ∧
      c = digitsNat ds * 10 ^ z := by
  have hnonzero : ∃ x ∈ Nat.toDigits 10 c, x ≠ '0' := by
    by_contra hall
    push Not at hall
    have hzeros : Nat.toDigits 10 c = zeros (Nat.toDigits 10 c).length :=
      List.eq_replicate_iff.mpr ⟨rfl, hall⟩
    have hvalue := digitsNat_toDigits c
    rw [hzeros, digitsNat_zeros] at hvalue
    exact hc hvalue.symm
  obtain ⟨hne, z, hz⟩ := exists_eq_dropTrailingZeros hnonzero
  refine ⟨_, z, rfl, hne, fun x hx => ?_, ?_, ?_⟩
  · exact isDigit_of_mem_toDigits (n := c) (hz ▸ List.mem_append_left _ hx)
  · conv_lhs => rw [hz]
    rw [List.length_append, zeros, List.length_replicate]
  · rw [← digitsNat_append_zeros, ← hz, digitsNat_toDigits]

/-- Zero is written as a whole number. -/
theorem exists_numberText_zero (negative : Bool) :
    ∃ q : NumberText, ∃ digits : ℕ, ∃ e : ℤ, q.StandsFor digits e ∧
      (Binary64.finite negative 0 (-1074)).render = q.signed negative ∧
      ofDecimal? negative digits e = some (.finite negative 0 (-1074)) ∧
      (q.fraction = [] → q.exponent = [] → IsSmallWhole (.finite negative 0 (-1074))) := by
  have hnumber : NumberText.IsNumber { whole := ['0'] } :=
    ⟨List.cons_ne_nil _ _, by simp, List.forall_mem_nil _, .inl rfl⟩
  refine ⟨{ whole := ['0'] }, 0, 0, ⟨hnumber, rfl, rfl⟩, ?_, rfl, fun _ _ => ⟨0, by decide, ?_⟩⟩
  · cases negative <;> rfl
  · rw [magnitude]
    norm_num

/-- A number without a fraction and an exponent that a value is near to is the value. -/
theorem NumberText.StandsFor.isSmallWhole {q : NumberText} {digits mant : ℕ} {e exp : ℤ}
    (hq : q.StandsFor digits e) (hfields : IsFields mant exp)
    (hnear : IsNear ((digits : ℚ) * 10 ^ e) mant exp) (hfraction : q.fraction = [])
    (hexponent : q.exponent = []) (hshort : q.whole.length ≤ 6) (negative : Bool) :
    IsSmallWhole (.finite negative mant exp) := by
  have hvalue := hq.exponent
  rw [hexponent, hfraction] at hvalue
  obtain rfl : 0 = e := by simpa [exponent?] using hvalue
  have hlt : digits < 1000000 := by
    have hdigits := hq.digits
    rw [hfraction, List.append_nil] at hdigits
    rw [← hdigits]
    exact (digitsNat_lt hq.isNumber.whole).trans_le (Nat.pow_le_pow_right (by decide) hshort)
  rw [zpow_zero, mul_one] at hnear
  exact ⟨_, hlt, magnitude_eq_of_isNear hfields hlt hnear⟩

/-- **A finite value is written as a number whose decimal rounds to it.** Without a point and an
exponent it is a whole number below a million. -/
theorem exists_numberText_finite {mant : ℕ} {exp : ℤ} (negative : Bool)
    (hfields : IsFields mant exp) :
    ∃ q : NumberText, ∃ digits : ℕ, ∃ e : ℤ, q.StandsFor digits e ∧
      (Binary64.finite negative mant exp).render = q.signed negative ∧
      ofDecimal? negative digits e = some (.finite negative mant exp) ∧
      (q.fraction = [] → q.exponent = [] → IsSmallWhole (.finite negative mant exp)) := by
  by_cases hmant : mant = 0
  · subst hmant
    obtain rfl : exp = -1074 := hfields.normal.resolve_left (by norm_num [fullMant])
    exact exists_numberText_zero negative
  obtain ⟨c, p, hshortest, hc, hp, hp', hnear⟩ := exists_shortest_eq hfields hmant
  obtain ⟨ds, z, hds, hne, hdigit, hlength, hc_eq⟩ := exists_significant hc
  obtain ⟨q, ⟨k, e, hq, he⟩, htext, hshort⟩ :=
    exists_writes hne hdigit (by omega : p.natAbs < 1000)
  have hten : (10 : ℚ) ≠ 0 := by norm_num
  -- The text stands for the number that is near to the value, as moving the point changes no value.
  have hvalue : ((digitsNat ds * 10 ^ k : ℕ) : ℚ) * 10 ^ e = scientific c p := by
    rw [scientific, hlength, hc_eq]
    push_cast
    rw [mul_assoc, mul_assoc, ← zpow_natCast, ← zpow_natCast, ← zpow_add₀ hten, ← zpow_add₀ hten]
    congr 2
    omega
  have hbounds := scientific_bounds hc p
  rw [← hvalue] at hbounds hnear
  have hdigits : digitsNat ds * 10 ^ k ≠ 0 := by
    refine Nat.mul_ne_zero ?_ (pow_ne_zero _ (by decide))
    rintro hzero
    rw [hc_eq, hzero, Nat.zero_mul] at hc
    exact hc rfl
  refine ⟨q, digitsNat ds * 10 ^ k, e, hq, ?_, ?_, fun hfraction hexponent => ?_⟩
  · rw [render, if_neg hmant, hshortest, htext _ hds]
    rfl
  · exact ofDecimal?_of_isNear negative hfields hmant hdigits hbounds.1 hbounds.2 hp hp' hnear
  · exact hq.isSmallWhole hfields hnear hfraction hexponent (hshort hfraction hexponent) negative

/-- A number that is no integer has a point or an exponent, and it never has a letter of a base. -/
theorem NumberText.IsNumber.isMarked_signed {q : NumberText} (hq : q.IsNumber) (negative : Bool)
    (hmarked : ¬ (q.fraction = [] ∧ q.exponent = [])) : IsMarked (q.signed negative) := by
  constructor
  · have htext : ∀ c ∈ q.text, c ∈ q.signed negative := by
      intro c hc
      cases negative with
      | false => exact hc
      | true => exact List.mem_cons_of_mem _ hc
    by_cases hfraction : q.fraction = []
    · rcases hq.exponent with hnil | ⟨sign, ds, -, -, hexponent⟩
      · exact absurd ⟨hfraction, hnil⟩ hmarked
      · refine .inr (htext _ ?_)
        rw [NumberText.text, hexponent]
        simp
    · refine .inl (htext _ ?_)
      rw [NumberText.text, if_neg hfraction]
      simp
  · intro c hc hmem
    have hbase : ∀ c ∈ "xXoObB".toList, c.isDigit = false ∧ c ∉ ".e+-".toList := by simp
    rcases hq.mem_signed hmem with hdigit | hother
    · exact Bool.false_ne_true ((hbase c hc).1.symm.trans hdigit)
    · exact (hbase c hc).2 hother

/-- A number that is no integer is read with its fraction. -/
theorem NumberText.StandsFor.looksLike_eq {q : NumberText} {digits : ℕ} {e : ℤ} {x : Binary64}
    (hq : q.StandsFor digits e) (negative : Bool) (hx : ofDecimal? negative digits e = some x)
    (hmarked : ¬ (q.fraction = [] ∧ q.exponent = [])) :
    looksLike true (q.signed negative) = (Tag.float, .float x) := by
  refine hq.isNumber.looksLike_eq negative ?_
  have hmark := hq.isNumber.isMarked_signed negative hmarked
  rw [number?]
  simp only [hq.isNumber.filter_underscore, hmark.integer?_eq_none, hq.decimal?_eq,
    Option.bind_some, Decimal.value?, hx]

/-- **A value is read back from its text**, unless it is a whole number below a million. -/
theorem looksLike_floatText {x : Binary64} (hvalid : x.IsValid) (h : ¬ x.IsSmallWhole) :
    looksLike true (floatText x) = (Tag.float, .float x) := by
  cases x with
  | nan => rfl
  | infinity negative => cases negative <;> rfl
  | finite negative mant exp =>
    obtain ⟨q, digits, e, hq, htext, hread, hsmall⟩ := exists_numberText_finite negative hvalid
    rw [floatText, htext]
    · exact hq.looksLike_eq negative hread fun hplain => h (hsmall hplain.1 hplain.2)
    all_goals simp

/-- **An integer of 64 bits is read back from its text.** -/
theorem looksLike_intText {n : ℤ} (hlow : -(intLimit : ℤ) ≤ n) (hhigh : n < 2 * intLimit) :
    looksLike true (intText n) = (Tag.int, .int n) := by
  set q : NumberText := { whole := Nat.toDigits 10 n.natAbs } with hq
  have hnumber : q.IsNumber :=
    ⟨Nat.toDigits_ne_nil, fun c hc => isDigit_of_mem_toDigits hc, List.forall_mem_nil _, .inl rfl⟩
  have htext : intText n = q.signed (n < 0) := by
    cases n with
    | ofNat n => simp [intText, NumberText.signed, NumberText.text, hq]
    | negSucc n => simp [intText, NumberText.signed, NumberText.text, hq, Int.negSucc_lt_zero]
  rw [htext]
  refine hnumber.looksLike_eq _ ?_
  rw [number?]
  simp only [hnumber.filter_underscore]
  rw [← htext, integer?_intText hlow hhigh]

end Yaml

end ScriptLint
