import ScriptLint.Number.Binary64
import Mathlib.Algebra.Order.Field.Power
import Mathlib.Data.Rat.Cast.Order
import Mathlib.Tactic.FieldSimp
import Mathlib.Tactic.Linarith
import Mathlib.Tactic.NormNum
import Mathlib.Tactic.Positivity
import Mathlib.Tactic.Ring

/-!
# Rounding to binary64

A finite value is rounded to by everything between the midpoints to its neighbours, and by the
midpoints themselves if its significand is even (`Binary64.IsNear`). Rounding a fraction gives the
value that the fraction is near to (`Binary64.ofFraction?_of_isNear`), whatever number of factors of
two stand in the fraction.
-/

namespace ScriptLint.Binary64

/-! ### Powers -/

theorem powers_pos {base : ℕ} (hbase : 0 < base) (e : ℤ) :
    0 < (powers base e).1 ∧ 0 < (powers base e).2 := by
  cases e with
  | ofNat n => exact ⟨Nat.pow_pos hbase, Nat.one_pos⟩
  | negSucc n => exact ⟨Nat.one_pos, Nat.pow_pos hbase⟩

/-- The two factors are the power as a fraction. -/
theorem powers_div (base : ℕ) (e : ℤ) :
    ((powers base e).1 : ℚ) / (powers base e).2 = (base : ℚ) ^ e := by
  cases e with
  | ofNat n => simp [powers]
  | negSucc n => simp [powers, zpow_negSucc]

/-! ### Quotients -/

/-- **The rounded quotient is the natural number next to it**, and of two the even one. -/
theorem roundDiv_eq {num den n : ℕ} (hden : 0 < den) (hlow : 2 * n * den ≤ 2 * num + den)
    (hhigh : 2 * num ≤ 2 * n * den + den)
    (heven : 2 * n * den = 2 * num + den ∨ 2 * num = 2 * n * den + den → n % 2 = 0) :
    roundDiv num den = n := by
  have hdiv : den * (num / den) + num % den = num := Nat.div_add_mod num den
  have hlt : num % den < den := Nat.mod_lt num hden
  simp only [roundDiv]
  generalize num / den = q at *
  generalize num % den = r at *
  subst hdiv
  -- The quotient is `n` or the number before it.
  have hle : q ≤ n := by
    by_contra h
    have : den * (n + 1) ≤ den * q := Nat.mul_le_mul_left den (by omega)
    nlinarith
  have hge : n ≤ q + 1 := by
    by_contra h
    have : den * (q + 2) ≤ den * n := Nat.mul_le_mul_left den (by omega)
    nlinarith
  obtain rfl | rfl : q = n ∨ n = q + 1 := by omega
  · have hr : 2 * r ≤ den := by nlinarith
    rcases Nat.lt_or_eq_of_le hr with hr | hr
    · rw [if_pos hr]
    · have := heven (.inr (by nlinarith))
      rw [if_neg (by omega), if_pos ⟨hr, this⟩]
  · have hr : den ≤ 2 * r := by nlinarith
    rw [if_neg (by omega)]
    rcases Nat.lt_or_eq_of_le hr with hr | hr
    · rw [if_neg (by omega)]
    · have := heven (.inl (by nlinarith))
      rw [if_neg (by omega)]

theorem le_roundDiv {num den n : ℕ} (hden : 0 < den) (h : n * den ≤ num) :
    n ≤ roundDiv num den := by
  have hle : n ≤ num / den := (Nat.le_div_iff_mul_le hden).mpr h
  simp only [roundDiv]
  split_ifs <;> omega

theorem roundDiv_le {num den n : ℕ} (hden : 0 < den) (h : num ≤ n * den) :
    roundDiv num den ≤ n := by
  have hle : num / den ≤ n := Nat.div_le_of_le_mul (by rwa [Nat.mul_comm])
  have hdiv : den * (num / den) + num % den = num := Nat.div_add_mod num den
  simp only [roundDiv]
  rcases Nat.lt_or_eq_of_le hle with hlt | heq
  · split_ifs <;> omega
  · have hzero : num % den = 0 := by
      rw [heq, Nat.mul_comm] at hdiv
      omega
    rw [if_pos (by omega)]
    exact hle

theorem roundDiv_eq_of_div {num den n : ℕ} {x : ℚ} (hden : 0 < den) (hx : (num : ℚ) / den = x)
    (hlow : (n : ℚ) - 1 / 2 ≤ x) (hhigh : x ≤ n + 1 / 2)
    (heven : x = n - 1 / 2 ∨ x = n + 1 / 2 → n % 2 = 0) : roundDiv num den = n := by
  have hden' : (0 : ℚ) < den := Nat.cast_pos.mpr hden
  have hnum : (num : ℚ) = x * den := by rw [← hx, div_mul_cancel₀ _ hden'.ne']
  refine roundDiv_eq hden ?_ ?_ fun h => heven ?_
  · have : (2 * n * den : ℚ) ≤ 2 * num + den := by rw [hnum]; nlinarith
    exact_mod_cast this
  · have : (2 * num : ℚ) ≤ 2 * n * den + den := by rw [hnum]; nlinarith
    exact_mod_cast this
  · refine h.imp (fun h => ?_) fun h => ?_
    · have h' : (2 * n * den : ℚ) = 2 * num + den := by exact_mod_cast h
      rw [hnum] at h'
      refine mul_right_cancel₀ hden'.ne' ?_
      linarith
    · have h' : (2 * num : ℚ) = 2 * n * den + den := by exact_mod_cast h
      rw [hnum] at h'
      refine mul_right_cancel₀ hden'.ne' ?_
      linarith

/-! ### The exponent of a fraction -/

theorem fullMant_eq : fullMant = 2 ^ 52 := rfl

/-- A significand and an exponent as a value, with a significand that is too large by one taken back
to the least one of the next exponent. -/
def pack? (negative : Bool) (mant : ℕ) (exp : ℤ) : Option Binary64 :=
  if mant = 2 * fullMant then
    if 971 < exp + 1 then none else some (.finite negative fullMant (exp + 1))
  else if 971 < exp then none else some (.finite negative mant exp)

theorem zpow_log2_le {n : ℕ} (hn : n ≠ 0) : (2 : ℚ) ^ (n.log2 : ℤ) ≤ n := by
  rw [zpow_natCast]
  exact_mod_cast Nat.log2_self_le hn

theorem lt_zpow_log2 (n : ℕ) : (n : ℚ) < (2 : ℚ) ^ ((n.log2 : ℤ) + 1) := by
  have h : (n : ℚ) < (2 : ℚ) ^ (n.log2 + 1) := by exact_mod_cast Nat.lt_log2_self
  exact_mod_cast h

section

variable {num den : ℕ}

/-- A fraction brought to an exponent. -/
theorem scaled_div (num : ℕ) (hden : den ≠ 0) (e : ℤ) :
    ((num * (powers 2 e).2 : ℕ) : ℚ) / (den * (powers 2 e).1 : ℕ)
      = (num : ℚ) / den / (2 : ℚ) ^ e := by
  obtain ⟨h1, h2⟩ := powers_pos (by decide : 0 < 2) e
  have hpow := powers_div 2 e
  push_cast at hpow ⊢
  rw [← hpow]
  have : ((powers 2 e).1 : ℚ) ≠ 0 := Nat.cast_ne_zero.mpr h1.ne'
  have : ((powers 2 e).2 : ℚ) ≠ 0 := Nat.cast_ne_zero.mpr h2.ne'
  have : (den : ℚ) ≠ 0 := Nat.cast_ne_zero.mpr hden
  field_simp

theorem scaled_pos (hden : den ≠ 0) (e : ℤ) : 0 < den * (powers 2 e).1 :=
  Nat.mul_pos (Nat.pos_of_ne_zero hden) (powers_pos (by decide) e).1

theorem scaled_lt_iff {n : ℕ} (hden : den ≠ 0) (e : ℤ) :
    num * (powers 2 e).2 / (den * (powers 2 e).1) < n ↔ (num : ℚ) / den < n * (2 : ℚ) ^ e := by
  have hscaled := scaled_pos hden e
  rw [Nat.div_lt_iff_lt_mul hscaled, ← Nat.cast_lt (α := ℚ), Nat.cast_mul n,
    ← div_lt_iff₀ (Nat.cast_pos.mpr hscaled), scaled_div num hden e,
    div_lt_iff₀ (zpow_pos (by norm_num) e)]

/-- The difference of two logarithms tells the size of a quotient up to a factor of two. -/
theorem log2_sub_bounds (hnum : num ≠ 0) (hden : den ≠ 0) :
    (2 : ℚ) ^ ((num.log2 : ℤ) - den.log2 - 1) < (num : ℚ) / den ∧
      (num : ℚ) / den < (2 : ℚ) ^ ((num.log2 : ℤ) - den.log2 + 1) := by
  have hden' : (0 : ℚ) < den := Nat.cast_pos.mpr (Nat.pos_of_ne_zero hden)
  have htwo : (0 : ℚ) < 2 := by norm_num
  rw [lt_div_iff₀ hden', div_lt_iff₀ hden']
  constructor
  · calc (2 : ℚ) ^ ((num.log2 : ℤ) - den.log2 - 1) * den
        < (2 : ℚ) ^ ((num.log2 : ℤ) - den.log2 - 1) * (2 : ℚ) ^ ((den.log2 : ℤ) + 1) :=
          mul_lt_mul_of_pos_left (lt_zpow_log2 den) (zpow_pos htwo _)
      _ = (2 : ℚ) ^ (num.log2 : ℤ) := by
          rw [← zpow_add₀ htwo.ne']
          congr 1
          omega
      _ ≤ num := zpow_log2_le hnum
  · calc (num : ℚ) < (2 : ℚ) ^ ((num.log2 : ℤ) + 1) := lt_zpow_log2 num
      _ = (2 : ℚ) ^ ((num.log2 : ℤ) - den.log2 + 1) * (2 : ℚ) ^ (den.log2 : ℤ) := by
          rw [← zpow_add₀ htwo.ne']
          congr 1
          omega
      _ ≤ (2 : ℚ) ^ ((num.log2 : ℤ) - den.log2 + 1) * den :=
          mul_le_mul_of_nonneg_left (zpow_log2_le hden) (zpow_pos htwo _).le

/-- **A fraction is rounded at the exponent that gives 53 binary digits**, or at the least exponent
there is. -/
theorem ofFraction?_eq (negative : Bool) (hnum : num ≠ 0) (hden : den ≠ 0) :
    ∃ e : ℤ, (2 : ℚ) ^ (e + 52) ≤ (num : ℚ) / den ∧ (num : ℚ) / den < (2 : ℚ) ^ (e + 53) ∧
      ofFraction? negative num den
        = pack? negative (roundDiv (num * (powers 2 (max e (-1074))).2)
            (den * (powers 2 (max e (-1074))).1)) (max e (-1074)) := by
  set guess : ℤ := (num.log2 : ℤ) - (den.log2 : ℤ) - 52 with hguess
  -- The guess is off by one at most.
  obtain ⟨hlow, hhigh⟩ := log2_sub_bounds hnum hden
  rw [show (num.log2 : ℤ) - den.log2 - 1 = guess + 51 by omega] at hlow
  rw [show (num.log2 : ℤ) - den.log2 + 1 = guess + 53 by omega] at hhigh
  have hless : num * (powers 2 guess).2 / (den * (powers 2 guess).1) < fullMant ↔
      (num : ℚ) / den < (2 : ℚ) ^ (guess + 52) := by
    rw [scaled_lt_iff hden, fullMant_eq, Int.add_comm, zpow_add₀ (by norm_num)]
    norm_cast
  have hunfold : ofFraction? negative num den
      = let e := max (if num * (powers 2 guess).2 / (den * (powers 2 guess).1) < fullMant
          then guess - 1 else guess) (-1074)
        pack? negative (roundDiv (num * (powers 2 e).2) (den * (powers 2 e).1)) e := by
    unfold ofFraction?
    rw [if_neg (by omega)]
    simp only [pack?, ← hguess]
    split_ifs <;> rfl
  by_cases hcase : (num : ℚ) / den < (2 : ℚ) ^ (guess + 52)
  · refine ⟨guess - 1, ?_, ?_, ?_⟩
    · rw [show guess - 1 + 52 = guess + 51 by ring]
      exact hlow.le
    · rw [show guess - 1 + 53 = guess + 52 by ring]
      exact hcase
    · rw [hunfold, if_pos (hless.mpr hcase)]
  · exact ⟨guess, not_lt.mp hcase, hhigh, by rw [hunfold, if_neg (mt hless.mp hcase)]⟩

end

/-! ### Values and what is near to them -/

/-- Whether a significand and an exponent are those of a finite value: there is only one such pair
for each value. -/
structure IsFields (mant : ℕ) (exp : ℤ) : Prop where
  mant_lt : mant < 2 * fullMant
  le_exp : -1074 ≤ exp
  exp_le : exp ≤ 971
  normal : fullMant ≤ mant ∨ exp = -1074

/-- The midpoint below a value, in quarters of the unit in the last place. Below a power of two the
neighbours are closer. -/
def lowQuarters (mant : ℕ) (exp : ℤ) : ℕ :=
  if mant = fullMant ∧ -1074 < exp then 4 * mant - 1 else 4 * mant - 2

/-- Whether a number lies between the midpoints to the neighbours of a value. The midpoints count
for an even significand. -/
structure IsNear (q : ℚ) (mant : ℕ) (exp : ℤ) : Prop where
  low : lowQuarters mant exp * (2 : ℚ) ^ (exp - 2) ≤ q
  high : q ≤ (4 * mant + 2) * (2 : ℚ) ^ (exp - 2)
  odd : mant % 2 = 1 → lowQuarters mant exp * (2 : ℚ) ^ (exp - 2) < q ∧
    q < (4 * mant + 2) * (2 : ℚ) ^ (exp - 2)

section

variable {num den mant : ℕ} {exp : ℤ}

/-- A rounded quotient at an exponent. -/
theorem roundDiv_powers {n : ℕ} {e : ℤ} (hden : den ≠ 0)
    (hlow : ((n : ℚ) - 1 / 2) * (2 : ℚ) ^ e ≤ (num : ℚ) / den)
    (hhigh : (num : ℚ) / den ≤ (n + 1 / 2) * (2 : ℚ) ^ e)
    (heven : n % 2 = 1 → ((n : ℚ) - 1 / 2) * (2 : ℚ) ^ e < (num : ℚ) / den ∧
      (num : ℚ) / den < (n + 1 / 2) * (2 : ℚ) ^ e) :
    roundDiv (num * (powers 2 e).2) (den * (powers 2 e).1) = n := by
  have hpos : (0 : ℚ) < (2 : ℚ) ^ e := zpow_pos (by norm_num) e
  refine roundDiv_eq_of_div (scaled_pos hden e) (scaled_div num hden e) ?_ ?_ fun h => ?_
  · rwa [le_div_iff₀ hpos]
  · rwa [div_le_iff₀ hpos]
  · by_contra hodd
    obtain ⟨hlt, hgt⟩ := heven (by omega)
    rw [div_eq_iff hpos.ne', div_eq_iff hpos.ne'] at h
    rcases h with h | h
    · exact hlt.ne' h
    · exact hgt.ne h

theorem roundDiv_powers_le {n : ℕ} {e : ℤ} (hden : den ≠ 0)
    (h : (num : ℚ) / den ≤ n * (2 : ℚ) ^ e) :
    roundDiv (num * (powers 2 e).2) (den * (powers 2 e).1) ≤ n := by
  have hpos : (0 : ℚ) < (2 : ℚ) ^ e := zpow_pos (by norm_num) e
  rw [← div_le_iff₀ hpos, ← scaled_div num hden e,
    div_le_iff₀ (Nat.cast_pos.mpr (scaled_pos hden e))] at h
  exact roundDiv_le (scaled_pos hden e) (by exact_mod_cast h)

theorem le_roundDiv_powers {n : ℕ} {e : ℤ} (hden : den ≠ 0)
    (h : n * (2 : ℚ) ^ e ≤ (num : ℚ) / den) :
    n ≤ roundDiv (num * (powers 2 e).2) (den * (powers 2 e).1) := by
  have hpos : (0 : ℚ) < (2 : ℚ) ^ e := zpow_pos (by norm_num) e
  rw [← le_div_iff₀ hpos, ← scaled_div num hden e,
    le_div_iff₀ (Nat.cast_pos.mpr (scaled_pos hden e))] at h
  exact le_roundDiv (scaled_pos hden e) (by exact_mod_cast h)

/-- A power of two in quarters of the unit in the last place. -/
theorem zpow_eq_quarters (exp k : ℤ) :
    (2 : ℚ) ^ (exp + k) = (2 : ℚ) ^ (k + 2) * (2 : ℚ) ^ (exp - 2) := by
  rw [← zpow_add₀ (by norm_num)]
  congr 1
  ring

/-- The midpoint below a value is half a unit below it at most. -/
theorem le_lowQuarters (hmant : mant ≠ 0) (exp : ℤ) :
    (4 * mant - 2 : ℚ) ≤ lowQuarters mant exp := by
  unfold lowQuarters
  split_ifs
  · rw [Nat.cast_sub (by omega)]
    push_cast
    linarith
  · rw [Nat.cast_sub (by omega)]
    push_cast
    linarith

namespace IsNear

variable {q : ℚ}

/-- What is near to a value is less than it by half a unit at most. -/
theorem le (h : IsNear q mant exp) (hmant : mant ≠ 0) :
    (4 * mant - 2 : ℚ) * (2 : ℚ) ^ (exp - 2) ≤ q :=
  (mul_le_mul_of_nonneg_right (le_lowQuarters hmant exp) (zpow_pos (by norm_num) _).le).trans h.low

/-- What is near to a value with an odd significand is less than it by less than half a unit. -/
theorem lt (h : IsNear q mant exp) (hodd : mant % 2 = 1) :
    (4 * mant - 2 : ℚ) * (2 : ℚ) ^ (exp - 2) < q :=
  (mul_le_mul_of_nonneg_right (le_lowQuarters (by omega) exp)
    (zpow_pos (by norm_num) _).le).trans_lt (h.odd hodd).1

/-- What is near to a value has 53 binary digits at no greater exponent. -/
theorem exp_le (h : IsNear q mant exp) (hmant : mant < 2 * fullMant) {e : ℤ}
    (hle : (2 : ℚ) ^ (e + 52) ≤ q) : e ≤ exp := by
  have hunit : (0 : ℚ) < (2 : ℚ) ^ (exp - 2) := zpow_pos (by norm_num) _
  have hmant' : (mant : ℚ) + 1 ≤ 2 ^ 53 := by exact_mod_cast hmant
  have hlt : (2 : ℚ) ^ (e + 52) < (2 : ℚ) ^ (exp + 53) := by
    refine hle.trans_lt (h.high.trans_lt ?_)
    rw [zpow_eq_quarters]
    refine mul_lt_mul_of_pos_right ?_ hunit
    norm_num at hmant' ⊢
    linarith
  rw [zpow_lt_zpow_iff_right₀ (by norm_num)] at hlt
  omega

/-- What is near to a value of full precision has 53 binary digits at its exponent or, below a power
of two, at the one before. -/
theorem le_exp (h : IsNear q mant exp) (hmant : fullMant ≤ mant) {e : ℤ}
    (hlt : q < (2 : ℚ) ^ (e + 53)) : exp - 1 ≤ e := by
  have hunit : (0 : ℚ) < (2 : ℚ) ^ (exp - 2) := zpow_pos (by norm_num) _
  have hmant' : (4503599627370496 : ℚ) ≤ mant := by exact_mod_cast hmant
  have hlt' : (2 : ℚ) ^ (exp + 51) < (2 : ℚ) ^ (e + 53) := by
    refine lt_of_lt_of_le ?_ ((h.le (by rintro rfl; exact absurd hmant (by decide))).trans hlt.le)
    rw [zpow_eq_quarters]
    refine mul_lt_mul_of_pos_right ?_ hunit
    norm_num
    linarith
  rw [zpow_lt_zpow_iff_right₀ (by norm_num)] at hlt'
  omega

/-- Below a power of two, what is near to a value with the exponent of the power is near to the
power itself. -/
theorem mant_eq (h : IsNear q mant exp) (hmant : fullMant ≤ mant)
    (hlt : q < (2 : ℚ) ^ (exp + 52)) : mant = fullMant := by
  by_contra hne
  have hunit : (0 : ℚ) < (2 : ℚ) ^ (exp - 2) := zpow_pos (by norm_num) _
  have hgt : (4503599627370497 : ℚ) ≤ mant := by
    exact_mod_cast Nat.lt_of_le_of_ne hmant (Ne.symm hne)
  rw [zpow_eq_quarters] at hlt
  have hless := lt_of_mul_lt_mul_right
    ((h.le (by rintro rfl; exact absurd hmant (by decide))).trans_lt hlt) hunit.le
  norm_num at hless
  linarith

/-- A fraction near to a value is rounded to its significand at its exponent. -/
theorem roundDiv_eq (h : IsNear ((num : ℚ) / den) mant exp) (hmant : mant ≠ 0) (hden : den ≠ 0) :
    roundDiv (num * (powers 2 exp).2) (den * (powers 2 exp).1) = mant := by
  have hunit : (2 : ℚ) ^ exp = 4 * (2 : ℚ) ^ (exp - 2) := by
    have hquarters := zpow_eq_quarters exp 0
    norm_num at hquarters
    exact hquarters
  have hlow := h.le hmant
  have hhigh := h.high
  refine roundDiv_powers hden ?_ ?_ fun hodd => ⟨?_, ?_⟩
  · rw [hunit]
    linarith
  · rw [hunit]
    linarith
  · have hlow := h.lt hodd
    rw [hunit]
    linarith
  · have hhigh := (h.odd hodd).2
    rw [hunit]
    linarith

/-- A fraction near to a power of two and below it is rounded up to it at the exponent below. -/
theorem roundDiv_eq_of_lt (h : IsNear ((num : ℚ) / den) fullMant exp) (hden : den ≠ 0)
    (hexp : -1074 < exp) (hlt : (num : ℚ) / den < (2 : ℚ) ^ (exp + 52)) :
    roundDiv (num * (powers 2 (exp - 1)).2) (den * (powers 2 (exp - 1)).1) = 2 * fullMant := by
  have hunit : (2 : ℚ) ^ (exp - 1) = 2 * (2 : ℚ) ^ (exp - 2) := by
    rw [sub_eq_add_neg, zpow_eq_quarters exp (-1)]
    norm_num
  have hlow := h.low
  rw [lowQuarters, if_pos ⟨rfl, hexp⟩, fullMant_eq] at hlow
  rw [zpow_eq_quarters] at hlt
  refine roundDiv_powers hden ?_ ?_ fun hodd => absurd hodd (by decide)
  · rw [hunit, fullMant_eq]
    norm_num at hlow ⊢
    nlinarith
  · rw [hunit, fullMant_eq]
    norm_num at hlt ⊢
    nlinarith

end IsNear

/-- **Rounding gives the value that a fraction is near to.** -/
theorem ofFraction?_of_isNear (negative : Bool) (hfields : IsFields mant exp) (hmant : mant ≠ 0)
    (hnum : num ≠ 0) (hden : den ≠ 0) (hnear : IsNear ((num : ℚ) / den) mant exp) :
    ofFraction? negative num den = some (.finite negative mant exp) := by
  obtain ⟨e, hle, hlt, hround⟩ := ofFraction?_eq negative hnum hden
  have hmant_lt := hfields.mant_lt
  have hexp := hfields.le_exp
  have hexp' := hfields.exp_le
  have hle_exp : e ≤ exp := hnear.exp_le hmant_lt hle
  by_cases hsame : max e (-1074) = exp
  · -- The fraction is rounded at the exponent of the value.
    rw [hround, hsame, hnear.roundDiv_eq hmant hden, pack?, if_neg (by omega), if_neg (by omega)]
  · -- The fraction lies below a power of two, and is rounded up to it.
    have hfull : fullMant ≤ mant := hfields.normal.resolve_right (by omega)
    have hge_exp : exp - 1 ≤ e := hnear.le_exp hfull hlt
    obtain rfl : e = exp - 1 := by omega
    have hbelow : (num : ℚ) / den < (2 : ℚ) ^ (exp + 52) := by
      rwa [show exp - 1 + 53 = exp + 52 by ring] at hlt
    obtain rfl := hnear.mant_eq hfull hbelow
    rw [hround, max_eq_left (by omega), hnear.roundDiv_eq_of_lt hden (by omega) hbelow, pack?,
      if_pos rfl, if_neg (by omega), sub_add_cancel]

/-- Whether a value is one of the format. -/
def IsValid : Binary64 → Prop
  | .finite _ mant exp => IsFields mant exp
  | _ => True

/-- What a significand and an exponent are packed to is a value of the format. -/
theorem isValid_of_pack? {negative : Bool} {x : Binary64} (hmant : mant ≤ 2 * fullMant)
    (hexp : -1074 ≤ exp) (hnormal : fullMant ≤ mant ∨ exp = -1074)
    (h : pack? negative mant exp = some x) : x.IsValid := by
  have hpositive : 0 < fullMant := by decide
  rw [pack?] at h
  split_ifs at h with hfull hbig hbig
  · obtain rfl := Option.some.inj h
    exact ⟨by omega, by omega, by omega, .inl (Nat.le_refl _)⟩
  · obtain rfl := Option.some.inj h
    exact ⟨by omega, hexp, by omega, hnormal⟩

/-- **What a fraction is rounded to is a value of the format.** -/
theorem isValid_of_ofFraction? {negative : Bool} {x : Binary64}
    (h : ofFraction? negative num den = some x) : x.IsValid := by
  by_cases hzero : num = 0 ∨ den = 0
  · rw [ofFraction?, if_pos hzero] at h
    obtain rfl := Option.some.inj h
    exact ⟨by decide, by decide, by decide, .inr rfl⟩
  · rw [not_or] at hzero
    obtain ⟨e, hle, hlt, hround⟩ := ofFraction?_eq negative hzero.1 hzero.2
    rw [hround] at h
    rw [zpow_add₀ (by norm_num)] at hle hlt
    -- At the exponent chosen the quotient has at most 53 digits, and no fewer unless that exponent
    -- is the least.
    refine isValid_of_pack? (roundDiv_powers_le hzero.2 ?_) (le_max_right _ _) ?_ h
    · have hmono : (2 : ℚ) ^ e ≤ (2 : ℚ) ^ max e (-1074) :=
        zpow_le_zpow_right₀ (by norm_num) (le_max_left _ _)
      rw [fullMant_eq]
      norm_num at hlt ⊢
      linarith
    · rcases le_or_gt e (-1074) with hleast | hgreater
      · exact .inr (max_eq_right hleast)
      · rw [max_eq_left hgreater.le]
        refine .inl (le_roundDiv_powers hzero.2 ?_)
        rw [fullMant_eq]
        norm_num at hle ⊢
        linarith

end

end ScriptLint.Binary64
