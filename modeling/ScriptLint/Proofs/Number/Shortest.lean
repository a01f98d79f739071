import ScriptLint.Proofs.Number.Rounding

/-!
# The fewest digits that read back

The digits that a value is shown with lie between the midpoints to its neighbours
(`Binary64.exists_of_nearest?`), so they are rounded back to it. Seventeen digits always lie there
(`Binary64.isSome_nearest?`), because the grid of decimals with seventeen digits is finer than the
values; so there always are digits to show a value with (`Binary64.exists_shortest_eq`).
-/

namespace ScriptLint.Binary64

/-- The number that a finite value is, apart from its sign. -/
def magnitude (mant : ℕ) (exp : ℤ) : ℚ := mant * (2 : ℚ) ^ exp

/-- Multiples of powers are compared by whole numbers. -/
theorem mul_powers_le_iff {a b c d : ℕ} (hc : 0 < c) (hd : 0 < d)
    (e e' : ℤ) :
    a * ((powers c e).1 * (powers d e').2) ≤ b * ((powers d e').1 * (powers c e).2) ↔
      (a : ℚ) * (c : ℚ) ^ e ≤ b * (d : ℚ) ^ e' := by
  have h : (0 : ℚ) < (powers c e).2 := Nat.cast_pos.mpr (powers_pos hc e).2
  have h' : (0 : ℚ) < (powers d e').2 := Nat.cast_pos.mpr (powers_pos hd e').2
  rw [← powers_div, ← powers_div, ← mul_div_assoc, ← mul_div_assoc, div_le_div_iff₀ h h',
    ← Nat.cast_le (α := ℚ)]
  push_cast
  rw [mul_assoc, mul_assoc]

theorem mul_powers_lt_iff {a b c d : ℕ} (hc : 0 < c) (hd : 0 < d)
    (e e' : ℤ) :
    a * ((powers c e).1 * (powers d e').2) < b * ((powers d e').1 * (powers c e).2) ↔
      (a : ℚ) * (c : ℚ) ^ e < b * (d : ℚ) ^ e' := by
  rw [← not_le, ← not_le, mul_powers_le_iff hd hc]

/-! ### The decimal exponent -/

/-- Whether the decimal exponent guessed for numbers from `2 ^ l` to `2 ^ (l + 1)` is off by one at
most. -/
def guessHolds (l : ℤ) : Bool :=
  let g := Int.fdiv (l * 30103) 100000
  1 * ((powers 10 (g - 1)).1 * (powers 2 l).2) ≤ 1 * ((powers 2 l).1 * (powers 10 (g - 1)).2)
    && 1 * ((powers 2 (l + 1)).1 * (powers 10 (g + 2)).2)
      ≤ 1 * ((powers 10 (g + 2)).1 * (powers 2 (l + 1)).2)

theorem guessHolds_all : ((List.range 2098).all fun i => guessHolds ((i : ℤ) - 1074)) = true := by
  decide +kernel

theorem guess_bounds {l : ℤ} (hlow : -1074 ≤ l) (hhigh : l < 1024) :
    (10 : ℚ) ^ (Int.fdiv (l * 30103) 100000 - 1) ≤ (2 : ℚ) ^ l ∧
      (2 : ℚ) ^ (l + 1) ≤ (10 : ℚ) ^ (Int.fdiv (l * 30103) 100000 + 2) := by
  have h := List.all_eq_true.mp guessHolds_all (l + 1074).toNat (List.mem_range.mpr (by omega))
  rw [Int.toNat_of_nonneg (by omega), add_sub_cancel_right, guessHolds, Bool.and_eq_true,
    decide_eq_true_eq, decide_eq_true_eq, mul_powers_le_iff (by decide) (by decide),
    mul_powers_le_iff (by decide) (by decide)] at h
  simpa using h

section

variable {mant : ℕ} {exp : ℤ}

/-- **The decimal exponent of a value.** -/
theorem decimalExponent_bounds (hfields : IsFields mant exp) (hmant : mant ≠ 0) :
    (10 : ℚ) ^ decimalExponent mant exp ≤ magnitude mant exp ∧
      magnitude mant exp < (10 : ℚ) ^ (decimalExponent mant exp + 1) := by
  obtain ⟨hmlt, hexp, hexp', -⟩ := hfields
  have hlog : mant.log2 < 53 := (Nat.log2_lt hmant).mpr hmlt
  have htwo : (0 : ℚ) < 2 := by norm_num
  set l : ℤ := (mant.log2 : ℤ) + exp with hl
  obtain ⟨hguess, hguess'⟩ := guess_bounds (l := l) (by omega) (by omega)
  set g : ℤ := Int.fdiv (l * 30103) 100000 with hg
  -- The value is between two powers of two next to each other, of which the guess is known to be
  -- good up to one.
  have hlow : (2 : ℚ) ^ l ≤ magnitude mant exp := by
    rw [hl, zpow_add₀ htwo.ne']
    exact mul_le_mul_of_nonneg_right (zpow_log2_le hmant) (zpow_pos htwo _).le
  have hhigh : magnitude mant exp < (2 : ℚ) ^ (l + 1) := by
    rw [hl, show (mant.log2 : ℤ) + exp + 1 = (mant.log2 : ℤ) + 1 + exp by ring,
      zpow_add₀ htwo.ne']
    exact mul_lt_mul_of_pos_right (lt_zpow_log2 mant) (zpow_pos htwo _)
  have hatLeast (p : ℤ) : (powers 10 p).1 * (powers 2 exp).2
      ≤ mant * (powers 2 exp).1 * (powers 10 p).2 ↔ (10 : ℚ) ^ p ≤ magnitude mant exp := by
    have h := mul_powers_le_iff (a := 1) (b := mant) (c := 10) (d := 2) (by decide)
      (by decide) p exp
    rw [one_mul, ← mul_assoc] at h
    rw [h, magnitude]
    simp
  simp only [decimalExponent, ← hl, ← hg, decide_eq_true_eq, hatLeast]
  split_ifs with h₁ h₂
  · exact ⟨h₁, hhigh.trans_le (by rwa [show g + 1 + 1 = g + 2 by ring])⟩
  · exact ⟨h₂, not_le.mp h₁⟩
  · exact ⟨hguess.trans hlow, by rw [sub_add_cancel]; exact not_le.mp h₂⟩

/-- The decimal exponents of the format. -/
theorem decimalExponent_range (hfields : IsFields mant exp) (hmant : mant ≠ 0) :
    -324 ≤ decimalExponent mant exp ∧ decimalExponent mant exp ≤ 308 := by
  obtain ⟨hlow, hhigh⟩ := decimalExponent_bounds hfields hmant
  obtain ⟨hmlt, hexp, hexp', -⟩ := hfields
  have htwo : (1 : ℚ) ≤ 2 := by norm_num
  constructor
  · have hleast : (2 : ℚ) ^ (-1074 : ℤ) ≤ magnitude mant exp := by
      have hone : (1 : ℚ) ≤ mant := by exact_mod_cast Nat.pos_of_ne_zero hmant
      calc (2 : ℚ) ^ (-1074 : ℤ) ≤ (2 : ℚ) ^ exp := zpow_le_zpow_right₀ htwo hexp
        _ ≤ mant * (2 : ℚ) ^ exp := le_mul_of_one_le_left (zpow_pos (by norm_num) _).le hone
    have hten : (10 : ℚ) ^ (-324 : ℤ) < (10 : ℚ) ^ (decimalExponent mant exp + 1) :=
      lt_of_lt_of_le (by simpa using (mul_powers_lt_iff (a := 1) (b := 1) (c := 10) (d := 2)
        (by decide) (by decide) (-324) (-1074)).mp (by decide +kernel)) (hleast.trans hhigh.le)
    rw [zpow_lt_zpow_iff_right₀ (by norm_num)] at hten
    omega
  · have hgreatest : magnitude mant exp < (2 : ℚ) ^ (1024 : ℤ) := by
      have hlt : (mant : ℚ) < 2 ^ (53 : ℤ) := by exact_mod_cast hmlt
      calc mant * (2 : ℚ) ^ exp < 2 ^ (53 : ℤ) * (2 : ℚ) ^ exp :=
            mul_lt_mul_of_pos_right hlt (zpow_pos (by norm_num) _)
        _ ≤ 2 ^ (53 : ℤ) * (2 : ℚ) ^ (971 : ℤ) :=
            mul_le_mul_of_nonneg_left (zpow_le_zpow_right₀ htwo hexp') (by norm_num)
        _ = (2 : ℚ) ^ (1024 : ℤ) := (zpow_add₀ (by norm_num) _ _).symm
    have hten : (10 : ℚ) ^ decimalExponent mant exp < (10 : ℚ) ^ (309 : ℤ) :=
      (hlow.trans_lt hgreatest).trans (by simpa using (mul_powers_lt_iff (a := 1) (b := 1)
        (c := 2) (d := 10) (by decide) (by decide) 1024 309).mp (by decide +kernel))
    rw [zpow_lt_zpow_iff_right₀ (by norm_num)] at hten
    omega

/-! ### Digits that round back -/

/-- The decimal of some digits that lies below a value, in units of `10 ^ k`. -/
def below (mant : ℕ) (exp k : ℤ) : ℕ :=
  4 * mant * ((powers 2 (exp - 2)).1 * (powers 10 k).2)
    / ((powers 10 k).1 * (powers 2 (exp - 2)).2)

theorem magnitude_eq_quarters (mant : ℕ) (exp : ℤ) :
    magnitude mant exp = 4 * mant * (2 : ℚ) ^ (exp - 2) := by
  rw [magnitude, zpow_sub₀ (by norm_num)]
  ring

/-- The value lies between two decimals in a row. -/
theorem below_bounds (mant : ℕ) (exp k : ℤ) :
    (below mant exp k : ℚ) * 10 ^ k ≤ magnitude mant exp ∧
      magnitude mant exp < (below mant exp k + 1) * 10 ^ k := by
  have hpos : 0 < (powers 10 k).1 * (powers 2 (exp - 2)).2 :=
    Nat.mul_pos (powers_pos (by decide) _).1 (powers_pos (by decide) _).2
  have hlow := mul_powers_le_iff (a := below mant exp k) (b := 4 * mant) (c := 10) (d := 2)
    (by decide) (by decide) k (exp - 2)
  have hhigh := mul_powers_lt_iff (a := 4 * mant) (b := below mant exp k + 1) (c := 2)
    (d := 10) (by decide) (by decide) (exp - 2) k
  push_cast at hlow hhigh
  rw [magnitude_eq_quarters]
  refine ⟨hlow.mp ?_, hhigh.mp ?_⟩
  · exact Nat.div_mul_le_self _ _
  · rw [Nat.mul_comm (below mant exp k + 1)]
    exact Nat.lt_mul_div_succ _ hpos

/-- Whether a decimal is taken for a value: `c` in units of `10 ^ k`. -/
def inside (mant : ℕ) (exp k : ℤ) (c : ℕ) : Bool :=
  let scaled := c * ((powers 10 k).1 * (powers 2 (exp - 2)).2)
  let low := lowQuarters mant exp * ((powers 2 (exp - 2)).1 * (powers 10 k).2)
  let high := (4 * mant + 2) * ((powers 2 (exp - 2)).1 * (powers 10 k).2)
  if mant % 2 = 0 then low ≤ scaled && scaled ≤ high else low < scaled && scaled < high

theorem inside_iff (c : ℕ) (k : ℤ) :
    inside mant exp k c = true ↔ IsNear (c * 10 ^ k) mant exp := by
  unfold inside
  split_ifs with heven
  · rw [Bool.and_eq_true, decide_eq_true_eq, decide_eq_true_eq,
      mul_powers_le_iff (by decide) (by decide), mul_powers_le_iff (by decide) (by decide)]
    push_cast
    exact ⟨fun ⟨hlow, hhigh⟩ => ⟨hlow, hhigh, fun h => by omega⟩,
      fun ⟨hlow, hhigh, _⟩ => ⟨hlow, hhigh⟩⟩
  · rw [Bool.and_eq_true, decide_eq_true_eq, decide_eq_true_eq,
      mul_powers_lt_iff (by decide) (by decide), mul_powers_lt_iff (by decide) (by decide)]
    push_cast
    exact ⟨fun ⟨hlow, hhigh⟩ => ⟨hlow.le, hhigh.le, fun _ => ⟨hlow, hhigh⟩⟩,
      fun ⟨_, _, hodd⟩ => hodd (by omega)⟩

/-- The digits of a decimal that is taken for a value. -/
def digitsOf (p : ℤ) (n c : ℕ) : Digits :=
  if n < (Nat.toDigits 10 c).length then ⟨(Nat.toDigits 10 c).take n, p + 1⟩
  else ⟨Nat.toDigits 10 c, p⟩

/-- **What is nearest lies near**, next to the value on the grid of decimals; and there is something
if one of the decimals on its two sides lies near. -/
theorem nearest?_cases (mant : ℕ) (exp p : ℤ) (n : ℕ) :
    (nearest? mant exp p n = none ∧ ∀ c, c = below mant exp (p - (n - 1)) ∨
      c = below mant exp (p - (n - 1)) + 1 → ¬ IsNear (c * 10 ^ (p - (n - 1))) mant exp) ∨
    ∃ c, nearest? mant exp p n = some (digitsOf p n c) ∧ IsNear (c * 10 ^ (p - (n - 1))) mant exp ∧
      (c = below mant exp (p - (n - 1)) ∨ c = below mant exp (p - (n - 1)) + 1) := by
  set k : ℤ := p - (n - 1) with hk
  set b : ℕ := below mant exp k with hb
  unfold nearest?
  dsimp only
  split
  · next hbelow habove =>
    split
    · exact .inr ⟨b, rfl, (inside_iff _ _).mp hbelow, .inl rfl⟩
    · exact .inr ⟨b + 1, rfl, (inside_iff _ _).mp habove, .inr rfl⟩
  · next hbelow _ => exact .inr ⟨b, rfl, (inside_iff _ _).mp hbelow, .inl rfl⟩
  · next _ habove => exact .inr ⟨b + 1, rfl, (inside_iff _ _).mp habove, .inr rfl⟩
  · next hbelow habove =>
    refine .inl ⟨rfl, ?_⟩
    rintro c (rfl | rfl)
    · exact fun h => Bool.false_ne_true (hbelow.symm.trans ((inside_iff _ _).mpr h))
    · exact fun h => Bool.false_ne_true (habove.symm.trans ((inside_iff _ _).mpr h))

/-- **Seventeen digits are enough.** They lie closer to each other than the value to the midpoints
around it. -/
theorem nearest?_ne_none (hfields : IsFields mant exp) (hmant : mant ≠ 0) :
    nearest? mant exp (decimalExponent mant exp) 17 ≠ none := by
  intro hnone
  set p := decimalExponent mant exp with hp
  set k : ℤ := p - ((17 : ℕ) - 1) with hk
  obtain ⟨-, hfar⟩ | ⟨c, hc, -⟩ := nearest?_cases mant exp p 17
  swap
  · rw [hnone] at hc
    exact absurd hc (by simp)
  have hbelow := hfar _ (.inl rfl)
  have habove := hfar _ (.inr rfl)
  rw [← hk] at hbelow habove
  obtain ⟨hlow, hhigh⟩ := below_bounds mant exp k
  set b := below mant exp k with hb
  have hten : (10 : ℚ) ^ k * 10 ^ 16 ≤ magnitude mant exp := by
    have h := (decimalExponent_bounds hfields hmant).1
    rw [← hp, show p = k + 16 by omega, zpow_add₀ (by norm_num)] at h
    exact_mod_cast h
  obtain ⟨hmlt, -, -, hnormal⟩ := hfields
  rw [magnitude_eq_quarters] at hlow hhigh hten
  have hunit : (0 : ℚ) < (2 : ℚ) ^ (exp - 2) := zpow_pos (by norm_num) _
  have hmlt' : (mant : ℚ) ≤ 9007199254740991 := by
    exact_mod_cast Nat.le_of_lt_succ hmlt
  have hone : (1 : ℚ) ≤ mant := by exact_mod_cast Nat.pos_of_ne_zero hmant
  have hnear (c : ℕ) (hc : lowQuarters mant exp * (2 : ℚ) ^ (exp - 2) < c * 10 ^ k)
      (hc' : (c : ℚ) * 10 ^ k < (4 * mant + 2) * (2 : ℚ) ^ (exp - 2)) :
      IsNear (c * 10 ^ k) mant exp := ⟨hc.le, hc'.le, fun _ => ⟨hc, hc'⟩⟩
  -- The nearer one of the two decimals lies near.
  have hclose : (lowQuarters mant exp : ℚ) * (2 : ℚ) ^ (exp - 2)
      < 4 * mant * (2 : ℚ) ^ (exp - 2) - 10 ^ k / 2 ∧ (10 : ℚ) ^ k / 2 < 2 * (2 : ℚ) ^ (exp - 2) := by
    unfold lowQuarters
    split_ifs with hboundary
    · rw [hboundary.1] at hten ⊢
      rw [Nat.cast_sub (by decide), fullMant_eq]
      rw [fullMant_eq] at hten
      norm_num at hten ⊢
      constructor
      · nlinarith
      · nlinarith
    · rw [Nat.cast_sub (by omega)]
      push_cast
      norm_num at hten ⊢
      constructor
      · nlinarith
      · nlinarith
  obtain ⟨hclose, hclose'⟩ := hclose
  have hpow : (0 : ℚ) < 10 ^ k := zpow_pos (by norm_num) _
  by_cases hhalf : 4 * mant * (2 : ℚ) ^ (exp - 2) - b * 10 ^ k ≤ 10 ^ k / 2
  · exact hbelow (hnear b (by linarith) (by linarith))
  · refine habove (hnear (b + 1) ?_ ?_)
    · push_cast
      linarith
    · push_cast
      linarith

/-- The number that the digits of `c` stand for with a point behind the first and an exponent. -/
def scientific (c : ℕ) (p : ℤ) : ℚ := c * 10 ^ (p - ((Nat.toDigits 10 c).length - 1))

theorem length_toDigits_eq {n c : ℕ} (hn : 0 < n) (hlow : 10 ^ (n - 1) ≤ c) (hhigh : c < 10 ^ n) :
    (Nat.toDigits 10 c).length = n := by
  have hle := (Nat.length_toDigits_le_iff (b := 10) (by decide) hn).mpr hhigh
  by_contra hne
  have hlt : (Nat.toDigits 10 c).length ≤ n - 1 := by omega
  have hpos : 0 < n - 1 := lt_of_lt_of_le Nat.length_toDigits_pos hlt
  exact absurd ((Nat.length_toDigits_le_iff (by decide) hpos).mp hlt) (Nat.not_lt.mpr hlow)

/-- The digits that are taken are those of a number, of which the point may have moved. -/
theorem exists_digitsOf_eq (p : ℤ) {n c : ℕ} (hn : 0 < n) (hlow : 10 ^ (n - 1) ≤ c)
    (hhigh : c ≤ 10 ^ n) :
    ∃ c' p', digitsOf p n c = ⟨Nat.toDigits 10 c', p'⟩ ∧ c' ≠ 0 ∧ (p' = p ∨ p' = p + 1) ∧
      scientific c' p' = c * 10 ^ (p - (n - 1)) := by
  rcases Nat.lt_or_eq_of_le hhigh with hlt | rfl
  · have hlength := length_toDigits_eq hn hlow hlt
    refine ⟨c, p, ?_, ?_, .inl rfl, ?_⟩
    · rw [digitsOf, hlength, if_neg (Nat.lt_irrefl n)]
    · have : 0 < 10 ^ (n - 1) := Nat.pow_pos (by decide)
      omega
    · rw [scientific, hlength]
  · -- The number was rounded up to a power of ten.
    have hpos : 0 < 10 ^ (n - 1) := Nat.pow_pos (by decide)
    have hpow : 10 ^ n = 10 * 10 ^ (n - 1) := by
      rw [← Nat.pow_succ', Nat.succ_eq_add_one, Nat.sub_add_cancel hn]
    have hlength : (Nat.toDigits 10 (10 ^ (n - 1))).length = n :=
      length_toDigits_eq hn (Nat.le_refl _) (by omega)
    have hdigits : Nat.toDigits 10 (10 ^ n) = Nat.toDigits 10 (10 ^ (n - 1)) ++ ['0'] := by
      rw [hpow, Nat.toDigits_of_base_le (by decide) (by omega),
        Nat.mul_div_cancel_left _ (by decide), Nat.mul_mod_right]
      rfl
    refine ⟨10 ^ (n - 1), p + 1, ?_, hpos.ne', .inr rfl, ?_⟩
    · have hlonger : n < (Nat.toDigits 10 (10 ^ n)).length := by
        rw [hdigits, List.length_append, hlength]
        exact Nat.lt_succ_self n
      rw [digitsOf, if_pos hlonger, hdigits, List.take_left' hlength]
    · rw [scientific, hlength, hpow]
      push_cast
      rw [show p + 1 - ((n : ℤ) - 1) = p - (n - 1) + 1 by ring, zpow_add₀ (by norm_num)]
      ring

/-- The decimal below a value has as many digits as the grid. -/
theorem below_digits {p : ℤ} (hlow : (10 : ℚ) ^ p ≤ magnitude mant exp)
    (hhigh : magnitude mant exp < (10 : ℚ) ^ (p + 1)) (i : ℕ) :
    10 ^ i ≤ below mant exp (p - i) ∧ below mant exp (p - i) < 10 ^ (i + 1) := by
  obtain ⟨hle, hlt⟩ := below_bounds mant exp (p - i)
  have hten : (10 : ℚ) ≠ 0 := by norm_num
  have hpow : (0 : ℚ) < 10 ^ (p - (i : ℤ)) := zpow_pos (by norm_num) _
  constructor
  · have h : (10 : ℚ) ^ i * 10 ^ (p - (i : ℤ)) <
        (below mant exp (p - i) + 1) * 10 ^ (p - (i : ℤ)) := by
      rw [← zpow_natCast, ← zpow_add₀ hten, add_sub_cancel]
      exact hlow.trans_lt hlt
    rw [mul_lt_mul_iff_left₀ hpow] at h
    exact Nat.le_of_lt_succ (by exact_mod_cast h)
  · have h : (below mant exp (p - i) : ℚ) * 10 ^ (p - (i : ℤ))
        < (10 : ℚ) ^ (i + 1) * 10 ^ (p - (i : ℤ)) := by
      rw [← zpow_natCast, ← zpow_add₀ hten]
      push_cast
      rw [show (i : ℤ) + 1 + (p - i) = p + 1 by ring]
      exact hle.trans_lt hhigh
    rw [mul_lt_mul_iff_left₀ hpow] at h
    exact_mod_cast h

/-- **A value is shown with the digits of a number that is rounded back to it.** -/
theorem exists_shortest_eq (hfields : IsFields mant exp) (hmant : mant ≠ 0) :
    ∃ c p, shortest mant exp = ⟨Nat.toDigits 10 c, p⟩ ∧ c ≠ 0 ∧ -324 ≤ p ∧ p ≤ 309 ∧
      IsNear (scientific c p) mant exp := by
  -- Seventeen digits are always enough, so the search finds some.
  obtain ⟨ds, hds⟩ : ∃ ds, (List.range 17).findSome?
      (fun i => nearest? mant exp (decimalExponent mant exp) (i + 1)) = some ds := by
    rw [← Option.isSome_iff_exists, List.isSome_findSome?, List.any_eq_true]
    exact ⟨16, by decide, Option.isSome_iff_ne_none.mpr (nearest?_ne_none hfields hmant)⟩
  obtain ⟨i, -, hi⟩ := List.exists_of_findSome?_eq_some hds
  obtain ⟨hnone, -⟩ | ⟨c, hc, hnear, hcases⟩ :=
    nearest?_cases mant exp (decimalExponent mant exp) (i + 1)
  · rw [hi] at hnone
    exact absurd hnone (by simp)
  rw [hi, Option.some.injEq] at hc
  set p := decimalExponent mant exp with hp
  have hshift : p - (((i + 1 : ℕ) : ℤ) - 1) = p - i := by push_cast; ring
  rw [hshift] at hnear hcases
  obtain ⟨hlow, hhigh⟩ := decimalExponent_bounds hfields hmant
  obtain ⟨hdigits, hdigits'⟩ := below_digits hlow hhigh i
  rw [← hp] at hdigits hdigits'
  obtain ⟨c', p', heq, hne, hp', hvalue⟩ :=
    exists_digitsOf_eq p (n := i + 1) (c := c) (Nat.succ_pos i) (by simp; omega) (by omega)
  have hrange := decimalExponent_range hfields hmant
  refine ⟨c', p', ?_, hne, by omega, by omega, ?_⟩
  · rw [shortest, ← hp, hds, Option.getD_some, hc, heq]
  · rwa [hvalue, hshift]

end

end ScriptLint.Binary64
