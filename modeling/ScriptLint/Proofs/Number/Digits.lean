import ScriptLint.Proofs.Text.Utf8
import Mathlib.Data.Nat.Digits.Defs

/-!
# Decimal digits

The decimal digits of a number are read back as it (`Nat.ofDigitChars_ten_toDigits` of the library),
and they start with a zero for zero only.
-/

namespace ScriptLint

/-- An integer in decimal, with a sign only below zero. -/
def intText : Int → Text
  | .ofNat n => Nat.toDigits 10 n
  | .negSucc n => '-' :: Nat.toDigits 10 (n + 1)

theorem encode_intText (n : Int) : Utf8.encode (intText n) = intBytes n := by
  cases n <;> rfl

theorem toList_toString_int (n : Int) : (toString n).toList = intText n := by
  cases n with
  | ofNat n =>
    show (toString n).toList = _
    rw [Nat.toString_eq_ofList_toDigits, String.toList_ofList]
    rfl
  | negSucc n =>
    show ("-" ++ toString (n + 1)).toList = _
    simp only [String.toList_append, Nat.toString_eq_ofList_toDigits, String.toList_ofList]
    rfl

theorem isDigit_of_mem_toDigits {n : ℕ} {c : Char} (h : c ∈ Nat.toDigits 10 n) :
    c.isDigit = true := Nat.isDigit_of_mem_toDigits (by decide) (Nat.le_refl 10) h

/-- Decimal digits start with a zero for zero only. -/
theorem toDigits_eq_of_head? {n : ℕ} (h : (Nat.toDigits 10 n).head? = some '0') :
    Nat.toDigits 10 n = ['0'] := by
  induction n using Nat.strongRecOn with
  | ind n ih =>
    by_cases hn : n < 10
    · rw [Nat.toDigits_of_lt_base hn, List.head?_cons, Option.some.injEq] at h
      rw [Nat.toDigits_of_lt_base hn, h]
    · rw [Nat.toDigits_of_base_le (by decide) (Nat.le_of_not_lt hn),
        List.head?_append_of_ne_nil _ Nat.toDigits_ne_nil] at h
      have hzero := congrArg (Nat.ofDigitChars 10 · 0) (ih (n / 10) (by omega) h)
      rw [Nat.ofDigitChars_ten_toDigits] at hzero
      have : n / 10 = 0 := hzero
      omega

end ScriptLint
