import ScriptLint.Text.Fold
import Mathlib.Data.Int.Notation
import Mathlib.Data.List.Basic

/-!
# Texts that agree up to letter case

Two characters agree when they fold to the same code point, and two texts agree (`Fold.Agrees`) when
they do so character by character. Stripping a pattern finds exactly the fronts of a text that agree
with it (`Fold.strip?_eq_some_iff`).

Besides the ASCII characters only the long s and the Kelvin sign fold to one of them
(`Fold.codePoint_ascii`), so no character agrees with a blank but the blank itself. Lowering a
character to an ASCII letter is the same as folding it (`Fold.codePoint_eq_toNat_lowerAscii`), but
for the dotted capital I, which lowers to `i` and agrees with no other character.
-/

namespace ScriptLint.Fold

/-! ### Code points -/

/-- A code point stays where it is, or is moved by a run that it lies in. -/
theorem codePoint_cases (n : ℕ) : codePoint n = n ∨
    ∃ r ∈ runs, r.1 ≤ n ∧ n ≤ r.2.1 ∧ codePoint n = (n + r.2.2.2).toNat := by
  unfold codePoint
  split
  · rename_i r hr
    have hin := List.find?_some hr
    simp only [Bool.and_eq_true, decide_eq_true_eq] at hin
    exact .inr ⟨r, List.mem_of_find?_eq_some hr, hin.1.1, hin.1.2, rfl⟩
  · exact .inl rfl

/-- The ASCII code points fold to their lower-case forms. -/
theorem codePoint_of_lt {n : ℕ} (h : n < 0x80) :
    codePoint n = if 0x41 ≤ n ∧ n ≤ 0x5A then n + 0x20 else n := by
  -- The first run holds the capitals, and the others start behind the ASCII code points.
  have hruns : runs = (0x41, 0x5A, 1, 32) :: runs.tail := rfl
  have htail : ∀ r ∈ runs.tail, 0x80 ≤ r.1 := by decide +kernel
  have hnone : runs.tail.find? (fun r => r.1 ≤ n && n ≤ r.2.1 && (n - r.1) % r.2.2.1 == 0)
      = none := by
    refine List.find?_eq_none.mpr fun r hr hin => ?_
    simp only [Bool.and_eq_true, decide_eq_true_eq] at hin
    have := htail r hr
    omega
  rw [codePoint, hruns]
  by_cases hcapital : 0x41 ≤ n ∧ n ≤ 0x5A
  · rw [List.find?_cons_of_pos (by simp [hcapital, Nat.mod_one]), if_pos hcapital]
    exact Int.toNat_natCast (n + 0x20)
  · rw [List.find?_cons_of_neg (by simpa [Nat.mod_one] using hcapital), hnone,
      if_neg hcapital]

/-- **What folds to an ASCII code point** is ASCII itself, the long s or the Kelvin sign. -/
theorem codePoint_ascii {n : ℕ} (h : codePoint n < 0x80) :
    n < 0x80 ∨ n = 0x17F ∧ codePoint n = 0x73 ∨ n = 0x212A ∧ codePoint n = 0x6B := by
  have hruns : ∀ r ∈ runs, (r.1 + r.2.2.2 : ℤ) < 0x80 →
      r.2.1 < 0x80 ∨ r.1 = 0x17F ∧ r.2.1 = 0x17F ∨ r.1 = 0x212A ∧ r.2.1 = 0x212A := by
    decide +kernel
  rcases codePoint_cases n with hstay | ⟨r, hr, hfirst, hlast, hmoved⟩
  · exact .inl (hstay ▸ h)
  · rcases hruns r hr (by omega) with hascii | ⟨h1, h2⟩ | ⟨h1, h2⟩
    · exact .inl (by omega)
    · obtain rfl : n = 0x17F := by omega
      exact .inr (.inl ⟨rfl, by decide⟩)
    · obtain rfl : n = 0x212A := by omega
      exact .inr (.inr ⟨rfl, by decide⟩)

/-- Nothing but the dotted capital I folds to it. -/
theorem codePoint_eq_dotted_iff {n : ℕ} : codePoint n = 0x130 ↔ n = 0x130 := by
  have hruns : ∀ r ∈ runs, (r.2.1 + r.2.2.2 : ℤ) < 0x130 ∨ (0x130 : ℤ) < r.1 + r.2.2.2 := by
    decide +kernel
  constructor
  · intro h
    rcases codePoint_cases n with hstay | ⟨r, hr, hfirst, hlast, hmoved⟩
    · exact hstay ▸ h
    · rcases hruns r hr with hbelow | habove
      · omega
      · omega
  · rintro rfl
    decide

/-- **Lowering is folding** where it leads to an ASCII character, but for the dotted capital I. -/
theorem codePoint_eq_toNat_lowerAscii {c : Char} (hc : c ≠ '\u0130')
    (h : (lowerAscii c).toNat < 0x80) : codePoint c.toNat = (lowerAscii c).toNat := by
  have hall : ∀ m < 0x80, (if 0x41 ≤ m ∧ m ≤ 0x5A then m + 0x20 else m)
      = (Char.ofNat m).toLower.toNat := by
    decide
  have hdotted : c.toNat ≠ 0x130 := fun hn => hc (Char.toNat_inj.mp hn)
  rw [lowerAscii, if_neg hdotted] at h ⊢
  split_ifs at h ⊢ with hkelvin
  · rw [hkelvin]
    decide
  · -- Of the other characters none but an ASCII one lowers to an ASCII one.
    have hascii : c.toNat < 0x80 := by
      by_contra hlarge
      have hcapital : ¬ (c.val ≥ 'A'.val ∧ c.val ≤ 'Z'.val) := by
        rintro ⟨-, hle⟩
        have : c.toNat ≤ 0x5A := UInt32.le_iff_toNat_le.mp hle
        omega
      have hstays : c.toLower = c := dif_neg hcapital
      rw [hstays] at h
      exact hlarge h
    rw [codePoint_of_lt hascii, hall c.toNat hascii, Char.ofNat_toNat]

theorem same_iff {a b : Char} :
    same a b = true ↔ codePoint a.toNat = codePoint b.toNat := by
  simp only [same, Bool.or_eq_true, beq_iff_eq]
  constructor
  · rintro (rfl | h)
    · rfl
    · exact h
  · exact .inr

/-! ### Texts -/

/-- The code points that the characters of a text fold to. -/
def folded (t : Text) : List ℕ := t.map fun c => codePoint c.toNat

/-- Whether two texts agree up to letter case. -/
def Agrees (s t : Text) : Prop := folded s = folded t

instance (s t : Text) : Decidable (Agrees s t) := inferInstanceAs (Decidable (folded s = folded t))

theorem Agrees.length_eq {s t : Text} (h : Agrees s t) : s.length = t.length := by
  have hlength := congrArg List.length h
  rwa [folded, folded, List.length_map, List.length_map] at hlength

theorem agrees_nil_iff {t : Text} : Agrees [] t ↔ t = [] := by
  rw [Agrees, folded, folded, List.map_nil, eq_comm, List.map_eq_nil_iff]

theorem agrees_cons_iff {p : Char} {ps t : Text} :
    Agrees (p :: ps) t ↔
      ∃ c cs, t = c :: cs ∧ codePoint p.toNat = codePoint c.toNat ∧ Agrees ps cs := by
  cases t with
  | nil => simp [Agrees, folded]
  | cons c cs => simp [Agrees, folded]

/-- **Stripping a pattern finds the front that agrees with it.** -/
theorem strip?_eq_some_iff {p t r : Text} :
    strip? p t = some r ↔ ∃ front, t = front ++ r ∧ Agrees p front := by
  induction p generalizing t with
  | nil => simp [strip?, agrees_nil_iff]
  | cons p ps ih =>
    cases t with
    | nil => simp [strip?, agrees_cons_iff]
    | cons c cs =>
      rw [strip?]
      split_ifs with hsame
      · rw [ih]
        constructor
        · rintro ⟨front, rfl, hfront⟩
          exact ⟨c :: front, rfl, agrees_cons_iff.mpr ⟨c, front, rfl, same_iff.mp hsame, hfront⟩⟩
        · rintro ⟨front, hsplit, hfront⟩
          obtain ⟨d, ds, rfl, -, hds⟩ := agrees_cons_iff.mp hfront
          exact ⟨ds, (List.cons.inj hsplit).2, hds⟩
      · refine iff_of_false (by simp) ?_
        rintro ⟨front, hsplit, hfront⟩
        obtain ⟨d, ds, rfl, hd, -⟩ := agrees_cons_iff.mp hfront
        obtain ⟨rfl, -⟩ := List.cons.inj hsplit
        exact hsame (same_iff.mpr hd)

theorem Agrees.reverse {s t : Text} (h : Agrees s t) : Agrees s.reverse t.reverse := by
  rw [Agrees, folded, folded, List.map_reverse, List.map_reverse]
  exact congrArg List.reverse h

/-- Patterns that agree are stripped alike. -/
theorem strip?_congr {p p' : Text} (h : Agrees p p') (t : Text) : strip? p t = strip? p' t := by
  ext r
  simp only [strip?_eq_some_iff, Agrees, show folded p = folded p' from h]

end ScriptLint.Fold
