import ScriptLint.Text.Utf8
import Mathlib.Data.List.Lex
import Mathlib.Order.Lattice

/-!
# Byte strings

Joining with a separator and splitting at it are inverse to each other (`splitBytes_joinBytes`), and
the byte order is the lexicographic order of the byte values (`bytesLt_iff`), from which it takes
the laws of a linear order. Sorting by it gives the same list for every order of the same byte
strings (`sortBytes_eq_of_perm`).
-/

namespace ScriptLint

/-! ### Splitting and joining -/

theorem joinBytes_eq_intercalate (sep : Bytes) (parts : List Bytes) :
    joinBytes sep parts = sep.intercalate parts := by
  induction parts with
  | nil => rfl
  | cons p ps ih =>
    cases ps with
    | nil => simp [joinBytes]
    | cons q qs =>
      rw [joinBytes, ih, List.intercalate_cons_cons, List.append_assoc]
      simp

theorem splitBytes_eq_splitOn (sep : UInt8) (b : Bytes) : splitBytes sep b = b.splitOn sep := by
  induction b with
  | nil => rfl
  | cons c r ih =>
    rw [splitBytes, ih, List.splitOn_eq_splitOnP, List.splitOn_eq_splitOnP,
      List.splitOnP_cons_eq_if_modifyHead]
    by_cases h : c = sep
    · simp [h]
    · rw [if_neg h, if_neg (by simpa using h)]
      cases hs : r.splitOnP (· == sep) with
      | nil => exact absurd hs (List.splitOnP_ne_nil _ _)
      | cons p ps => rfl

theorem splitBytes_ne_nil (sep : UInt8) (b : Bytes) : splitBytes sep b ≠ [] := by
  rw [splitBytes_eq_splitOn]
  exact List.splitOnP_ne_nil _ _

/-- Parts without the separator are found again in what joins them. -/
theorem splitBytes_joinBytes {sep : UInt8} {parts : List Bytes} (hne : parts ≠ [])
    (h : ∀ p ∈ parts, sep ∉ p) : splitBytes sep (joinBytes [sep] parts) = parts := by
  rw [splitBytes_eq_splitOn, joinBytes_eq_intercalate]
  exact List.splitOn_intercalate sep h hne

/-- What joins two byte strings at a separator is split there. -/
theorem splitBytes_append_cons (sep : UInt8) (a b : Bytes) :
    splitBytes sep (a ++ sep :: b) = splitBytes sep a ++ splitBytes sep b := by
  induction a with
  | nil => simp [splitBytes]
  | cons c a ih =>
    rw [List.cons_append, splitBytes, splitBytes, ih]
    split_ifs with hc
    · rfl
    · cases hs : splitBytes sep a with
      | nil => exact absurd hs (splitBytes_ne_nil sep a)
      | cons p ps => rfl

/-- The parts between separators do not hold it. -/
theorem not_mem_of_mem_splitBytes {sep : UInt8} {b p : Bytes} (h : p ∈ splitBytes sep b) :
    sep ∉ p := by
  induction b generalizing p with
  | nil =>
    rw [splitBytes, List.mem_singleton] at h
    rw [h]
    exact List.not_mem_nil
  | cons c r ih =>
    rw [splitBytes] at h
    split_ifs at h with hc
    · rcases List.mem_cons.mp h with rfl | h
      · exact List.not_mem_nil
      · exact ih h
    · split at h
      · rw [List.mem_singleton] at h
        rw [h, List.mem_singleton]
        exact Ne.symm hc
      · rename_i q qs hsplit
        rcases List.mem_cons.mp h with rfl | h
        · rw [List.mem_cons, not_or]
          exact ⟨Ne.symm hc, ih (by rw [hsplit]; exact List.mem_cons_self ..)⟩
        · exact ih (by rw [hsplit]; exact List.mem_cons_of_mem _ h)

/-! ### Byte order -/

/-- A byte string as a list of numbers, by which it is ordered. -/
def byteKey (b : Bytes) : List ℕ := b.map UInt8.toNat

theorem byteKey_injective : Function.Injective byteKey :=
  List.map_injective_iff.mpr fun _ _ => UInt8.toNat_inj.mp

/-- **The byte order is the lexicographic order of byte values.** -/
theorem bytesLt_iff (a b : Bytes) : bytesLt a b = true ↔ byteKey a < byteKey b := by
  induction a generalizing b with
  | nil =>
    cases b with
    | nil => simp [bytesLt, byteKey]
    | cons y ys => simp [bytesLt, byteKey]
  | cons x xs ih =>
    cases b with
    | nil => simp [bytesLt, byteKey]
    | cons y ys =>
      simp only [bytesLt, Bool.or_eq_true, Bool.and_eq_true, decide_eq_true_eq, beq_iff_eq, ih,
        byteKey, List.map_cons, List.cons_lt_cons_iff, UInt8.lt_iff_toNat_lt, UInt8.toNat_inj]

theorem bytesLt_eq_false_iff (a b : Bytes) : bytesLt b a = false ↔ byteKey a ≤ byteKey b := by
  rw [← Bool.not_eq_true, bytesLt_iff, not_lt]

/-! ### Sorting -/

/-- Sorting by an order that is that of keys leaves the keys in order. -/
theorem pairwise_mergeSort_of_key {α κ : Type} [LinearOrder κ] {lt : α → α → Bool} {key : α → κ}
    (hlt : ∀ a b, lt a b = true ↔ key a < key b) (as : List α) :
    (as.mergeSort fun a b => !lt b a).Pairwise fun a b => key a ≤ key b := by
  have hle (a b : α) : (!lt b a) = true ↔ key a ≤ key b := by
    rw [Bool.not_eq_true', ← Bool.not_eq_true, hlt, not_lt]
  refine (List.pairwise_mergeSort ?_ ?_ as).imp fun h => (hle _ _).mp h
  · intro a b c hab hbc
    rw [hle] at hab hbc ⊢
    exact hab.trans hbc
  · intro a b
    rw [Bool.or_eq_true, hle, hle]
    exact le_total _ _

theorem sortBytes_perm (names : List Bytes) : (sortBytes names).Perm names :=
  List.mergeSort_perm _ _

/-- Sorted byte strings stand in byte order. -/
theorem pairwise_sortBytes (names : List Bytes) :
    (sortBytes names).Pairwise fun a b => bytesLt b a = false :=
  (pairwise_mergeSort_of_key bytesLt_iff names).imp (bytesLt_eq_false_iff _ _).mpr

/-- **Sorting forgets the order** in which byte strings are listed. -/
theorem sortBytes_eq_of_perm {names names' : List Bytes} (h : names.Perm names') :
    sortBytes names = sortBytes names' := by
  have hperm : (sortBytes names).Perm (sortBytes names') :=
    (sortBytes_perm names).trans (h.trans (sortBytes_perm names').symm)
  refine hperm.eq_of_pairwise (fun a b _ _ hab hba => ?_) (pairwise_sortBytes _)
    (pairwise_sortBytes _)
  rw [bytesLt_eq_false_iff] at hab hba
  exact byteKey_injective (le_antisymm hab hba)

end ScriptLint
