import ScriptLint.Proofs.Text.Utf8
import ScriptLint.Script.Encoding

/-!
# UTF-16 is read back as it is written

The units of a text are well-formed: each surrogate is one half of a pair. Joining them gives back
the text (`Utf16.join_flatMap_encodeChar`), and bytes are those of a text exactly if they make up
whole units and these are well-formed (`Utf16.exists_eq_encode_iff`), in either byte order. Of units
that are not well-formed joining makes a text too, but one with the replacement character in it
(`Utf16.replacement_mem_join`), which no longer tells what the units were.
-/

namespace ScriptLint.Utf16

/-! ### Units and bytes -/

theorem units_flatMap_unitBytes (order : ByteOrder) {us : List Nat} (h : ∀ u ∈ us, u < 0x10000) :
    units order (us.flatMap (unitBytes order)) = us := by
  induction us with
  | nil => rfl
  | cons u us ih =>
    rw [List.forall_mem_cons] at h
    have hlow : (u % 0x100).toUInt8.toNat = u % 0x100 := toNat_toUInt8 (by omega)
    have hhigh : (u / 0x100).toUInt8.toNat = u / 0x100 := toNat_toUInt8 (by omega)
    rw [List.flatMap_cons]
    cases order with
    | little =>
      simp only [unitBytes, List.cons_append, List.nil_append, units, unit, hlow, hhigh,
        ih h.2, List.cons.injEq, and_true]
      omega
    | big =>
      simp only [unitBytes, List.cons_append, List.nil_append, units, unit, hlow, hhigh,
        ih h.2, List.cons.injEq, and_true]
      omega

/-- The bytes of a unit are those it was made of. -/
theorem unitBytes_unit (order : ByteOrder) (a b : UInt8) :
    unitBytes order (unit order a b) = [a, b] := by
  have ha := a.toNat_lt
  have hb := b.toNat_lt
  cases order with
  | little =>
    simp only [unitBytes, unit]
    rw [(toUInt8_eq_iff (by omega) a).mpr (by omega), (toUInt8_eq_iff (by omega) b).mpr (by omega)]
  | big =>
    simp only [unitBytes, unit]
    rw [(toUInt8_eq_iff (by omega) a).mpr (by omega), (toUInt8_eq_iff (by omega) b).mpr (by omega)]

/-- An even number of bytes is made up of its units. -/
theorem flatMap_unitBytes_units (order : ByteOrder) {bs : Bytes} (h : bs.length % 2 = 0) :
    (units order bs).flatMap (unitBytes order) = bs := by
  fun_induction units order bs with
  | case1 a b r ih =>
    rw [List.length_cons, List.length_cons] at h
    rw [List.flatMap_cons, unitBytes_unit, ih (by omega)]
    rfl
  | case2 bs hbs =>
    match bs with
    | [] => rfl
    | [a] => simp at h
    | a :: b :: r => exact absurd rfl (hbs a b r)

theorem lt_of_mem_units {order : ByteOrder} {bs : Bytes} {u : Nat} (h : u ∈ units order bs) :
    u < 0x10000 := by
  fun_induction units order bs with
  | case1 a b r ih =>
    rcases List.mem_cons.mp h with rfl | h
    · have ha := a.toNat_lt
      have hb := b.toNat_lt
      cases order with
      | little => simp only [unit]; omega
      | big => simp only [unit]; omega
    · exact ih h
  | case2 => exact absurd h List.not_mem_nil

/-! ### Surrogates -/

/-- A unit that stands for no character of its own. -/
def isSurrogate (u : Nat) : Bool := isHigh u || isLow u

theorem isSurrogate_eq_false_iff {u : Nat} :
    isSurrogate u = false ↔ u < 0xD800 ∨ 0xDFFF < u := by
  simp only [isSurrogate, isHigh, isLow, Bool.or_eq_false_iff, Bool.and_eq_false_iff,
    decide_eq_false_iff_not]
  omega

theorem isHigh_iff {u : Nat} : isHigh u = true ↔ 0xD800 ≤ u ∧ u < 0xDC00 := by
  simp only [isHigh, Bool.and_eq_true, decide_eq_true_eq]

theorem isLow_iff {u : Nat} : isLow u = true ↔ 0xDC00 ≤ u ∧ u < 0xE000 := by
  simp only [isLow, Bool.and_eq_true, decide_eq_true_eq]

/-- Well-formed lists of units: each surrogate is one half of a pair. -/
inductive WellFormed : List Nat → Prop where
  | nil : WellFormed []
  | single {u : Nat} {us : List Nat} (bound : u < 0x10000) (lone : isSurrogate u = false) :
    WellFormed us → WellFormed (u :: us)
  | pair {u v : Nat} {us : List Nat} (high : isHigh u = true) (low : isLow v = true) :
    WellFormed us → WellFormed (u :: v :: us)

/-! ### Joining, unit by unit -/

theorem join_single {u : Nat} (h : isSurrogate u = false) (us : List Nat) :
    join (u :: us) = Char.ofNat u :: join us := by
  rw [isSurrogate] at h
  cases us with
  | nil => simp only [join, h, Bool.false_eq_true, if_false]
  | cons v r => simp only [join, h, Bool.false_eq_true, if_false]

theorem join_pair {u v : Nat} (hu : isHigh u = true) (hv : isLow v = true) (us : List Nat) :
    join (u :: v :: us) = pair u v :: join us := by
  simp only [join, hu, hv, Bool.true_or, if_true]

theorem toNat_ofNat {n : Nat} (h : n.isValidChar) : (Char.ofNat n).toNat = n := by
  rw [Char.ofNat, dif_pos h]
  rfl

theorem toNat_pair {u v : Nat} (hu : isHigh u = true) (hv : isLow v = true) :
    (pair u v).toNat = 0x10000 + (u - 0xD800) * 0x400 + (v - 0xDC00) := by
  rw [isHigh_iff] at hu
  rw [isLow_iff] at hv
  exact toNat_ofNat (.inr (by omega))

/-! ### Texts -/

theorem join_encodeChar_append (c : Char) (us : List Nat) :
    join (encodeChar c ++ us) = c :: join us := by
  have hc := Utf8.toNat_bounds c
  unfold encodeChar
  split_ifs with h
  · rw [List.singleton_append, join_single (isSurrogate_eq_false_iff.mpr (by omega)),
      Char.ofNat_toNat]
  · -- The two halves of the pair hold ten bits each of what goes beyond the basic plane.
    have hu : isHigh (0xD800 + (c.toNat - 0x10000) / 0x400) = true := isHigh_iff.mpr (by omega)
    have hv : isLow (0xDC00 + (c.toNat - 0x10000) % 0x400) = true := isLow_iff.mpr (by omega)
    have hpair : pair (0xD800 + (c.toNat - 0x10000) / 0x400)
        (0xDC00 + (c.toNat - 0x10000) % 0x400) = c := by
      apply Char.toNat_inj.mp
      rw [toNat_pair hu hv]
      omega
    rw [List.cons_append, List.singleton_append, join_pair hu hv, hpair]

/-- **The units of a text are joined to that text.** -/
theorem join_flatMap_encodeChar (t : Text) : join (t.flatMap encodeChar) = t := by
  induction t with
  | nil => rfl
  | cons c t ih => rw [List.flatMap_cons, join_encodeChar_append, ih]

theorem wellFormed_encodeChar_append (c : Char) {us : List Nat} (h : WellFormed us) :
    WellFormed (encodeChar c ++ us) := by
  have hc := Utf8.toNat_bounds c
  unfold encodeChar
  split_ifs with hbasic
  · exact .single hbasic (isSurrogate_eq_false_iff.mpr (by omega)) h
  · exact .pair (isHigh_iff.mpr (by omega)) (isLow_iff.mpr (by omega)) h

theorem wellFormed_flatMap_encodeChar (t : Text) : WellFormed (t.flatMap encodeChar) := by
  induction t with
  | nil => exact .nil
  | cons c t ih => exact wellFormed_encodeChar_append c ih

/-- **Well-formed units are those of the text that they are joined to.** -/
theorem WellFormed.flatMap_encodeChar_join {us : List Nat} (h : WellFormed us) :
    (join us).flatMap encodeChar = us := by
  induction h with
  | nil => rfl
  | @single u us bound lone _ ih =>
    have hvalid : u.isValidChar := by
      have hu := isSurrogate_eq_false_iff.mp lone
      rw [Nat.isValidChar]
      omega
    have hchar : encodeChar (Char.ofNat u) = [u] := by
      rw [encodeChar, toNat_ofNat hvalid, if_pos bound]
    rw [join_single lone, List.flatMap_cons, hchar, ih, List.singleton_append]
  | @pair u v us high low _ ih =>
    have hu := isHigh_iff.mp high
    have hv := isLow_iff.mp low
    have hchar : encodeChar (Utf16.pair u v) = [u, v] := by
      rw [encodeChar, toNat_pair high low, if_neg (by omega), List.cons.injEq, List.cons.injEq]
      exact ⟨by omega, by omega, rfl⟩
    rw [join_pair high low, List.flatMap_cons, hchar, ih]
    rfl

/-- **What is not well-formed shows as a replacement character.** -/
theorem replacement_mem_join {us : List Nat} (hbound : ∀ u ∈ us, u < 0x10000)
    (h : ¬ WellFormed us) : replacement ∈ join us := by
  fun_induction join us with
  | case1 => exact absurd .nil h
  | case2 u =>
    rw [List.forall_mem_singleton] at hbound
    split_ifs with hu
    · exact List.mem_singleton.mpr rfl
    · exact absurd (.single hbound (Bool.eq_false_iff.mpr hu) .nil) h
  | case3 u v r hu hv ih =>
    split_ifs with hhigh
    · -- The two units make a pair, so that the fault lies behind them.
      have hr : ¬ WellFormed r := fun hr => h (.pair hhigh hv hr)
      simp only [List.forall_mem_cons] at hbound
      exact List.mem_cons_of_mem _ (ih hbound.2.2 hr)
    · exact List.mem_cons_self ..
  | case4 => exact List.mem_cons_self ..
  | case5 u v r hu ih =>
    rw [List.forall_mem_cons] at hbound
    have hr : ¬ WellFormed (v :: r) := fun hr => h (.single hbound.1 (Bool.eq_false_iff.mpr hu) hr)
    exact List.mem_cons_of_mem _ (ih hbound.2 hr)

/-! ### Stored texts -/

theorem lt_of_mem_flatMap_encodeChar {t : Text} {u : Nat} (h : u ∈ t.flatMap encodeChar) :
    u < 0x10000 := by
  obtain ⟨c, -, hu⟩ := List.mem_flatMap.mp h
  have hc := Utf8.toNat_bounds c
  unfold encodeChar at hu
  split_ifs at hu with hbasic
  · rw [List.mem_singleton] at hu
    omega
  · rw [List.mem_cons, List.mem_singleton] at hu
    omega

/-- The bytes of a text hold its units. -/
theorem units_encode (order : ByteOrder) (t : Text) :
    units order (encode order t) = t.flatMap encodeChar :=
  units_flatMap_unitBytes order fun _ => lt_of_mem_flatMap_encodeChar

theorem even_length_encode (order : ByteOrder) (t : Text) : (encode order t).length % 2 = 0 := by
  rw [encode]
  induction t.flatMap encodeChar with
  | nil => rfl
  | cons u us ih =>
    have hbytes : (unitBytes order u).length = 2 := by cases order <;> rfl
    rw [List.flatMap_cons, List.length_append, hbytes]
    omega

/-- **Bytes are those of a text exactly if there is an even number of them and their units are
well-formed.** -/
theorem exists_eq_encode_iff (order : ByteOrder) (bs : Bytes) :
    (∃ t, bs = encode order t) ↔ bs.length % 2 = 0 ∧ WellFormed (units order bs) := by
  constructor
  · rintro ⟨t, rfl⟩
    refine ⟨even_length_encode order t, ?_⟩
    rw [units_encode]
    exact wellFormed_flatMap_encodeChar t
  · rintro ⟨heven, hwell⟩
    refine ⟨join (units order bs), ?_⟩
    rw [encode, hwell.flatMap_encodeChar_join, flatMap_unitBytes_units order heven]

end ScriptLint.Utf16
