import ScriptLint.Proofs.Yaml.Decimal

/-!
# Reading back the text of a timestamp

The interchange form of a timestamp is read back as the same timestamp
(`Timestamp.parse?_interchange`) as long as its offset is below 25 hours. The reader takes a zone of
`24:60`, whose offset is written `25:00` and refused.
-/

namespace ScriptLint

namespace Timestamp

open Yaml Binary64

/-- Whether the fields are those of a date and a time of day. -/
structure IsValid (s : Timestamp) : Prop where
  year : s.year < 10000
  month : 1 ≤ s.month ∧ s.month ≤ 12
  day : 1 ≤ s.day ∧ s.day ≤ daysIn s.year s.month
  hour : s.hour < 24
  minute : s.minute < 60
  second : s.second < 60
  nano : s.nano < 1000000000

theorem daysIn_le (year month : ℕ) : daysIn year month ≤ 31 := by
  unfold daysIn
  split_ifs <;> decide

/-! ### Numbers of a fixed width -/

theorem digitsNat_padded (width n : ℕ) : digitsNat (padded width n) = n :=
  (digitsNat_zeros_append _ _).trans (digitsNat_toDigits n)

theorem isDigit_of_mem_padded {width n : ℕ} {c : Char} (h : c ∈ padded width n) :
    c.isDigit = true := by
  rcases List.mem_append.mp h with h | h
  · exact isDigit_of_mem_zeros h
  · exact isDigit_of_mem_toDigits h

theorem length_padded {width n : ℕ} (hwidth : 0 < width) (hn : n < 10 ^ width) :
    (padded width n).length = width := by
  have := (Nat.length_toDigits_le_iff (b := 10) (by decide) hwidth).mpr hn
  rw [padded, List.length_append, List.length_replicate]
  omega

theorem digit?_of_isDigit {c : Char} (h : c.isDigit = true) : digit? c = some (digitsNat [c]) := by
  rw [digit?, if_pos h, digitsNat, List.foldl_cons, Nat.zero_mul, Nat.zero_add]
  rfl

/-- A number below a hundred is written with two digits. -/
theorem exists_padded_two {n : ℕ} (hn : n < 100) :
    ∃ a b x y, padded 2 n = [a, b] ∧ digit? a = some x ∧ digit? b = some y ∧ x * 10 + y = n := by
  have hlength := length_padded (by decide : 0 < 2) hn
  obtain ⟨a, b, hab⟩ := List.length_eq_two.mp hlength
  have hvalue := digitsNat_padded 2 n
  have hdigit : ∀ c ∈ [a, b], c.isDigit = true := fun c hc => isDigit_of_mem_padded (hab ▸ hc)
  rw [List.forall_mem_cons, List.forall_mem_singleton] at hdigit
  refine ⟨a, b, _, _, hab, digit?_of_isDigit hdigit.1, digit?_of_isDigit hdigit.2, ?_⟩
  rw [hab, show [a, b] = [a] ++ [b] from rfl, digitsNat_append] at hvalue
  simpa using hvalue

theorem short?_padded {n : ℕ} (hn : n < 100) (r : Text) :
    short? (padded 2 n ++ r) = some (n, r) := by
  obtain ⟨a, b, x, y, htext, ha, hb, rfl⟩ := exists_padded_two hn
  rw [htext]
  simp [short?, ha, hb]

theorem two?_padded {n : ℕ} (hn : n < 100) (r : Text) : two? (padded 2 n ++ r) = some (n, r) := by
  obtain ⟨a, b, x, y, htext, ha, hb, rfl⟩ := exists_padded_two hn
  rw [htext]
  simp [two?, ha, hb]

@[simp]
theorem expect?_cons (c : Char) (r : Text) : expect? c (c :: r) = some r := if_pos rfl

/-! ### The parts -/

/-- The text of a date. -/
def dateText (s : Timestamp) : Text :=
  padded 4 s.year ++ '-' :: padded 2 s.month ++ '-' :: padded 2 s.day

/-- The text of a time of day. -/
def clockText (s : Timestamp) : Text :=
  padded 2 s.hour ++ ':' :: padded 2 s.minute ++ ':' :: padded 2 s.second ++ fractionText s.nano

/-- The text of a zone. -/
def zoneText (offset : Int) : Text := if offset = 0 then ['Z'] else offsetText [':'] offset

theorem interchange_eq (s : Timestamp) :
    interchange s = dateText s ++ 'T' :: (clockText s ++ zoneText s.offset) := by
  simp only [interchange, dateTimeText, dateText, clockText, zoneText, List.append_assoc,
    List.cons_append]

theorem date?_dateText {s : Timestamp} (hs : s.IsValid) (r : Text) :
    date? (dateText s ++ r) = some ({ year := s.year, month := s.month, day := s.day }, r) := by
  have hlength := length_padded (by decide : 0 < 4) hs.year
  have htext : dateText s ++ r
      = padded 4 s.year ++ ('-' :: (padded 2 s.month ++ ('-' :: (padded 2 s.day ++ r)))) := by
    simp only [dateText, List.append_assoc, List.cons_append]
  have htake : (dateText s ++ r).take 4 = padded 4 s.year := by
    rw [htext, List.take_left' hlength]
  have hdrop : (dateText s ++ r).drop 4
      = '-' :: (padded 2 s.month ++ ('-' :: (padded 2 s.day ++ r))) := by
    rw [htext, List.drop_left' hlength]
  have hall : (padded 4 s.year).all Char.isDigit = true :=
    List.all_eq_true.mpr fun c hc => isDigit_of_mem_padded hc
  have hyear : (padded 4 s.year).foldl (fun n c => n * 10 + (c.toNat - '0'.toNat)) 0 = s.year :=
    digitsNat_padded 4 s.year
  have hmonth := hs.month
  have hday := hs.day
  have hdays := daysIn_le s.year s.month
  rw [date?]
  simp only [htake, hdrop, hlength, hall, hyear, expect?_cons,
    short?_padded (by omega : s.month < 100), short?_padded (by omega : s.day < 100),
    Option.bind_eq_bind, Option.bind_some]
  rw [if_neg (by simp), if_neg (by omega), if_neg (by omega)]
  rfl

/-- The fraction of a second, in front of a zone. -/
theorem fraction_fractionText {nano : ℕ} (hnano : nano < 1000000000) {c : Char} {r : Text}
    (hc : c = 'Z' ∨ c = '+' ∨ c = '-') :
    fraction (fractionText nano ++ c :: r) = (nano, c :: r) := by
  have hcdigit : c.isDigit = false := by rcases hc with rfl | rfl | rfl <;> rfl
  by_cases hzero : nano = 0
  · rw [fractionText, if_pos hzero, List.nil_append, hzero]
    have hpoint : ¬ (c = '.' ∨ c = ',') := by rcases hc with rfl | rfl | rfl <;> decide
    cases r with
    | nil => rfl
    | cons d r =>
      rw [fraction]
      rw [if_neg fun h => hpoint h.1]
  · have hlength := length_padded (by decide : 0 < 9) hnano
    obtain ⟨z, hz⟩ := exists_eq_append_zeros (padded 9 nano)
    rw [fractionText, if_neg hzero]
    -- The nine digits without the zeros at their end: the first of them is there, as the fraction
    -- is not zero.
    set ds := ((padded 9 nano).reverse.dropWhile (· == '0')).reverse with hds
    have hvalue : digitsNat ds * 10 ^ z = nano := by
      rw [← digitsNat_append_zeros, ← hz, digitsNat_padded]
    have hz_length : ds.length + z = 9 := by
      rw [hz, List.length_append, zeros, List.length_replicate] at hlength
      exact hlength
    have hdigit : ∀ c ∈ ds, c.isDigit = true := by
      intro c hc
      have hmem : c ∈ padded 9 nano := hz ▸ List.mem_append_left _ hc
      exact isDigit_of_mem_padded hmem
    have hnanos : nanos ds = nano := by
      rw [nanos]
      rw [List.take_of_length_le (by omega), show 9 - ds.length = z by omega]
      exact hvalue
    obtain ⟨d, ds', hcons⟩ : ∃ d ds', ds = d :: ds' := by
      refine List.exists_cons_of_ne_nil ?_
      rintro hnil
      rw [hnil] at hvalue
      exact hzero (by rw [← hvalue]; exact Nat.zero_mul _)
    rw [hcons] at hdigit hnanos ⊢
    rw [List.forall_mem_cons] at hdigit
    have hend := NumberText.takeWhile_isDigit hdigit.2 (r := c :: r) (by rintro _ ⟨⟩; exact hcdigit)
    simp only [List.cons_append, fraction, hdigit.1, hend.1, hend.2, hnanos]
    rfl

theorem exists_zoneText (offset : Int) :
    ∃ c r, zoneText offset = c :: r ∧ (c = 'Z' ∨ c = '+' ∨ c = '-') := by
  rw [zoneText, offsetText]
  split_ifs
  · exact ⟨_, _, rfl, .inl rfl⟩
  · exact ⟨_, _, rfl, .inr (.inr rfl)⟩
  · exact ⟨_, _, rfl, .inr (.inl rfl)⟩

theorem clock?_clockText {s d : Timestamp} (hs : s.IsValid) :
    clock? d (clockText s ++ zoneText s.offset) = some ({ d with
      hour := s.hour, minute := s.minute, second := s.second, nano := s.nano },
      zoneText s.offset) := by
  obtain ⟨c, r, hzone, hc⟩ := exists_zoneText s.offset
  have htext : clockText s ++ zoneText s.offset = padded 2 s.hour ++ (':' :: (padded 2 s.minute
      ++ (':' :: (padded 2 s.second ++ (fractionText s.nano ++ zoneText s.offset))))) := by
    simp only [clockText, List.append_assoc, List.cons_append]
  have hhour := hs.hour
  have hminute := hs.minute
  have hsecond := hs.second
  rw [htext, hzone, clock?]
  simp only [short?_padded (by omega : s.hour < 100), short?_padded (by omega : s.minute < 100),
    short?_padded (by omega : s.second < 100), expect?_cons, Option.bind_eq_bind, Option.bind_some,
    fraction_fractionText hs.nano hc]
  rw [if_neg (by omega), if_neg (by omega), if_neg (by omega)]
  rfl

theorem zone?_zoneText {s : Timestamp} {offset : Int} (h : offset.natAbs < 1500)
    (hs : s.offset = 0) : zone? s (zoneText offset) = some { s with offset } := by
  rw [zoneText]
  split_ifs with hzero
  · subst hzero
    rw [← hs]
    rfl
  · have htext : offsetText [':'] offset = (if offset < 0 then '-' else '+')
        :: (padded 2 (offset.natAbs / 60) ++ (':' :: (padded 2 (offset.natAbs % 60) ++ []))) := by
      simp only [offsetText, List.append_assoc, List.cons_append, List.nil_append, List.append_nil]
    have hhours : offset.natAbs / 60 < 100 := by omega
    have hminutes : offset.natAbs % 60 < 100 := by omega
    have hrange : ¬ (24 < offset.natAbs / 60 ∨ 60 < offset.natAbs % 60 ∨ ([] : Text) ≠ []) := by
      simp only [ne_eq, not_true_eq_false, or_false]
      omega
    rw [htext]
    -- The two signs are read by different branches.
    split_ifs with hnegative
    · rw [zone?.eq_2 _ _ _ fun h => absurd h (by decide)]
      simp only [two?_padded hhours, two?_padded hminutes, expect?_cons, if_neg hrange,
        Option.bind_eq_bind, Option.bind_some, if_true]
      congr 2
      omega
    · rw [zone?.eq_2 _ _ _ fun h => absurd h (by decide), if_neg (by decide), if_pos rfl]
      simp only [two?_padded hhours, two?_padded hminutes, expect?_cons, if_neg hrange,
        Option.bind_eq_bind, Option.bind_some, Bool.false_eq_true, if_false]
      congr 2
      omega

/-- **A timestamp is read back from its interchange form**, if its offset is below 25 hours. -/
theorem parse?_interchange {s : Timestamp} (hs : s.IsValid) (h : s.offset.natAbs < 1500) :
    parse? (interchange s) = some s := by
  rw [interchange_eq, parse?, date?_dateText hs]
  simp only [Option.bind_eq_bind, Option.bind_some, clock?_clockText hs, true_or, if_true]
  exact zone?_zoneText h rfl

/-! ### What is read -/

theorem isValid_of_date? {t r : Text} {s : Timestamp} (h : date? t = some (s, r)) :
    s.IsValid := by
  simp only [date?, Option.bind_eq_bind, Option.bind_none] at h
  split_ifs at h with hyear
  obtain ⟨r₁, -, h⟩ := Option.bind_eq_some_iff.mp h
  obtain ⟨⟨month, r₂⟩, -, h⟩ := Option.bind_eq_some_iff.mp h
  dsimp only at h
  split_ifs at h with hmonth
  obtain ⟨r₃, -, h⟩ := Option.bind_eq_some_iff.mp h
  obtain ⟨⟨day, r₄⟩, -, h⟩ := Option.bind_eq_some_iff.mp h
  dsimp only at h
  split_ifs at h with hday
  obtain ⟨rfl, -⟩ := Prod.mk.inj (Option.some.inj h)
  rw [not_or, not_not, Bool.not_eq_true', Bool.not_eq_false, List.all_eq_true] at hyear
  have hmonths : 1 ≤ month ∧ month ≤ 12 := by omega
  rw [not_or, Nat.not_lt, Nat.not_lt] at hday
  exact
    { year := (digitsNat_lt hyear.2).trans_le (Nat.pow_le_pow_right (by decide) hyear.1.le)
      month := hmonths
      day := hday
      hour := Nat.zero_lt_succ _
      minute := Nat.zero_lt_succ _
      second := Nat.zero_lt_succ _
      nano := Nat.zero_lt_succ _ }

theorem nanos_lt {ds : Text} (h : ∀ c ∈ ds, c.isDigit = true) : nanos ds < 1000000000 := by
  have hlt : digitsNat (ds.take 9) < 10 ^ (ds.take 9).length :=
    digitsNat_lt fun c hc => h c (List.mem_of_mem_take hc)
  have hlength : (ds.take 9).length ≤ 9 := List.length_take_le 9 ds
  calc nanos ds = digitsNat (ds.take 9) * 10 ^ (9 - (ds.take 9).length) := rfl
    _ < 10 ^ (ds.take 9).length * 10 ^ (9 - (ds.take 9).length) :=
      Nat.mul_lt_mul_of_pos_right hlt (Nat.pow_pos (by decide))
    _ = 10 ^ 9 := by rw [← pow_add, Nat.add_sub_cancel' hlength]

theorem fraction_lt (t : Text) : (fraction t).1 < 1000000000 := by
  unfold fraction
  split
  · next c d r =>
    split_ifs with h
    · refine nanos_lt (List.forall_mem_cons.mpr ⟨h.2, fun c hc => List.mem_takeWhile_imp hc⟩)
    · exact Nat.zero_lt_succ _
  · exact Nat.zero_lt_succ _

theorem isValid_of_clock? {t r : Text} {s s' : Timestamp} (hs : s.IsValid)
    (h : clock? s t = some (s', r)) : s'.IsValid := by
  simp only [clock?, Option.bind_eq_bind, Option.bind_none] at h
  obtain ⟨⟨hour, r₁⟩, -, h⟩ := Option.bind_eq_some_iff.mp h
  dsimp only at h
  split_ifs at h with hhour
  obtain ⟨r₂, -, h⟩ := Option.bind_eq_some_iff.mp h
  obtain ⟨⟨minute, r₃⟩, -, h⟩ := Option.bind_eq_some_iff.mp h
  dsimp only at h
  split_ifs at h with hminute
  obtain ⟨r₄, -, h⟩ := Option.bind_eq_some_iff.mp h
  obtain ⟨⟨second, r₅⟩, -, h⟩ := Option.bind_eq_some_iff.mp h
  dsimp only at h
  split_ifs at h with hsecond
  obtain ⟨rfl, -⟩ := Prod.mk.inj (Option.some.inj h)
  exact { hs with
    hour := Nat.lt_of_not_le hhour
    minute := Nat.lt_of_not_le hminute
    second := Nat.lt_of_not_le hsecond
    nano := fraction_lt r₅ }

theorem isValid_of_zone? {t : Text} {s s' : Timestamp} (hs : s.IsValid) (h : zone? s t = some s') :
    s'.IsValid := by
  unfold zone? at h
  split at h
  · exact Option.some.inj h ▸ hs
  · simp only [Option.bind_eq_bind, Option.bind_some, Option.bind_none] at h
    -- Behind either sign the fields but the offset stay.
    split_ifs at h
    all_goals
      obtain ⟨⟨hours, r₁⟩, -, h⟩ := Option.bind_eq_some_iff.mp h
      obtain ⟨r₂, -, h⟩ := Option.bind_eq_some_iff.mp h
      obtain ⟨⟨minutes, r₃⟩, -, h⟩ := Option.bind_eq_some_iff.mp h
      dsimp only at h
      split_ifs at h
      obtain rfl := Option.some.inj h
      exact { hs with }
  · exact absurd h (by simp)

/-- **What is read has the fields of a date and a time of day.** -/
theorem isValid_of_parse? {t : Text} {s : Timestamp} (h : parse? t = some s) : s.IsValid := by
  unfold parse? at h
  obtain ⟨⟨s₀, r⟩, hdate, h⟩ := Option.bind_eq_some_iff.mp h
  have hs₀ := isValid_of_date? hdate
  dsimp only at h
  split at h
  · exact Option.some.inj h ▸ hs₀
  · split_ifs at h
    · obtain ⟨⟨s₁, r₁⟩, hclock, h⟩ := Option.bind_eq_some_iff.mp h
      exact isValid_of_zone? (isValid_of_clock? hs₀ hclock) h
    · obtain ⟨⟨s₁, r₁⟩, hclock, h⟩ := Option.bind_eq_some_iff.mp h
      dsimp only at h
      split_ifs at h
      exact Option.some.inj h ▸ isValid_of_clock? hs₀ hclock

end Timestamp

namespace Yaml

/-- **A timestamp is read back from its text.** -/
theorem looksLike_interchange {s : Timestamp} (hs : s.IsValid) (h : s.offset.natAbs < 1500) :
    looksLike true s.interchange = (Tag.timestamp, .time s) := by
  have htime := Timestamp.parse?_interchange hs h
  have hyear := Timestamp.length_padded (by decide : 0 < 4) hs.year
  obtain ⟨c, r, hcons⟩ : ∃ c r, Timestamp.padded 4 s.year = c :: r := by
    refine List.exists_cons_of_ne_nil ?_
    rintro hnil
    rw [hnil] at hyear
    exact absurd hyear (by decide)
  have hdigit : c.isDigit = true :=
    Timestamp.isDigit_of_mem_padded (hcons ▸ List.mem_cons_self : c ∈ Timestamp.padded 4 s.year)
  obtain ⟨r, htext⟩ : ∃ r, s.interchange = c :: r := by
    simp only [Timestamp.interchange_eq, Timestamp.dateText, hcons, List.cons_append]
    exact ⟨_, rfl⟩
  rw [htext] at htime ⊢
  have hstart : NumberText.startsNumber (c :: r) = true := by
    cases r with
    | nil => exact hdigit
    | cons d r => rw [NumberText.startsNumber, hdigit, Bool.true_or]
  have hpoint : (c == '.') = false := by
    rw [beq_eq_false_iff_ne]
    rintro rfl
    exact absurd hdigit (by decide)
  simp only [looksLike, hpoint, hdigit, Bool.or_true, NumberText.word?_eq_none hstart, htime,
    Bool.false_eq_true, if_false, if_true]

end Yaml

end ScriptLint
