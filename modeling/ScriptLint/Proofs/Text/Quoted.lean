import ScriptLint.Proofs.Text.Utf8
import ScriptLint.Text.Quoted
import Mathlib.Algebra.Group.Nat.Defs

/-!
# Texts on one line

A byte string stays on one line if it holds no line feed, and on one line whatever ends a line if it
holds no carriage return either. In UTF-8 only these characters themselves are written with these
bytes, so a text of other characters stays on one line, and so does any byte string between
quotation marks, where line feeds are escaped (`Quoted.isOneLine_quote`). From between quotation
marks a byte string can be read back, so that no two are quoted alike (`Quoted.quote_injective`).
-/

namespace ScriptLint

/-- Whether a byte string stays on one line. -/
def IsOneLine (b : Bytes) : Prop := 0x0A ∉ b

instance (b : Bytes) : Decidable (IsOneLine b) := inferInstanceAs (Decidable (0x0A ∉ b))

@[simp]
theorem isOneLine_append {a b : Bytes} : IsOneLine (a ++ b) ↔ IsOneLine a ∧ IsOneLine b := by
  rw [IsOneLine, List.mem_append, not_or]
  rfl

/-- Only a line feed is written with the byte of a line feed. -/
theorem Utf8.eq_newline_of_mem_encodeChar {c : Char} (h : 0x0A ∈ encodeChar c) : c = '\n' :=
  Char.toNat_inj.mp (toNat_eq_of_mem_encodeChar (by decide) h)

theorem isOneLine_encode {t : Text} (h : '\n' ∉ t) : IsOneLine (Utf8.encode t) := by
  intro hmem
  obtain ⟨c, hc, hbyte⟩ := List.mem_flatMap.mp hmem
  exact h (Utf8.eq_newline_of_mem_encodeChar hbyte ▸ hc)

theorem isOneLine_natBytes (n : Nat) : IsOneLine (natBytes n) := by
  refine isOneLine_encode fun h => ?_
  exact absurd (Nat.isDigit_of_mem_toDigits (by decide) (Nat.le_refl 10) h) (by decide)

/-- Whether a byte string stays on one line whatever ends a line: it holds no line feed and no
carriage return. -/
def IsUnbroken (b : Bytes) : Prop := 0x0A ∉ b ∧ 0x0D ∉ b

instance (b : Bytes) : Decidable (IsUnbroken b) :=
  inferInstanceAs (Decidable (0x0A ∉ b ∧ 0x0D ∉ b))

theorem isUnbroken_append {a b : Bytes} :
    IsUnbroken (a ++ b) ↔ IsUnbroken a ∧ IsUnbroken b := by
  simp only [IsUnbroken, List.mem_append, not_or]
  exact and_and_and_comm

theorem isUnbroken_encode {t : Text} (h : ∀ c ∈ t, c ≠ '\n' ∧ c ≠ '\r') :
    IsUnbroken (Utf8.encode t) := by
  constructor
  · intro hmem
    obtain ⟨c, hc, hbyte⟩ := List.mem_flatMap.mp hmem
    exact (h c hc).1 (Char.toNat_inj.mp (Utf8.toNat_eq_of_mem_encodeChar (by decide) hbyte))
  · intro hmem
    obtain ⟨c, hc, hbyte⟩ := List.mem_flatMap.mp hmem
    exact (h c hc).2 (Char.toNat_inj.mp (Utf8.toNat_eq_of_mem_encodeChar (by decide) hbyte))

theorem isUnbroken_intBytes (n : Int) : IsUnbroken (intBytes n) := by
  have hnat (k : Nat) : IsUnbroken (natBytes k) := by
    refine isUnbroken_encode fun c hc => ?_
    have hdigit : c.isDigit = true := Nat.isDigit_of_mem_toDigits (by decide) (Nat.le_refl 10) hc
    constructor
    all_goals rintro rfl; exact absurd hdigit (by decide)
  cases n with
  | ofNat k => exact hnat k
  | negSucc k => exact isUnbroken_append.mpr ⟨by decide, hnat (k + 1)⟩

namespace Quoted

theorem hexDigit_ne_newline (n : Nat) : hexDigit n ≠ '\n' := by
  have hdigits : ∀ k < 16, "0123456789abcdef".toList.getD k '0' ≠ '\n' := by decide
  exact hdigits _ (Nat.mod_lt n (by decide))

theorem newline_not_mem_hex (width n : Nat) : '\n' ∉ hex width n := by
  induction width generalizing n with
  | zero => exact List.not_mem_nil
  | succ width ih =>
    rw [hex, List.mem_append, List.mem_singleton, not_or]
    exact ⟨ih _, (hexDigit_ne_newline n).symm⟩

/-- Between quotation marks a line feed is escaped. -/
theorem newline_not_mem_quoteChar (c : Char) : '\n' ∉ quoteChar c := by
  unfold quoteChar
  split_ifs with hescaped hprintable
  · rcases hescaped with rfl | rfl <;> decide
  · rw [List.mem_singleton]
    rintro rfl
    exact absurd hprintable (by decide)
  · split
    case h_8 =>
      split_ifs <;>
      · rw [List.mem_append, not_or]
        exact ⟨by decide, newline_not_mem_hex _ _⟩
    all_goals decide

theorem newline_not_mem_quotePiece (p : Utf8.Piece) : '\n' ∉ quotePiece p := by
  cases p with
  | char c => exact newline_not_mem_quoteChar c
  | stray b =>
    rw [quotePiece, List.mem_append, not_or]
    exact ⟨by decide, newline_not_mem_hex _ _⟩

/-- **A quoted byte string stays on one line.** -/
theorem isOneLine_quote (b : Bytes) : IsOneLine (quote b) := by
  refine isOneLine_encode fun h => ?_
  rw [List.mem_append, List.mem_cons, List.mem_flatMap] at h
  rcases h with (h | ⟨p, -, h⟩) | h
  · exact absurd h (by decide)
  · exact newline_not_mem_quotePiece p h
  · exact absurd h (by decide)

/-! ### Reading back -/

/-- The number that hexadecimal digits in lower case stand for. -/
def hexNumber (digits : Text) : Nat :=
  digits.foldl (fun n c => n * 16 + "0123456789abcdef".toList.idxOf c) 0

/-- The bytes that an escape stands for, behind its backslash, and the text behind it. -/
def escape : Text → Bytes × Text
  | 'a' :: r => ([0x07], r)
  | 'b' :: r => ([0x08], r)
  | 'f' :: r => ([0x0C], r)
  | 'n' :: r => ([0x0A], r)
  | 'r' :: r => ([0x0D], r)
  | 't' :: r => ([0x09], r)
  | 'v' :: r => ([0x0B], r)
  | 'x' :: r => ([(hexNumber (r.take 2)).toUInt8], r.drop 2)
  | 'u' :: r => (Utf8.encodeChar (Char.ofNat (hexNumber (r.take 4))), r.drop 4)
  | 'U' :: r => (Utf8.encodeChar (Char.ofNat (hexNumber (r.take 8))), r.drop 8)
  | c :: r => (Utf8.encodeChar c, r)
  | [] => ([], [])

/-- The bytes that the front of a quoted text stands for, and the text behind it. -/
def front : Text → Bytes × Text
  | [] => ([], [])
  | c :: r => if c = '\\' then escape r else (Utf8.encodeChar c, r)

theorem length_hex (width n : Nat) : (hex width n).length = width := by
  induction width generalizing n with
  | zero => rfl
  | succ width ih => rw [hex, List.length_append, ih, List.length_singleton]

theorem idxOf_hexDigit (n : Nat) : "0123456789abcdef".toList.idxOf (hexDigit n) = n % 16 := by
  have hdigits : ∀ k < 16, "0123456789abcdef".toList.idxOf
      ("0123456789abcdef".toList.getD k '0') = k := by decide
  exact hdigits _ (Nat.mod_lt n (by decide))

/-- **Hexadecimal digits give the number back**, as far as they reach. -/
theorem hexNumber_hex (width n : Nat) : hexNumber (hex width n) = n % 16 ^ width := by
  induction width generalizing n with
  | zero => rw [pow_zero, Nat.mod_one]; rfl
  | succ width ih =>
    unfold hexNumber at ih ⊢
    rw [hex, List.foldl_append, ih, List.foldl_cons, List.foldl_nil, idxOf_hexDigit,
      pow_succ', Nat.mod_mul]
    omega

theorem hexNumber_take_hex_append (width n : Nat) (r : Text) :
    hexNumber ((hex width n ++ r).take width) = n % 16 ^ width := by
  rw [List.take_left' (length_hex width n), hexNumber_hex]

theorem drop_hex_append (width n : Nat) (r : Text) : (hex width n ++ r).drop width = r :=
  List.drop_left' (length_hex width n)

theorem front_byte {n : Nat} (h : n < 0x100) (r : Text) :
    front ("\\x".toList ++ hex 2 n ++ r) = ([n.toUInt8], r) := by
  have hescape (t : Text) :
      front ('\\' :: 'x' :: t) = ([(hexNumber (t.take 2)).toUInt8], t.drop 2) := rfl
  have hvalue : n % 16 ^ 2 = n := Nat.mod_eq_of_lt h
  refine (hescape (hex 2 n ++ r)).trans ?_
  rw [hexNumber_take_hex_append, drop_hex_append, hvalue]

theorem front_short {c : Char} (h : c.toNat < 0x10000) (r : Text) :
    front ("\\u".toList ++ hex 4 c.toNat ++ r) = (Utf8.encodeChar c, r) := by
  have hescape (t : Text) : front ('\\' :: 'u' :: t)
      = (Utf8.encodeChar (Char.ofNat (hexNumber (t.take 4))), t.drop 4) := rfl
  have hvalue : c.toNat % 16 ^ 4 = c.toNat := Nat.mod_eq_of_lt h
  refine (hescape (hex 4 c.toNat ++ r)).trans ?_
  rw [hexNumber_take_hex_append, drop_hex_append, hvalue, Char.ofNat_toNat]

theorem front_long (c : Char) (r : Text) :
    front ("\\U".toList ++ hex 8 c.toNat ++ r) = (Utf8.encodeChar c, r) := by
  have hbound := Utf8.toNat_bounds c
  have hescape (t : Text) : front ('\\' :: 'U' :: t)
      = (Utf8.encodeChar (Char.ofNat (hexNumber (t.take 8))), t.drop 8) := rfl
  have hvalue : c.toNat % 16 ^ 8 = c.toNat := Nat.mod_eq_of_lt (by omega)
  refine (hescape (hex 8 c.toNat ++ r)).trans ?_
  rw [hexNumber_take_hex_append, drop_hex_append, hvalue, Char.ofNat_toNat]

/-- **A character is read back**, whatever stands behind it. -/
theorem front_quoteChar_append (c : Char) (r : Text) :
    front (quoteChar c ++ r) = (Utf8.encodeChar c, r) := by
  have hcode {n : Nat} (h : c.toNat = n) : c = Char.ofNat n := by rw [← h, Char.ofNat_toNat]
  unfold quoteChar
  split_ifs with hescaped hprintable
  · rcases hescaped with rfl | rfl
    · rfl
    · rfl
  · rw [List.singleton_append, front, if_neg fun h => hescaped (.inr h)]
  · split
    case h_8 =>
      split_ifs with hcontrol hplane
      · rw [front_byte (by omega), Utf8.encodeChar, if_pos (by omega)]
      · exact front_short hplane r
      · exact front_long c r
    all_goals
      rename_i h
      rw [hcode h]
      rfl

theorem front_quotePiece_append (p : Utf8.Piece) (r : Text) :
    front (quotePiece p ++ r) = (p.bytes, r) := by
  cases p with
  | char c => exact front_quoteChar_append c r
  | stray b =>
    rw [quotePiece, front_byte b.toNat_lt]
    exact congrArg (([·], r)) UInt8.ofNat_toNat

theorem joinPieces_eq_of_quoted {ps qs : List Utf8.Piece}
    (h : ps.flatMap quotePiece = qs.flatMap quotePiece) :
    Utf8.joinPieces ps = Utf8.joinPieces qs := by
  have hbytes (p : Utf8.Piece) : p.bytes ≠ [] := by
    cases p with
    | char c => exact Utf8.encodeChar_ne_nil c
    | stray b => exact List.cons_ne_nil b []
  -- The fronts of the two are read back, so that the first pieces have the same bytes, and the
  -- texts behind them are quoted alike again.
  induction ps generalizing qs with
  | nil =>
    cases qs with
    | nil => rfl
    | cons q qs =>
      have hread := congrArg front h
      rw [List.flatMap_cons, front_quotePiece_append] at hread
      exact absurd (Prod.mk.inj hread).1.symm (hbytes q)
  | cons p ps ih =>
    have hread := congrArg front h
    rw [List.flatMap_cons, front_quotePiece_append] at hread
    cases qs with
    | nil => exact absurd (Prod.mk.inj hread).1 (hbytes p)
    | cons q qs =>
      rw [List.flatMap_cons, front_quotePiece_append] at hread
      obtain ⟨hpq, hrest⟩ := Prod.mk.inj hread
      rw [Utf8.joinPieces, List.flatMap_cons, hpq]
      exact congrArg (q.bytes ++ ·) (ih hrest)

/-- **The quoted form determines the byte string.** -/
theorem quote_injective : Function.Injective quote := by
  intro a b h
  have hquoted := Option.some.inj ((Utf8.decode?_eq_some_iff.mpr h).symm.trans
    (Utf8.decode?_eq_some_iff.mpr rfl))
  have hpieces := List.append_cancel_right (List.cons.inj hquoted).2
  rw [← Utf8.joinPieces_pieces a, ← Utf8.joinPieces_pieces b]
  exact (joinPieces_eq_of_quoted hpieces).symm

end Quoted

end ScriptLint
