import ScriptLint.Text.Utf8
import Mathlib.Data.List.Basic

/-!
# UTF-8 is read back as it is written

A byte string has a character at its front exactly if it starts with the bytes of that character
(`Utf8.front?_eq_some_iff`). Reading therefore loses nothing (`Utf8.joinPieces_pieces`), and the
byte strings that are UTF-8 are those that writing gives, each from one text only
(`Utf8.decode?_eq_some_iff`). What is left of a text without a text at its front or end is a text
again.
-/

namespace ScriptLint

/-! ### Bytes as numbers -/

theorem toNat_toUInt8 {n : Nat} (h : n < 0x100) : n.toUInt8.toNat = n :=
  UInt8.toNat_ofNat_of_lt' h

theorem toUInt8_eq_iff {n : Nat} (h : n < 0x100) (b : UInt8) : n.toUInt8 = b ↔ n = b.toNat := by
  rw [← UInt8.toNat_inj, toNat_toUInt8 h]

namespace Utf8

/-! ### Scalar values -/

/-- A character is no surrogate and lies within the range of scalar values. -/
theorem toNat_bounds (c : Char) : c.toNat < 0xD800 ∨ 0xDFFF < c.toNat ∧ c.toNat < 0x110000 :=
  c.valid

theorem scalar?_eq_some_iff {least n : Nat} {c : Char} :
    scalar? least n = some c ↔ c.toNat = n ∧ least ≤ n := by
  unfold scalar?
  constructor
  · intro h
    by_cases hn : n.isValidChar ∧ least ≤ n
    · rw [dif_pos hn] at h
      obtain rfl := Option.some.inj h
      exact ⟨rfl, hn.2⟩
    · rw [dif_neg hn] at h
      exact absurd h (Option.some_ne_none c).symm
  · rintro ⟨rfl, hle⟩
    rw [dif_pos ⟨c.valid, hle⟩]
    rfl

theorem continuation?_eq_some_iff {b : UInt8} {x : Nat} :
    continuation? b = some x ↔ x < 0x40 ∧ b.toNat = 0x80 + x := by
  unfold continuation?
  split_ifs with hb
  · rw [Option.some.injEq]
    omega
  · simp only [false_iff]
    omega

theorem continuation?_eq_none_iff {b : UInt8} :
    continuation? b = none ↔ b.toNat < 0x80 ∨ 0xC0 ≤ b.toNat := by
  unfold continuation?
  split_ifs with hb
  · simp only [false_iff]
    omega
  · simp only [true_iff]
    omega

theorem continuation?_toUInt8 {x : Nat} (h : x < 0x40) :
    continuation? (0x80 + x).toUInt8 = some x := by
  rw [continuation?_eq_some_iff, toNat_toUInt8 (by omega)]
  exact ⟨h, rfl⟩

/-! ### The character at the front -/

/-- **A character is read back from its bytes**, whatever follows them. -/
theorem front?_encodeChar_append (c : Char) (r : Bytes) :
    front? (encodeChar c ++ r) = some (c, (encodeChar c).length) := by
  have hc := toNat_bounds c
  simp only [encodeChar]
  -- One case for each number of bytes, in which no byte overflows and the value is long enough.
  split_ifs with h1 h2 h3
  · have ha : c.toNat.toUInt8.toNat = c.toNat := toNat_toUInt8 (by omega)
    have hs : scalar? 0 c.toNat = some c := scalar?_eq_some_iff.mpr ⟨rfl, Nat.zero_le _⟩
    simp only [List.cons_append, List.nil_append, front?, ha, hs]
    rw [if_pos h1]
    rfl
  · have ha : (0xC0 + c.toNat / 0x40).toUInt8.toNat = 0xC0 + c.toNat / 0x40 :=
      toNat_toUInt8 (by omega)
    have hx := continuation?_toUInt8 (show c.toNat % 0x40 < 0x40 by omega)
    have hs : scalar? 0x80 ((0xC0 + c.toNat / 0x40 - 0xC0) * 0x40 + c.toNat % 0x40) = some c :=
      scalar?_eq_some_iff.mpr (by omega)
    simp only [List.cons_append, List.nil_append, front?, ha, hx]
    rw [if_neg (by omega), if_neg (by omega), if_pos (by omega)]
    simp only [Option.bind_eq_bind, Option.bind_some, hs]
    rfl
  · have ha : (0xE0 + c.toNat / 0x1000).toUInt8.toNat = 0xE0 + c.toNat / 0x1000 :=
      toNat_toUInt8 (by omega)
    have hx := continuation?_toUInt8 (show c.toNat / 0x40 % 0x40 < 0x40 by omega)
    have hy := continuation?_toUInt8 (show c.toNat % 0x40 < 0x40 by omega)
    have hs : scalar? 0x800 (((0xE0 + c.toNat / 0x1000 - 0xE0) * 0x40
        + c.toNat / 0x40 % 0x40) * 0x40 + c.toNat % 0x40) = some c :=
      scalar?_eq_some_iff.mpr (by omega)
    simp only [List.cons_append, List.nil_append, front?, ha, hx, hy]
    rw [if_neg (by omega), if_neg (by omega), if_neg (by omega), if_pos (by omega)]
    simp only [Option.bind_eq_bind, Option.bind_some, hs]
    rfl
  · have ha : (0xF0 + c.toNat / 0x40000).toUInt8.toNat = 0xF0 + c.toNat / 0x40000 :=
      toNat_toUInt8 (by omega)
    have hx := continuation?_toUInt8 (show c.toNat / 0x1000 % 0x40 < 0x40 by omega)
    have hy := continuation?_toUInt8 (show c.toNat / 0x40 % 0x40 < 0x40 by omega)
    have hz := continuation?_toUInt8 (show c.toNat % 0x40 < 0x40 by omega)
    have hs : scalar? 0x10000 ((((0xF0 + c.toNat / 0x40000 - 0xF0) * 0x40
        + c.toNat / 0x1000 % 0x40) * 0x40 + c.toNat / 0x40 % 0x40) * 0x40
          + c.toNat % 0x40) = some c :=
      scalar?_eq_some_iff.mpr (by omega)
    simp only [List.cons_append, List.nil_append, front?, ha, hx, hy, hz]
    rw [if_neg (by omega), if_neg (by omega), if_neg (by omega), if_neg (by omega),
      if_pos (by omega)]
    simp only [Option.bind_eq_bind, Option.bind_some, hs]
    rfl

/-- A byte string with a character at its front starts with the bytes of that character. -/
theorem exists_append_of_front? {bs : Bytes} {c : Char} {n : Nat} (h : front? bs = some (c, n)) :
    ∃ r, bs = encodeChar c ++ r ∧ n = (encodeChar c).length := by
  -- In each case the bytes give the value of the character, and the value gives back the bytes.
  unfold front? at h
  split at h
  · exact absurd h (by simp)
  rename_i a r
  split_ifs at h with h1 h2 h3 h4 h5
  · simp only [Option.map_eq_some_iff, Prod.mk.injEq, scalar?_eq_some_iff] at h
    obtain ⟨c, ⟨hc, -⟩, rfl, rfl⟩ := h
    have hbytes : encodeChar c = [a] := by
      simp only [encodeChar]
      rw [if_pos (by omega), (toUInt8_eq_iff (by omega) a).mpr (by omega)]
    exact ⟨r, by rw [hbytes]; rfl, by rw [hbytes]; rfl⟩
  · split at h
    · rename_i b r
      simp only [Option.bind_eq_bind, Option.bind_eq_some_iff, continuation?_eq_some_iff,
        scalar?_eq_some_iff] at h
      obtain ⟨x, ⟨hx, hb⟩, c', ⟨hc, hle⟩, h⟩ := h
      obtain ⟨rfl, rfl⟩ := Prod.mk.inj (Option.some.inj h)
      have hbytes : encodeChar c' = [a, b] := by
        simp only [encodeChar]
        rw [if_neg (by omega), if_pos (by omega), (toUInt8_eq_iff (by omega) a).mpr (by omega),
          (toUInt8_eq_iff (by omega) b).mpr (by omega)]
      exact ⟨r, by rw [hbytes]; rfl, by rw [hbytes]; rfl⟩
    · exact absurd h (by simp)
  · split at h
    · rename_i b d r
      simp only [Option.bind_eq_bind, Option.bind_eq_some_iff, continuation?_eq_some_iff,
        scalar?_eq_some_iff] at h
      obtain ⟨x, ⟨hx, hb⟩, y, ⟨hy, hd⟩, c', ⟨hc, hle⟩, h⟩ := h
      obtain ⟨rfl, rfl⟩ := Prod.mk.inj (Option.some.inj h)
      have hbytes : encodeChar c' = [a, b, d] := by
        simp only [encodeChar]
        rw [if_neg (by omega), if_neg (by omega), if_pos (by omega),
          (toUInt8_eq_iff (by omega) a).mpr (by omega),
          (toUInt8_eq_iff (by omega) b).mpr (by omega),
          (toUInt8_eq_iff (by omega) d).mpr (by omega)]
      exact ⟨r, by rw [hbytes]; rfl, by rw [hbytes]; rfl⟩
    · exact absurd h (by simp)
  · split at h
    · rename_i b d e r
      simp only [Option.bind_eq_bind, Option.bind_eq_some_iff, continuation?_eq_some_iff,
        scalar?_eq_some_iff] at h
      obtain ⟨x, ⟨hx, hb⟩, y, ⟨hy, hd⟩, z, ⟨hz, he⟩, c', ⟨hc, hle⟩, h⟩ := h
      obtain ⟨rfl, rfl⟩ := Prod.mk.inj (Option.some.inj h)
      have hbound := toNat_bounds c'
      have hbytes : encodeChar c' = [a, b, d, e] := by
        simp only [encodeChar]
        rw [if_neg (by omega), if_neg (by omega), if_neg (by omega),
          (toUInt8_eq_iff (by omega) a).mpr (by omega),
          (toUInt8_eq_iff (by omega) b).mpr (by omega),
          (toUInt8_eq_iff (by omega) d).mpr (by omega),
          (toUInt8_eq_iff (by omega) e).mpr (by omega)]
      exact ⟨r, by rw [hbytes]; rfl, by rw [hbytes]; rfl⟩
    · exact absurd h (by simp)

/-- **A byte string has a character at its front exactly if it starts with the bytes of that
character.** -/
theorem front?_eq_some_iff {bs : Bytes} {c : Char} {n : Nat} :
    front? bs = some (c, n) ↔ (∃ r, bs = encodeChar c ++ r) ∧ n = (encodeChar c).length := by
  constructor
  · intro h
    obtain ⟨r, hbs, hn⟩ := exists_append_of_front? h
    exact ⟨⟨r, hbs⟩, hn⟩
  · rintro ⟨⟨r, rfl⟩, rfl⟩
    exact front?_encodeChar_append c r

theorem encodeChar_ne_nil (c : Char) : encodeChar c ≠ [] := by
  simp only [encodeChar]
  split_ifs <;> exact List.cons_ne_nil _ _

/-- An ASCII byte is written for its own character only: every other byte has its upper bit set. -/
theorem toNat_eq_of_mem_encodeChar {c : Char} {b : UInt8} (hb : b.toNat < 0x80)
    (h : b ∈ encodeChar c) : c.toNat = b.toNat := by
  have hcode : ∀ n, n < 0x100 → b = n.toUInt8 → n = b.toNat := fun n hn heq =>
    (toUInt8_eq_iff hn b).mp heq.symm
  have hbound := toNat_bounds c
  simp only [encodeChar] at h
  split_ifs at h with h1 h2 h3 <;>
    simp only [List.mem_cons, List.not_mem_nil, or_false] at h
  · exact hcode _ (by omega) h
  · rcases h with h | h
    all_goals have := hcode _ (by omega) h; omega
  · rcases h with h | h | h
    all_goals have := hcode _ (by omega) h; omega
  · rcases h with h | h | h | h
    all_goals have := hcode _ (by omega) h; omega

theorem encode_cons (c : Char) (t : Text) : encode (c :: t) = encodeChar c ++ encode t :=
  List.flatMap_cons

theorem encode_singleton (c : Char) : encode [c] = encodeChar c := List.append_nil _

theorem encode_append (s t : Text) : encode (s ++ t) = encode s ++ encode t :=
  List.flatMap_append ..

theorem encode_intercalate (sep : Text) (ts : List Text) :
    encode (sep.intercalate ts) = joinBytes (encode sep) (ts.map encode) := by
  induction ts with
  | nil => rfl
  | cons t ts ih =>
    cases ts with
    | nil => rw [List.intercalate_singleton]; rfl
    | cons u ts =>
      rw [List.intercalate_cons_cons, encode_append, encode_append, ih]
      rfl

/-! ### Pieces -/

/-- Reading after some bytes that belong to the last character is reading what follows them. -/
theorem piecesFrom_eq_pieces_drop (skip : Nat) (bs : Bytes) :
    piecesFrom skip bs = pieces (bs.drop skip) := by
  induction skip generalizing bs with
  | zero => rfl
  | succ skip ih =>
    cases bs with
    | nil => rfl
    | cons b r => exact ih r

theorem pieces_encodeChar_append (c : Char) (r : Bytes) :
    pieces (encodeChar c ++ r) = .char c :: pieces r := by
  have hfront := front?_encodeChar_append c r
  obtain ⟨b, bs, hbytes⟩ := List.exists_cons_of_ne_nil (encodeChar_ne_nil c)
  rw [hbytes, List.cons_append] at hfront ⊢
  rw [pieces, piecesFrom, hfront]
  simp only [piecesFrom_eq_pieces_drop, List.length_cons, Nat.add_sub_cancel, List.drop_left]

theorem pieces_cons_of_front?_eq_none {b : UInt8} {r : Bytes} (h : front? (b :: r) = none) :
    pieces (b :: r) = .stray b :: pieces r := by
  rw [pieces, piecesFrom, h]
  rfl

theorem pieces_encode (t : Text) : pieces (encode t) = t.map .char := by
  induction t with
  | nil => rfl
  | cons c t ih =>
    rw [encode, List.flatMap_cons, pieces_encodeChar_append, List.map_cons]
    exact congrArg (Piece.char c :: ·) ih

section

variable {c : Char} {b : UInt8} (hb : b.toNat < 0x80) (hc : encodeChar c = [b])

include hb hc

/-- A stray byte stays one when an ASCII character follows: it is not waiting for this byte. -/
theorem front?_append_singleton_eq_none {a : UInt8} {r : Bytes} (h : front? (a :: r) = none) :
    front? (a :: (r ++ [b])) = none := by
  by_contra hsome
  obtain ⟨⟨d, n⟩, hd⟩ := Option.ne_none_iff_exists'.mp hsome
  obtain ⟨⟨rest, hrest⟩, -⟩ := front?_eq_some_iff.mp hd
  rw [← List.cons_append] at hrest
  rcases List.eq_nil_or_concat rest with rfl | ⟨rest, b', rfl⟩
  · -- The byte would belong to a character of several bytes.
    rw [List.append_nil] at hrest
    have hd := toNat_eq_of_mem_encodeChar hb (by rw [← hrest]; simp : b ∈ encodeChar d)
    have hc' := toNat_eq_of_mem_encodeChar hb (by rw [hc]; simp : b ∈ encodeChar c)
    obtain rfl : c = d := Char.ext (UInt32.toNat_inj.mp (hc'.trans hd.symm))
    rw [hc] at hrest
    simp at hrest
  · rw [List.concat_eq_append, ← List.append_assoc] at hrest
    have hbefore := (List.append_inj' hrest rfl).1
    rw [front?_eq_some_iff.mpr ⟨⟨rest, hbefore⟩, rfl⟩] at h
    cases h

/-- **An ASCII character at the end is read by itself**, whatever stands before it. -/
theorem pieces_append_singleton : ∀ bs : Bytes, pieces (bs ++ [b]) = pieces bs ++ [.char c]
  | [] => by
    have hread := pieces_encodeChar_append c []
    rwa [hc] at hread
  | a :: r => by
    cases hfront : front? (a :: r) with
    | some p =>
      obtain ⟨d, n⟩ := p
      obtain ⟨⟨rest, hrest⟩, -⟩ := front?_eq_some_iff.mp hfront
      have hshorter : rest.length < r.length + 1 := by
        have hlength := congrArg List.length hrest
        have hpos := List.length_pos_iff.mpr (encodeChar_ne_nil d)
        rw [List.length_cons, List.length_append] at hlength
        omega
      rw [hrest, List.append_assoc, pieces_encodeChar_append, pieces_encodeChar_append,
        pieces_append_singleton rest, List.cons_append]
    | none =>
      rw [List.cons_append,
        pieces_cons_of_front?_eq_none (front?_append_singleton_eq_none hb hc hfront),
        pieces_cons_of_front?_eq_none hfront, pieces_append_singleton r, List.cons_append]
termination_by bs => bs.length

end

/-- **Reading loses nothing**: the pieces of a byte string make it up. -/
theorem joinPieces_pieces (bs : Bytes) : joinPieces (pieces bs) = bs := by
  suffices h : ∀ skip, joinPieces (piecesFrom skip bs) = bs.drop skip from h 0
  -- The induction is on the bytes, those of a character after its first one being skipped.
  induction bs with
  | nil =>
    intro skip
    cases skip <;> rfl
  | cons b r ih =>
    intro skip
    cases skip with
    | succ skip => exact ih skip
    | zero =>
      rw [piecesFrom]
      cases hfront : front? (b :: r) with
      | none => exact congrArg (b :: ·) (ih 0)
      | some p =>
        obtain ⟨c, n⟩ := p
        obtain ⟨⟨rest, hbs⟩, hn⟩ := front?_eq_some_iff.mp hfront
        have hrest : r.drop (n - 1) = rest := by
          obtain ⟨b', bs, hbytes⟩ := List.exists_cons_of_ne_nil (encodeChar_ne_nil c)
          rw [hbytes, List.cons_append, List.cons.injEq] at hbs
          rw [hn, hbytes, hbs.2, List.length_cons, Nat.add_sub_cancel, List.drop_left]
        calc joinPieces (.char c :: piecesFrom (n - 1) r)
            = encodeChar c ++ joinPieces (piecesFrom (n - 1) r) := rfl
          _ = encodeChar c ++ rest := by rw [ih, hrest]
          _ = b :: r := hbs.symm

theorem joinPieces_map_char (t : Text) : joinPieces (t.map .char) = encode t := by
  rw [joinPieces, List.flatMap_map]
  rfl

/-! ### Texts -/

/-- A byte string is UTF-8 exactly if all its pieces are characters. -/
theorem decode?_eq_some_iff_pieces {bs : Bytes} {t : Text} :
    decode? bs = some t ↔ pieces bs = t.map .char := by
  unfold decode?
  generalize pieces bs = ps
  induction ps generalizing t with
  | nil =>
    cases t with
    | nil => simp
    | cons c t => simp
  | cons p ps ih =>
    rw [List.mapM_cons]
    cases p with
    | stray b => cases t <;> simp
    | char c =>
      cases t with
      | nil => simp [Option.bind_eq_some_iff]
      | cons d t =>
        simp only [Option.bind_eq_bind, Option.bind_some, Option.bind_eq_some_iff, ih,
          Option.pure_def, Option.some.injEq, List.map_cons, List.cons.injEq, Piece.char.injEq]
        constructor
        · rintro ⟨t', hps, rfl, rfl⟩
          exact ⟨rfl, hps⟩
        · rintro ⟨rfl, hps⟩
          exact ⟨t, hps, rfl, rfl⟩

/-- **The byte strings that are UTF-8 are those that writing gives**, each from its one text. -/
theorem decode?_eq_some_iff {bs : Bytes} {t : Text} : decode? bs = some t ↔ bs = encode t := by
  rw [decode?_eq_some_iff_pieces]
  constructor
  · intro h
    rw [← joinPieces_pieces bs, h, joinPieces_map_char]
  · rintro rfl
    exact pieces_encode t

/-- What is written is read as it was. -/
theorem lossy_encode (t : Text) : lossy (encode t) = t := by
  rw [lossy, pieces_encode, List.map_map]
  exact List.map_id t

theorem decode?_eq_none_iff {bs : Bytes} : decode? bs = none ↔ ∀ t, bs ≠ encode t := by
  rw [Option.eq_none_iff_forall_ne_some]
  exact forall_congr' fun t => not_congr decode?_eq_some_iff

/-! ### Parts of a text -/

/-- A byte below `0x80` is a character by itself. -/
theorem exists_encodeChar_eq {b : UInt8} (h : b.toNat < 0x80) : ∃ c, encodeChar c = [b] := by
  obtain ⟨c, hcode⟩ : ∃ c : Char, c.toNat = b.toNat :=
    ⟨Char.ofNatAux b.toNat (.inl (by omega)), rfl⟩
  refine ⟨c, ?_⟩
  simp only [encodeChar, hcode]
  rw [if_pos h, (toUInt8_eq_iff (by omega) b).mpr rfl]

/-- The first byte of a character continues none, and the others do. -/
theorem exists_encodeChar_cons (c : Char) : ∃ b r, encodeChar c = b :: r ∧
    continuation? b = none ∧ ∀ x ∈ r, continuation? x ≠ none := by
  have hbound := toNat_bounds c
  have hfirst {n : ℕ} (h : n < 0x80 ∨ 0xC0 ≤ n) (hn : n < 0x100) :
      continuation? n.toUInt8 = none := by
    rwa [continuation?_eq_none_iff, toNat_toUInt8 hn]
  have hrest (n : ℕ) : continuation? (0x80 + n % 0x40).toUInt8 ≠ none := by
    rw [continuation?_toUInt8 (Nat.mod_lt n (by omega))]
    exact Option.some_ne_none _
  simp only [encodeChar]
  split_ifs
  all_goals refine ⟨_, _, rfl, hfirst (by omega) (by omega), ?_⟩
  · exact List.forall_mem_nil _
  · exact List.forall_mem_singleton.mpr (hrest _)
  · exact List.forall_mem_cons.mpr ⟨hrest _, List.forall_mem_singleton.mpr (hrest _)⟩
  · exact List.forall_mem_cons.mpr ⟨hrest _,
      List.forall_mem_cons.mpr ⟨hrest _, List.forall_mem_singleton.mpr (hrest _)⟩⟩

theorem pieces_encode_append (s : Text) (bs : Bytes) :
    pieces (encode s ++ bs) = s.map .char ++ pieces bs := by
  induction s with
  | nil => rfl
  | cons c s ih =>
    rw [encode, List.flatMap_cons, List.append_assoc, pieces_encodeChar_append, List.map_cons]
    exact congrArg (Piece.char c :: ·) ih

/-- A text is taken away from the front of a text. -/
theorem exists_of_encode_append_eq {s t : Text} {bs : Bytes} (h : encode s ++ bs = encode t) :
    ∃ u, bs = encode u ∧ t = s ++ u := by
  have hpieces := congrArg pieces h
  rw [pieces_encode_append, pieces_encode] at hpieces
  obtain ⟨s', u, rfl, hs, hu⟩ := List.map_eq_append_iff.mp hpieces.symm
  obtain rfl : s' = s := List.map_injective_iff.mpr (fun _ _ => Piece.char.inj) hs
  exact ⟨u, by rw [← joinPieces_pieces bs, ← hu, joinPieces_map_char], rfl⟩

/-- What stands before a text in a text is a text. -/
theorem exists_of_append_encode_eq {s t : Text} {bs : Bytes} (h : bs ++ encode s = encode t) :
    ∃ u, bs = encode u := by
  induction t generalizing bs with
  | nil => exact ⟨[], (List.append_eq_nil_iff.mp h).1⟩
  | cons c t ih =>
    rw [encode, encode, List.flatMap_cons] at h
    rcases List.append_eq_append_iff.mp h with ⟨tail, hc, hs⟩ | ⟨front, rfl, ht⟩
    · cases tail with
      | nil =>
        rw [List.append_nil] at hc
        exact ⟨[c], by rw [← hc, encode, List.flatMap_singleton]⟩
      | cons x tail =>
        -- The text cannot start in the middle of a character.
        cases bs with
        | nil => exact ⟨[], rfl⟩
        | cons b bs =>
          obtain ⟨b', r, hcons, -, hr⟩ := exists_encodeChar_cons c
          have hx : continuation? x ≠ none := by
            rw [hcons, List.cons_append, List.cons.injEq] at hc
            exact hr x (by simp [hc.2])
          cases s with
          | nil => exact absurd hs (by simp)
          | cons d s =>
            obtain ⟨d', r', hcons', hd, -⟩ := exists_encodeChar_cons d
            rw [List.flatMap_cons, hcons', List.cons_append, List.cons_append,
              List.cons.injEq] at hs
            exact absurd (hs.1 ▸ hd) hx
    · obtain ⟨u, rfl⟩ := ih ht.symm
      exact ⟨c :: u, rfl⟩

end Utf8

end ScriptLint
