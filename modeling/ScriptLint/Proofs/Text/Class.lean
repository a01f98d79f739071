import ScriptLint.Proofs.Text.Utf8
import ScriptLint.Text.Class
import Mathlib.Data.List.TakeWhile

/-!
# Classes of characters and trimming

A blank is white space and no word character. Trimming leaves no white space at the front, is the
same on a text and on its bytes (`trimBytes_encode`), and takes nothing but characters away, so that
a byte string is UTF-8 exactly if it is when it is trimmed (`decode?_trimBytes_eq_none_iff`).
-/

namespace ScriptLint

/-! ### Characters -/

/-- What may start an identifier may stand in it. -/
theorem isWordChar_of_isIdentStart {c : Char} (h : isIdentStart c = true) :
    isWordChar c = true := by
  simp only [isIdentStart, isWordChar, Char.isAlphanum, Bool.or_eq_true] at h ⊢
  exact h.imp_left .inl

/-- There are five ASCII blanks. -/
theorem isAsciiBlank_iff {c : Char} :
    isAsciiBlank c = true ↔ c = '\t' ∨ c = '\n' ∨ c = '\x0C' ∨ c = '\r' ∨ c = ' ' := by
  simp only [isAsciiBlank, Bool.or_eq_true, beq_iff_eq, or_assoc]

theorem isWordChar_eq_false_of_isAsciiBlank {c : Char} (h : isAsciiBlank c = true) :
    isWordChar c = false := by
  rcases isAsciiBlank_iff.mp h with rfl | rfl | rfl | rfl | rfl
  all_goals decide

theorem isAsciiBlank_eq_false_of_isWordChar {c : Char} (h : isWordChar c = true) :
    isAsciiBlank c = false := by
  by_contra hblank
  rw [Bool.not_eq_false] at hblank
  rw [isWordChar_eq_false_of_isAsciiBlank hblank] at h
  exact absurd h (by decide)

theorem isSpace_of_isAsciiBlank {c : Char} (h : isAsciiBlank c = true) : isSpace c = true := by
  rcases isAsciiBlank_iff.mp h with rfl | rfl | rfl | rfl | rfl
  all_goals decide

/-- No word starts in a text exactly if it is empty or starts with another character. -/
theorem startsWithWord_eq_false_iff {t : Text} :
    startsWithWord t = false ↔ ∀ c ∈ t.head?, isWordChar c = false := by
  cases t with
  | nil => simp [startsWithWord]
  | cons c t => simp [startsWithWord]

/-- A text between characters of a class and one outside. -/
theorem span_append_cons {p : Char → Bool} {a : Text} (ha : ∀ c ∈ a, p c = true) {c : Char}
    (hc : p c = false) (r : Text) :
    (a ++ c :: r).takeWhile p = a ∧ (a ++ c :: r).dropWhile p = c :: r := by
  have hneg : ¬ p c = true := by simp [hc]
  constructor
  · rw [List.takeWhile_append_of_pos ha, List.takeWhile_cons_of_neg hneg, List.append_nil]
  · rw [List.dropWhile_append_of_pos ha, List.dropWhile_cons_of_neg hneg]

/-! ### Trimming -/

theorem prefix_dropEndWhile (p : Char → Bool) (t : Text) : dropEndWhile p t <+: t := by
  rw [dropEndWhile, ← List.reverse_suffix, List.reverse_reverse]
  exact List.dropWhile_suffix p

/-- A trimmed text does not start with white space. -/
theorem isSpace_eq_false_of_mem_head?_trim {t : Text} {c : Char} (h : c ∈ (trim t).head?) :
    isSpace c = false := by
  obtain ⟨r, hr⟩ := prefix_dropEndWhile isSpace (t.dropWhile isSpace)
  have hhead : (t.dropWhile isSpace).head? = some c := by
    rw [← hr, List.head?_append, show (dropEndWhile isSpace _).head? = some c from h]
    rfl
  have hnot := List.head?_dropWhile_not isSpace t
  rwa [hhead] at hnot

/-- **A text is trimmed as its bytes are.** -/
theorem trimBytes_encode (t : Text) : trimBytes (Utf8.encode t) = Utf8.encode (trim t) := by
  have hclass : Utf8.Piece.isSpace ∘ Utf8.Piece.char = isSpace := rfl
  simp only [trimBytes, trim, dropEndWhile, Utf8.pieces_encode, List.dropWhile_map, hclass,
    ← List.map_reverse, Utf8.joinPieces_map_char]

/-- **A white space character at the end is trimmed away**, also behind bytes that are no text. -/
theorem trimBytes_append_singleton {c : Char} {b : UInt8} (hb : b.toNat < 0x80)
    (hc : Utf8.encodeChar c = [b]) (hspace : isSpace c = true) (bs : Bytes) :
    trimBytes (bs ++ [b]) = trimBytes bs := by
  have hpiece : (Utf8.Piece.char c).isSpace = true := hspace
  rw [trimBytes, trimBytes, Utf8.pieces_append_singleton hb hc, List.dropWhile_append]
  cases hinner : (Utf8.pieces bs).dropWhile Utf8.Piece.isSpace with
  | nil => simp [hpiece]
  | cons p ps => simp [hpiece]

/-- White space is made of characters. -/
theorem exists_encode_of_isSpace {ps : List Utf8.Piece} (h : ∀ p ∈ ps, p.isSpace = true) :
    ∃ t, Utf8.joinPieces ps = Utf8.encode t := by
  induction ps with
  | nil => exact ⟨[], rfl⟩
  | cons p ps ih =>
    obtain ⟨hp, hps⟩ := List.forall_mem_cons.mp h
    obtain ⟨t, ht⟩ := ih hps
    cases p with
    | char c => exact ⟨c :: t, congrArg (Utf8.encodeChar c ++ ·) ht⟩
    | stray b => exact absurd hp (by simp [Utf8.Piece.isSpace])

/-- White space, what is left of a byte string when it is trimmed, and white space make it up. -/
theorem exists_eq_append_trimBytes (bs : Bytes) :
    ∃ s t, bs = Utf8.encode s ++ (trimBytes bs ++ Utf8.encode t) := by
  set inner := (Utf8.pieces bs).dropWhile Utf8.Piece.isSpace with hinner
  have hfront : ∀ p ∈ (Utf8.pieces bs).takeWhile Utf8.Piece.isSpace, p.isSpace = true :=
    fun p hp => List.mem_takeWhile_imp hp
  have hend : ∀ p ∈ (inner.reverse.takeWhile Utf8.Piece.isSpace).reverse, p.isSpace = true :=
    fun p hp => List.mem_takeWhile_imp (List.mem_reverse.mp hp)
  obtain ⟨s, hs⟩ := exists_encode_of_isSpace hfront
  obtain ⟨t, ht⟩ := exists_encode_of_isSpace hend
  refine ⟨s, t, ?_⟩
  have hback : (inner.reverse.dropWhile Utf8.Piece.isSpace).reverse
      ++ (inner.reverse.takeWhile Utf8.Piece.isSpace).reverse = inner := by
    rw [← List.reverse_append, List.takeWhile_append_dropWhile, List.reverse_reverse]
  have happend (ps qs : List Utf8.Piece) :
      Utf8.joinPieces (ps ++ qs) = Utf8.joinPieces ps ++ Utf8.joinPieces qs :=
    List.flatMap_append
  calc bs = Utf8.joinPieces (Utf8.pieces bs) := (Utf8.joinPieces_pieces bs).symm
    _ = Utf8.encode s ++ Utf8.joinPieces inner := by
      rw [← hs, ← happend, hinner, List.takeWhile_append_dropWhile]
    _ = Utf8.encode s ++ (trimBytes bs ++ Utf8.encode t) := by
      rw [← ht, trimBytes, ← happend, hback]

/-- **A byte string is UTF-8 exactly if it is when it is trimmed.** -/
theorem decode?_trimBytes_eq_none_iff {bs : Bytes} :
    Utf8.decode? (trimBytes bs) = none ↔ Utf8.decode? bs = none := by
  simp only [Utf8.decode?_eq_none_iff]
  constructor
  · rintro h t rfl
    exact h (trim t) (trimBytes_encode t)
  · intro h t ht
    obtain ⟨s, u, hbs⟩ := exists_eq_append_trimBytes bs
    rw [ht, ← Utf8.encode_append, ← Utf8.encode_append] at hbs
    exact h _ hbs

end ScriptLint
