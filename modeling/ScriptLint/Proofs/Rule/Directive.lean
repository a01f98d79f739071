import ScriptLint.Proofs.Text.Expression
import ScriptLint.Rule.RequireVersion

/-!
# Words on a directive

The words of a directive are written in any letter case with ASCII blanks between them. A word that
starts with no blank is found behind blanks in one way only, because no other character agrees with
a blank (`bind_strip?_eq_some_iff`). As parts of an expression blanks match what they are
(`Expression.matches_blanks_cons`). Where a word ends in a letter without a form outside ASCII, so
does whatever agrees with it (`Fold.Agrees.startsWithWord_reverse`).
-/

namespace ScriptLint

/-- Whether a text is made of one or more ASCII blanks. -/
def AreBlanks (t : Text) : Prop := t ≠ [] ∧ ∀ c ∈ t, isAsciiBlank c = true

/-- Whether a text starts with a character that is no ASCII blank. -/
def StartsNonblank (t : Text) : Prop := ∃ c r, t = c :: r ∧ isAsciiBlank c = false

/-- A blank agrees with itself only. -/
theorem Fold.eq_of_isAsciiBlank {p c : Char} (hc : isAsciiBlank c = true)
    (h : codePoint p.toNat = codePoint c.toNat) : p = c := by
  have hfolds : codePoint c.toNat = c.toNat ∧ c.toNat ≤ 0x20 := by
    rcases isAsciiBlank_iff.mp hc with rfl | rfl | rfl | rfl | rfl
    all_goals decide
  rw [hfolds.1] at h
  have hsame : p.toNat = c.toNat := by
    rcases codePoint_ascii (show codePoint p.toNat < 0x80 by omega) with hp | hp | hp
    · rw [codePoint_of_lt hp] at h
      split_ifs at h <;> omega
    all_goals omega
  exact Char.toNat_inj.mp hsame

/-- The letters that the words of directives end in: `e`, `f` and `t`. No character outside ASCII
folds to them. -/
def wordEnds : List ℕ := [0x65, 0x66, 0x74]

/-- What folds to the end of a word is a word character. -/
theorem Fold.isWordChar_of_codePoint {c : Char} {n : ℕ} (h : codePoint c.toNat = n)
    (hn : n ∈ wordEnds) : isWordChar c = true := by
  have hascii : c.toNat < 0x80 := by
    simp only [wordEnds, List.mem_cons, List.not_mem_nil, or_false] at hn
    rcases codePoint_ascii (show codePoint c.toNat < 0x80 by omega) with hc | hc | hc <;> omega
  have hall : ∀ m < 0x80, (if 0x41 ≤ m ∧ m ≤ 0x5A then m + 0x20 else m) ∈ wordEnds →
      isWordChar (Char.ofNat m) = true := by
    decide
  rw [codePoint_of_lt hascii] at h
  have hword := hall c.toNat hascii (h ▸ hn)
  rwa [Char.ofNat_toNat] at hword

/-- What agrees with a pattern that ends as a word ends in a word character. -/
theorem Fold.Agrees.startsWithWord_reverse {p t r : Text} {c : Char} (h : Fold.Agrees p t)
    (hp : p.reverse = c :: r) (hc : Fold.codePoint c.toNat ∈ wordEnds) :
    startsWithWord t.reverse = true := by
  have hreverse := h.reverse
  rw [hp] at hreverse
  obtain ⟨d, ds, hd, hsame, -⟩ := Fold.agrees_cons_iff.mp hreverse
  rw [hd]
  exact Fold.isWordChar_of_codePoint hsame.symm hc

theorem StartsNonblank.of_agrees {p t : Text} (hp : StartsNonblank p) (h : Fold.Agrees p t) :
    StartsNonblank t := by
  obtain ⟨a, as, rfl, ha⟩ := hp
  obtain ⟨c, cs, rfl, hsame, -⟩ := Fold.agrees_cons_iff.mp h
  refine ⟨c, cs, rfl, ?_⟩
  by_contra hc
  rw [Bool.not_eq_false] at hc
  rw [Fold.eq_of_isAsciiBlank hc hsame, hc] at ha
  exact absurd ha (by decide)

/-- **Blanks end where something else starts.** -/
theorem afterBlanks?_append {gap t : Text} (hgap : AreBlanks gap) (ht : StartsNonblank t) :
    afterBlanks? (gap ++ t) = some t := by
  obtain ⟨c, r, rfl, hc⟩ := ht
  obtain ⟨hne, hall⟩ := hgap
  obtain ⟨b, bs, rfl⟩ := List.exists_cons_of_ne_nil hne
  obtain ⟨hb, hbs⟩ := List.forall_mem_cons.mp hall
  rw [List.cons_append, afterBlanks?, if_pos hb, (span_append_cons hbs hc r).2]

theorem exists_areBlanks_of_afterBlanks? {t r : Text} (h : afterBlanks? t = some r) :
    ∃ gap, t = gap ++ r ∧ AreBlanks gap := by
  cases t with
  | nil => exact absurd h (by simp [afterBlanks?])
  | cons c cs =>
    rw [afterBlanks?] at h
    split_ifs at h with hc
    obtain rfl := Option.some.inj h
    refine ⟨c :: cs.takeWhile isAsciiBlank, ?_, List.cons_ne_nil _ _, ?_⟩
    · rw [List.cons_append, List.takeWhile_append_dropWhile]
    · exact List.forall_mem_cons.mpr ⟨hc, fun d hd => List.mem_takeWhile_imp hd⟩

/-- **A word is found behind blanks** exactly where blanks and a text that agrees with the word
stand. -/
theorem bind_strip?_eq_some_iff {word : Text} (hword : StartsNonblank word) {t r : Text} :
    afterBlanks? t >>= Fold.strip? word = some r ↔
      ∃ gap front, t = gap ++ (front ++ r) ∧ AreBlanks gap ∧ Fold.Agrees word front := by
  rw [Option.bind_eq_bind, Option.bind_eq_some_iff]
  constructor
  · rintro ⟨rest, hrest, hstrip⟩
    obtain ⟨gap, rfl, hgap⟩ := exists_areBlanks_of_afterBlanks? hrest
    obtain ⟨front, rfl, hfront⟩ := Fold.strip?_eq_some_iff.mp hstrip
    exact ⟨gap, front, rfl, hgap, hfront⟩
  · rintro ⟨gap, front, rfl, hgap, hfront⟩
    refine ⟨front ++ r, ?_, Fold.strip?_eq_some_iff.mpr ⟨front, rfl, hfront⟩⟩
    obtain ⟨c, cs, rfl, hc⟩ := hword.of_agrees hfront
    exact afterBlanks?_append hgap ⟨c, cs ++ r, rfl, hc⟩

/-! ### Words as an expression -/

namespace Expression

/-- The part of an expression that asks for one or more blanks. -/
def blanks : Item := .repeated .blank .oneOrMore

theorem matches_blanks_cons {e : Expression} {before t after : Text} :
    Matches (blanks :: e) before t after ↔ ∃ gap back, t = gap ++ back ∧ AreBlanks gap ∧
      Matches e (before ++ gap) back after := by
  have hblanks (gap : Text) (r : Text) : blanks.Matches before gap r ↔ AreBlanks gap := by
    show 1 ≤ gap.length ∧ _ ↔ gap ≠ [] ∧ _
    rw [Nat.one_le_iff_ne_zero, Ne, List.length_eq_zero_iff]
    rfl
  simp only [Matches, hblanks]

end Expression

end ScriptLint
