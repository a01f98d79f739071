import ScriptLint.Proofs.Config.Calm

/-!
# Values of settings

What decoding can make of a scalar is bounded: integers have 64 bits, numbers are those of the
format, timestamps have the fields of a date (`Value.IsSound`). Some values come back from their
text as another value, and `Value.IsFaithful` leaves these out.
-/

namespace ScriptLint

open Yaml

namespace Value

/-- Whether a value is neither a list nor a mapping. -/
def isScalar : Value → Bool
  | .list _ | .map _ | .table _ => false
  | _ => true

/-- Whether a value is one that decoding can give. The keys of a table are different scalars. -/
inductive IsSound : Value → Prop
  | null : IsSound .null
  | bool {b : Bool} : IsSound (.bool b)
  | int {n : ℤ} (low : -(intLimit : ℤ) ≤ n) (high : n < 2 * intLimit) : IsSound (.int n)
  | float {x : Binary64} (h : x.IsValid) : IsSound (.float x)
  | text {s : Bytes} : IsSound (.text s)
  | time {t : Timestamp} (h : t.IsValid) : IsSound (.time t)
  | list {items : List Value} (h : ∀ v ∈ items, IsSound v) : IsSound (.list items)
  | map {entries : List (Bytes × Value)} (h : ∀ e ∈ entries, IsSound e.2) : IsSound (.map entries)
  | table {entries : List (Value × Value)}
    (apart : entries.Pairwise fun a b => sameKey b.1 a.1 = false)
    (scalars : ∀ e ∈ entries, e.1.isScalar = true) (keys : ∀ e ∈ entries, IsSound e.1)
    (values : ∀ e ∈ entries, IsSound e.2) : IsSound (.table entries)

/-- Whether a value is a scalar that decoding can give. -/
structure IsSoundScalar (v : Value) : Prop where
  isSound : v.IsSound
  isScalar : v.isScalar = true

/-- Whether a value is the string of a UTF-8 text. -/
def isUtf8Text : Value → Bool
  | .text s => (Utf8.decode? s).isSome
  | _ => false

/-- Whether a value comes back as it was written. A whole number below a million loses its point and
a timestamp with an offset of 25 hours is no timestamp, and whether a mapping is one of strings is
told by its keys. -/
inductive IsFaithful : Value → Prop
  | null : IsFaithful .null
  | bool {b : Bool} : IsFaithful (.bool b)
  | int {n : ℤ} : IsFaithful (.int n)
  | float {x : Binary64} (h : ¬ x.IsSmallWhole) : IsFaithful (.float x)
  | text {s : Bytes} : IsFaithful (.text s)
  | time {t : Timestamp} (h : t.offset.natAbs < 1500) : IsFaithful (.time t)
  | list {items : List Value} (h : ∀ v ∈ items, IsFaithful v) : IsFaithful (.list items)
  | map {entries : List (Bytes × Value)}
    (keys : ∀ e ∈ entries, (Utf8.decode? e.1).isSome = true)
    (values : ∀ e ∈ entries, IsFaithful e.2) : IsFaithful (.map entries)
  | table {entries : List (Value × Value)} (other : ∃ e ∈ entries, e.1.isUtf8Text = false)
    (keys : ∀ e ∈ entries, IsFaithful e.1) (values : ∀ e ∈ entries, IsFaithful e.2) :
    IsFaithful (.table entries)

/-- Whether two values are the same up to the order in which the entries of mappings are listed. -/
inductive Same : Value → Value → Prop
  | scalar {v : Value} (h : v.isScalar = true) : Same v v
  | list {items items' : List Value} (h : List.Forall₂ Same items items') :
    Same (.list items) (.list items')
  | map {entries ordered entries' : List (Bytes × Value)} (order : entries.Perm ordered)
    (keys : ordered.map Prod.fst = entries'.map Prod.fst)
    (values : List.Forall₂ Same (ordered.map Prod.snd) (entries'.map Prod.snd)) :
    Same (.map entries) (.map entries')
  | table {entries ordered entries' : List (Value × Value)} (order : entries.Perm ordered)
    (keys : ordered.map Prod.fst = entries'.map Prod.fst)
    (values : List.Forall₂ Same (ordered.map Prod.snd) (entries'.map Prod.snd)) :
    Same (.table entries) (.table entries')

theorem Same.kindName_eq {v v' : Value} (h : v.Same v') : v.kindName = v'.kindName := by
  cases h with
  | _ => rfl

/-- The values of mappings that are the same are of the same kinds. -/
theorem Same.perm_kindName {settings settings' : Settings}
    (h : Same (.map settings) (.map settings')) :
    (settings.map (·.2.kindName)).Perm (settings'.map (·.2.kindName)) := by
  cases h with
  | scalar h => cases h
  | @map _ ordered _ order keys values =>
    have hkinds : ordered.map (·.2.kindName) = settings'.map (·.2.kindName) := by
      rw [List.forall₂_map_left_iff, List.forall₂_map_right_iff] at values
      clear order keys
      induction values with
      | nil => rfl
      | cons h _ ih => rw [List.map_cons, List.map_cons, ih, h.kindName_eq]
    rw [← hkinds]
    exact order.map _

end Value

/-! ### What scalars look like -/

namespace Yaml

theorem signed64?_bounds {read : Text → Option ℕ} {t : Text} {n : ℤ}
    (h : signed64? read t = some n) : -(intLimit : ℤ) ≤ n ∧ n < 2 * intLimit := by
  have hpositive : 0 < intLimit := by decide
  have hwithin {r : Text} (h : signed64?.within read r = some n) :
      -(intLimit : ℤ) ≤ n ∧ n < 2 * intLimit := by
    obtain ⟨m, -, h⟩ := Option.bind_eq_some_iff.mp h
    split_ifs at h
    obtain rfl := Option.some.inj h
    omega
  unfold signed64? at h
  split at h
  · obtain ⟨m, -, h⟩ := Option.bind_eq_some_iff.mp h
    split_ifs at h
    obtain rfl := Option.some.inj h
    omega
  · exact hwithin h
  · exact hwithin h

theorem integer?_bounds {read : Text → Option ℕ} {t : Text} {n : ℤ}
    (h : integer? read t = some n) : -(intLimit : ℤ) ≤ n ∧ n < 2 * intLimit := by
  unfold integer? at h
  split at h
  · next hsigned => exact signed64?_bounds (Option.some.inj h ▸ hsigned)
  · obtain ⟨m, -, h⟩ := Option.bind_eq_some_iff.mp h
    split_ifs at h
    obtain rfl := Option.some.inj h
    omega

theorem isValid_of_ofDecimal? {negative : Bool} {digits : ℕ} {e : ℤ} {x : Binary64}
    (h : Binary64.ofDecimal? negative digits e = some x) : x.IsValid := by
  unfold Binary64.ofDecimal? at h
  dsimp only at h
  split_ifs at h
  · obtain rfl := Option.some.inj h
    exact ⟨by decide, by decide, by decide, .inr rfl⟩
  · exact Binary64.isValid_of_ofFraction? h

theorem isValid_ofInt (n : ℤ) : (Binary64.ofInt n).IsValid := by
  unfold Binary64.ofInt
  cases h : Binary64.ofFraction? (n < 0) n.natAbs 1 with
  | none => trivial
  | some x => exact Binary64.isValid_of_ofFraction? h

theorem isSoundScalar_of_word? {t : Text} {found : Bytes × Value} (h : word? t = some found) :
    found.2.IsSoundScalar := by
  simp only [word?] at h
  split_ifs at h
  all_goals obtain rfl := Option.some.inj h
  · exact ⟨.bool, rfl⟩
  · exact ⟨.bool, rfl⟩
  · exact ⟨.null, rfl⟩
  · exact ⟨.float trivial, rfl⟩
  · exact ⟨.float trivial, rfl⟩
  · exact ⟨.float trivial, rfl⟩

theorem innerSigned?_bounds {t : Text} {n : ℤ} (h : innerSigned? t = some n) :
    -(intLimit : ℤ) ≤ n ∧ n < 2 * intLimit := by
  unfold innerSigned? at h
  split at h
  · exact integer?_bounds h
  · exact signed64?_bounds h
  · exact integer?_bounds h
  · exact signed64?_bounds h
  · cases h

theorem isSoundScalar_of_number? {t : Text} {found : Bytes × Value} (h : number? t = some found) :
    found.2.IsSoundScalar := by
  simp only [number?] at h
  split at h
  · next n hn =>
    obtain rfl := Option.some.inj h
    exact ⟨.int (integer?_bounds hn).1 (integer?_bounds hn).2, rfl⟩
  · split at h
    · next x hx =>
      obtain rfl := Option.some.inj h
      obtain ⟨d, -, hd⟩ := Option.bind_eq_some_iff.mp hx
      exact ⟨.float (isValid_of_ofDecimal? hd), rfl⟩
    · obtain ⟨n, hn, rfl⟩ := Option.map_eq_some_iff.mp h
      exact ⟨.int (innerSigned?_bounds hn).1 (innerSigned?_bounds hn).2, rfl⟩

theorem isSoundScalar_of_pointNumber? {t : Text} {found : Bytes × Value}
    (h : pointNumber? t = some found) : found.2.IsSoundScalar := by
  simp only [pointNumber?] at h
  split_ifs at h
  obtain ⟨d, -, h⟩ := Option.bind_eq_some_iff.mp h
  obtain ⟨x, hx, h⟩ := Option.bind_eq_some_iff.mp h
  obtain rfl := Option.some.inj h
  exact ⟨.float (isValid_of_ofDecimal? hx), rfl⟩

/-- **What a text looks like is a scalar that decoding can give.** -/
theorem isSoundScalar_looksLike (dates : Bool) (t : Text) :
    (looksLike dates t).2.IsSoundScalar := by
  have hgetD {o : Option (Bytes × Value)} (h : ∀ found ∈ o, found.2.IsSoundScalar) :
      (o.getD (Tag.str, .text (Utf8.encode t))).2.IsSoundScalar := by
    cases o with
    | none => exact ⟨.text, rfl⟩
    | some found => exact h found rfl
  unfold looksLike
  split
  · exact ⟨.null, rfl⟩
  · dsimp only
    split_ifs
    · refine hgetD fun found hfound => ?_
      cases hword : word? (_ :: _) with
      | none =>
        rw [hword] at hfound
        exact isSoundScalar_of_pointNumber? hfound
      | some found' =>
        rw [hword] at hfound
        exact Option.some.inj hfound ▸ isSoundScalar_of_word? hword
    · split
      · next hword => exact isSoundScalar_of_word? hword
      · split
        · next htime => exact ⟨.time (Timestamp.isValid_of_parse? htime), rfl⟩
        · exact hgetD fun _ => isSoundScalar_of_number?
    · split
      · next hword => exact isSoundScalar_of_word? hword
      · exact hgetD fun _ => isSoundScalar_of_number?
    · exact hgetD fun _ => isSoundScalar_of_word?
    · exact ⟨.text, rfl⟩

end Yaml

/-! ### Reading back a scalar -/

namespace Value

open Yaml

/-- What the node of a scalar is read as. -/
structure IsReadBy (v : Value) (tag : Bytes) (t : Text) (v' : Value) : Prop where
  reads : Decoding.scalarValue tag t = pure (tag, v')
  isScalar : v'.isScalar = true
  faithful : v.IsFaithful → v' = v
  /-- Only texts have the tag of texts. -/
  text : tag = Tag.str → v' = .text (Utf8.encode t)
  merge : tag = Tag.merge → t = ['<', '<']

/-- A plain text that looks like the value. -/
theorem isReadBy_plain {v : Value} {t : Text} {n : Node} (hn : (Tree.plain t).agrees n = true)
    (hmerge : t ≠ ['<', '<']) (hv : v.IsFaithful → ∃ tag, looksLike true t = (tag, v)) :
    ∃ tag line v', n = .scalar tag t line ∧ v.IsReadBy tag t v' := by
  obtain ⟨line, rfl⟩ := Tree.agrees_scalar hn
  obtain ⟨tag, v', hnode, hreads, hlooks⟩ := scalarValue_plain t line
  have hlooks := hlooks hmerge
  have hscalar := (isSoundScalar_looksLike true t).isScalar
  rw [← hlooks] at hscalar
  refine ⟨tag, line, v', hnode, hreads, hscalar, fun hfaithful => ?_, fun htag => ?_,
    fun htag => ?_⟩
  · obtain ⟨tag', h⟩ := hv hfaithful
    exact (Prod.mk.inj (hlooks.trans h)).2
  · rcases looksLike_cases t with h | ⟨s, h⟩ | ⟨-, hmem⟩
    · exact (Prod.mk.inj (hlooks.trans h)).2
    · have := (Prod.mk.inj (hlooks.trans h)).1
      rw [htag] at this
      exact absurd this (by decide)
    · have hstr : Tag.str ∈ wordTags := by
        rwa [← hlooks, htag] at hmem
      exact absurd hstr (by decide)
  · have hmem := tag_of_looksLike t
    rw [← hlooks, htag] at hmem
    have hnot : Tag.merge ∉ Tag.str :: Tag.timestamp :: wordTags := by decide
    exact absurd hmem hnot

theorem floatText_ne {x : Binary64} (hx : x.IsValid) : Yaml.floatText x ≠ ['<', '<'] := by
  cases x with
  | nan => decide
  | infinity negative => cases negative <;> decide
  | finite negative mant exp =>
    obtain ⟨q, digits, e, hq, htext, -, -⟩ := exists_numberText_finite negative hx
    have hstart := hq.isNumber.startsNumber negative
    intro h
    rw [← htext, show (Binary64.finite negative mant exp).render = ['<', '<'] from h] at hstart
    exact absurd hstart (by decide)

theorem interchange_ne (t : Timestamp) : t.interchange ≠ ['<', '<'] := by
  intro h
  have hmem : '-' ∈ t.interchange := by
    rw [Timestamp.interchange_eq, Timestamp.dateText]
    simp
  rw [h] at hmem
  exact absurd hmem (by decide)

theorem intText_ne (n : ℤ) : intText n ≠ ['<', '<'] := by
  have hdigit {n : ℕ} {r : Text} : Nat.toDigits 10 n ≠ '<' :: r := by
    intro h
    have : '<' ∈ Nat.toDigits 10 n := h ▸ List.mem_cons_self
    exact absurd (isDigit_of_mem_toDigits this) (by decide)
  cases n with
  | ofNat n => exact hdigit
  | negSucc n => exact fun h => absurd (List.cons.inj h).1 (by decide)

/-- **A scalar is read back from the node that it is written as**, if it is faithful. -/
theorem exists_isReadBy {v : Value} (hv : v.IsSoundScalar) {n : Node}
    (hn : (Tree.ofValue v).agrees n = true) :
    ∃ tag t line v', n = .scalar tag t line ∧ (Tree.ofValue v).text? = some t ∧
      v.IsReadBy tag t v' := by
  obtain ⟨hsound, hscalar⟩ := hv
  -- Every scalar but a text is written plainly, and then it is read as what its text looks like.
  have hplain {t : Text} (htree : Tree.ofValue v = Tree.plain t) (hmerge : t ≠ ['<', '<'])
      (hlooks : v.IsFaithful → ∃ tag, looksLike true t = (tag, v)) :
      ∃ tag t line v', n = .scalar tag t line ∧ (Tree.ofValue v).text? = some t ∧
        v.IsReadBy tag t v' := by
    rw [htree] at hn
    obtain ⟨tag, line, v', hnode, hread⟩ := isReadBy_plain hn hmerge hlooks
    exact ⟨tag, t, line, v', hnode, htree ▸ rfl, hread⟩
  cases hsound with
  | null => exact hplain (Tree.ofValue.eq_1) (by decide) fun _ => ⟨_, rfl⟩
  | @bool b =>
    refine hplain (Tree.ofValue.eq_2 b) ?_ fun _ => ?_
    · cases b <;> decide
    · cases b
      · exact ⟨_, rfl⟩
      · exact ⟨_, rfl⟩
  | @int n low high =>
    refine hplain (t := intText n) ?_ (intText_ne n) fun _ => ⟨_, looksLike_intText low high⟩
    rw [Tree.ofValue, toList_toString_int]
  | @float x h =>
    refine hplain (t := floatText x) ?_ (floatText_ne h) fun hfaithful => ?_
    · rw [Tree.ofValue, ofFloat_eq]
    · cases hfaithful with
      | float hsmall => exact ⟨_, looksLike_floatText h hsmall⟩
  -- A text may have been written in quotes or in Base64, so it is read back by its tag.
  | @text s =>
    rw [Tree.ofValue] at hn ⊢
    obtain ⟨t, ht⟩ := Option.isSome_iff_exists.mp (Tree.isSome_text?_string s)
    obtain ⟨tag, t', line, rfl, hreads, htext, hmerge⟩ :=
      (Tree.isText_of_agrees hn).exists_scalarValue
    have heq := Tree.scalarText?_of_agrees hn ht
    obtain rfl : t' = t := Option.some.inj heq
    refine ⟨tag, t', line, .text s, rfl, ht, hreads, rfl, fun _ => rfl, fun htag => ?_, hmerge⟩
    rw [htext]
    rw [htag]
    decide
  | @time t h =>
    refine hplain (Tree.ofValue.eq_6 t) (interchange_ne t) fun hfaithful => ?_
    cases hfaithful with
    | time hoffset => exact ⟨_, looksLike_interchange h hoffset⟩
  | list _ => cases hscalar
  | map _ => cases hscalar
  | table _ _ _ _ => cases hscalar

end Value

end ScriptLint
