import ScriptLint.Proofs.Yaml.Timestamp
import ScriptLint.Config.Decoding

/-!
# Reading back scalars

A string is written plain, in quotation marks or as base 64, and each of these is read as the same
string (`Yaml.exists_string`). Other scalars are written plain and read as what they look like
(`Yaml.scalarValue_plain`), which is the value itself for null, booleans, integers of 64 bits, and
the numbers and timestamps that are read back from their text.
-/

namespace ScriptLint.Yaml

/-! ### Base 64 -/

theorem base64Value?_base64Char (n : ℕ) : base64Value? (base64Char n) = some (n % 64) := by
  have h : ∀ k < 64, base64Value? (base64Char k) = some k := by decide +kernel
  have hchar : base64Char (n % 64) = base64Char n := by rw [base64Char, Nat.mod_mod, base64Char]
  rw [← h (n % 64) (Nat.mod_lt n (by decide)), hchar]

/-- No character of the alphabet is padding or a line break. -/
theorem base64Char_ne (n : ℕ) : base64Char n ≠ '=' ∧ base64Char n ≠ '\n' ∧ base64Char n ≠ '\r' := by
  have h : ∀ k < 64, base64Char k ≠ '=' ∧ base64Char k ≠ '\n' ∧ base64Char k ≠ '\r' := by
    decide +kernel
  have hchar : base64Char (n % 64) = base64Char n := by rw [base64Char, Nat.mod_mod, base64Char]
  rw [← hchar]
  exact h (n % 64) (Nat.mod_lt n (by decide))

theorem toUInt8_toNat (b : UInt8) {n : ℕ} (h : n = b.toNat) : n.toUInt8 = b := by
  subst h
  exact UInt8.ofNat_toNat

theorem base64Groups?_encodeBase64 (data : Bytes) :
    base64Groups? (encodeBase64 data) = some data := by
  -- A group is read back bit by bit, and no character that is written is the padding.
  fun_induction encodeBase64 data with
  | case1 => rfl
  | case2 a =>
    have ha := a.toNat_lt
    simp only [base64Groups?, base64Value?_base64Char, Option.bind_eq_bind, Option.bind_some]
    rw [toUInt8_toNat a (by omega)]
    rfl
  | case3 a b =>
    have ha := a.toNat_lt
    have hb := b.toNat_lt
    have hne := (base64Char_ne (b.toNat % 16 * 4)).1
    rw [base64Groups?.eq_3 _ _ _ fun h => absurd h hne]
    simp only [base64Value?_base64Char, Option.bind_eq_bind, Option.bind_some]
    rw [toUInt8_toNat a (by omega), toUInt8_toNat b (by omega)]
    rfl
  | case4 a b c r ih =>
    have ha := a.toNat_lt
    have hb := b.toNat_lt
    have hc := c.toNat_lt
    have hne := (base64Char_ne c.toNat).1
    rw [base64Groups?.eq_4 _ _ _ _ _ (fun _ h => absurd h hne) (fun h => absurd h hne), ih]
    simp only [base64Value?_base64Char, Option.bind_eq_bind, Option.bind_some]
    rw [toUInt8_toNat a (by omega), toUInt8_toNat b (by omega), toUInt8_toNat c (by omega)]
    rfl

theorem ne_of_mem_encodeBase64 {data : Bytes} {c : Char} (h : c ∈ encodeBase64 data) :
    c ≠ '\n' ∧ c ≠ '\r' := by
  fun_induction encodeBase64 data with
  | case1 => exact absurd h List.not_mem_nil
  | case2 a =>
    simp only [List.mem_cons, List.not_mem_nil, or_false] at h
    rcases h with rfl | rfl | rfl | rfl
    · exact (base64Char_ne _).2
    · exact (base64Char_ne _).2
    · decide
    · decide
  | case3 a b =>
    simp only [List.mem_cons, List.not_mem_nil, or_false] at h
    rcases h with rfl | rfl | rfl | rfl
    · exact (base64Char_ne _).2
    · exact (base64Char_ne _).2
    · exact (base64Char_ne _).2
    · decide
  | case4 a b d r ih =>
    simp only [List.mem_cons] at h
    rcases h with rfl | rfl | rfl | rfl | h
    · exact (base64Char_ne _).2
    · exact (base64Char_ne _).2
    · exact (base64Char_ne _).2
    · exact (base64Char_ne _).2
    · exact ih h

/-- The line breaks behind the lines are passed over. -/
theorem filter_base64Lines {fuel : ℕ} {t : Text} (hlength : t.length ≤ fuel)
    (h : ∀ c ∈ t, c ≠ '\n' ∧ c ≠ '\r') :
    (base64Lines fuel t).filter (fun c => c != '\n' && c != '\r') = t := by
  induction fuel generalizing t with
  | zero => rw [List.length_eq_zero_iff.mp (Nat.le_zero.mp hlength), base64Lines]; rfl
  | succ fuel ih =>
    cases t with
    | nil => rfl
    | cons c t =>
      have hkeep : ∀ d ∈ (c :: t).take base64Line, (d != '\n' && d != '\r') = true := by
        intro d hd
        obtain ⟨h1, h2⟩ := h d (List.mem_of_mem_take hd)
        simp [h1, h2]
      have hrest : ((c :: t).drop base64Line).length ≤ fuel := by
        rw [List.length_drop, base64Line]
        omega
      rw [base64Lines, List.filter_append, List.filter_eq_self.mpr hkeep,
        List.filter_cons_of_neg (by decide),
        ih hrest fun d hd => h d (List.mem_of_mem_drop hd), List.take_append_drop]
      exact List.cons_ne_nil c t

/-- **Binary data is read back from its text.** -/
theorem decodeBase64?_binaryText (data : Bytes) : decodeBase64? (binaryText data) = some data := by
  have hkeep : ∀ c ∈ encodeBase64 data, c ≠ '\n' ∧ c ≠ '\r' := fun c hc => ne_of_mem_encodeBase64 hc
  have htext : binaryText data = if (encodeBase64 data).length < base64Line then encodeBase64 data
      else base64Lines (encodeBase64 data).length (encodeBase64 data) := rfl
  rw [decodeBase64?, htext]
  split_ifs
  · rw [List.filter_eq_self.mpr, base64Groups?_encodeBase64]
    intro c hc
    simp [hkeep c hc]
  · rw [filter_base64Lines (Nat.le_refl _) hkeep, base64Groups?_encodeBase64]

/-! ### Plain scalars -/

/-- The tags of words and numbers. -/
def wordTags : List Bytes := [Tag.bool, Tag.int, Tag.float, Tag.null]

theorem tag_of_word? {t : Text} {found : Bytes × Value} (h : word? t = some found) :
    found.1 ∈ wordTags := by
  simp only [word?] at h
  split_ifs at h
  all_goals
    obtain rfl := Option.some.inj h
    decide

theorem tag_of_number? {t : Text} {found : Bytes × Value} (h : number? t = some found) :
    found.1 ∈ wordTags := by
  simp only [number?] at h
  split at h
  · obtain rfl := Option.some.inj h
    exact show Tag.int ∈ wordTags by decide
  · split at h
    · obtain rfl := Option.some.inj h
      exact show Tag.float ∈ wordTags by decide
    · obtain ⟨n, -, rfl⟩ := Option.map_eq_some_iff.mp h
      exact show Tag.int ∈ wordTags by decide

theorem tag_of_pointNumber? {t : Text} {found : Bytes × Value} (h : pointNumber? t = some found) :
    found.1 ∈ wordTags := by
  simp only [pointNumber?] at h
  split_ifs at h
  obtain ⟨d, -, h⟩ := Option.bind_eq_some_iff.mp h
  obtain ⟨x, -, h⟩ := Option.bind_eq_some_iff.mp h
  obtain rfl := Option.some.inj h
  exact show Tag.float ∈ wordTags by decide

/-- What a text looks like: a string, a date, or a word or number, which it is without dates too. -/
theorem looksLike_cases (t : Text) :
    looksLike true t = (Tag.str, .text (Utf8.encode t)) ∨
      (∃ s, looksLike true t = (Tag.timestamp, .time s)) ∨
      (looksLike false t = looksLike true t ∧ (looksLike true t).1 ∈ wordTags) := by
  cases t with
  | nil => exact .inr (.inr ⟨rfl, by decide⟩)
  | cons c r =>
    simp only [looksLike, if_true, Bool.false_eq_true, if_false]
    -- The first character decides which readers are asked.
    split_ifs with hpoint hsign hletter
    · cases hfound : (word? (c :: r)).orElse fun _ => pointNumber? (c :: r) with
      | none => exact .inl rfl
      | some found =>
        refine .inr (.inr ⟨rfl, ?_⟩)
        cases hword : word? (c :: r) with
        | none =>
          rw [hword] at hfound
          exact tag_of_pointNumber? hfound
        | some found' =>
          rw [hword] at hfound
          exact Option.some.inj hfound ▸ tag_of_word? hword
    · cases hword : word? (c :: r) with
      | some found => exact .inr (.inr ⟨rfl, tag_of_word? hword⟩)
      | none =>
        cases Timestamp.parse? (c :: r) with
        | some s => exact .inr (.inl ⟨s, rfl⟩)
        | none =>
          cases hnumber : number? (c :: r) with
          | none => exact .inl rfl
          | some found => exact .inr (.inr ⟨rfl, tag_of_number? hnumber⟩)
    · cases hword : word? (c :: r) with
      | none => exact .inl rfl
      | some found => exact .inr (.inr ⟨rfl, tag_of_word? hword⟩)
    · exact .inl rfl

theorem tag_of_looksLike (t : Text) :
    (looksLike true t).1 ∈ Tag.str :: Tag.timestamp :: wordTags := by
  rcases looksLike_cases t with h | ⟨s, h⟩ | ⟨-, hmem⟩
  · rw [h]
    exact List.mem_cons_self
  · rw [h]
    exact List.mem_cons_of_mem _ List.mem_cons_self
  · exact List.mem_cons_of_mem _ (List.mem_cons_of_mem _ hmem)

/-- A tag that a text looks like gives what the text looks like. -/
theorem resolve_looksLike (t : Text) : resolve (looksLike true t).1 t = .ok (looksLike true t) := by
  rcases looksLike_cases t with h | ⟨s, h⟩ | ⟨hdates, hmem⟩
  · rw [h]
    rfl
  · have htrue : (Tag.timestamp == Tag.timestamp) = true := beq_self_eq_true _
    have htag : (looksLike true t).1 = Tag.timestamp := congrArg Prod.fst h
    rw [htag, resolve, if_neg (by decide), if_neg (by decide), if_pos (by decide), htrue, h]
    exact if_pos rfl
  · have htags : ∀ tag ∈ wordTags, tag ≠ Tag.str ∧ tag ≠ [] ∧ (tag == Tag.timestamp) = false ∧
        [Tag.bool, Tag.int, Tag.float, Tag.null, Tag.timestamp].contains tag = true := by decide
    obtain ⟨hstr, hnil, htime, hknown⟩ := htags _ hmem
    rw [resolve, if_neg hstr, if_neg hnil, if_pos hknown, htime, hdates]
    exact if_pos rfl

theorem scalarValue_looksLike (t : Text) :
    Decoding.scalarValue (looksLike true t).1 t = pure (looksLike true t) := by
  have htags : ∀ tag ∈ Tag.str :: Tag.timestamp :: wordTags, tag ≠ Tag.binary := by decide
  have hbinary := htags _ (tag_of_looksLike t)
  rw [Decoding.scalarValue, resolve_looksLike]
  exact if_neg hbinary

/-- What a plain scalar without a tag is read as. The merge sign is a string as a value. -/
theorem scalarValue_plain (t : Text) (line : ℕ) : ∃ tag v,
    Node.ofScalar [] t .plain line = .scalar tag t line ∧
      Decoding.scalarValue tag t = pure (tag, v) ∧
        (t ≠ ['<', '<'] → (tag, v) = looksLike true t) := by
  by_cases hmerge : t = ['<', '<']
  · subst hmerge
    exact ⟨Tag.merge, .text (Utf8.encode ['<', '<']), rfl, rfl, fun h => absurd rfl h⟩
  · refine ⟨(looksLike true t).1, (looksLike true t).2, ?_, scalarValue_looksLike t, fun _ => rfl⟩
    rw [Node.ofScalar, if_neg (fun h => h.1 rfl), if_neg (fun h => h rfl), if_neg hmerge]

/-! ### Strings -/

/-- Whether a node is a scalar that is read as a string: as binary data, or by its text. -/
inductive Node.IsText : Node → Bytes → Prop
  | plain {t : Text} {line : ℕ} {tag : Bytes}
    (h : tag = Tag.str ∨ tag = Tag.merge ∧ t = ['<', '<']) :
    IsText (.scalar tag t line) (Utf8.encode t)
  | binary {data : Bytes} {line : ℕ} (h : Utf8.decode? data = none) :
    IsText (.scalar Tag.binary (binaryText data) line) data

/-- **A string is read back from what it is written as.** -/
theorem exists_string (s : Bytes) : ∃ tag t style, Tree.string s = .scalar tag t style ∧
    ∀ line, (Node.ofScalar tag t style line).IsText s := by
  cases hdecode : Utf8.decode? s with
  | none =>
    refine ⟨Tag.binary, binaryText s, _, by rw [Tree.string, hdecode], fun line => ?_⟩
    exact .binary hdecode
  | some t =>
    obtain rfl := Utf8.decode?_eq_some_iff.mp hdecode
    have hquoted (style : ScalarStyle) (h : style ≠ .plain) (line : ℕ) :
        (Node.ofScalar [] t style line).IsText (Utf8.encode t) := by
      rw [Node.ofScalar, if_neg (fun h => h.1 rfl), if_pos h]
      exact .plain (.inl rfl)
    rw [Tree.string, hdecode]
    dsimp only
    split_ifs with hlines hplain
    · exact ⟨[], t, .literal, rfl, hquoted .literal (by decide)⟩
    · refine ⟨[], t, .plain, rfl, fun line => ?_⟩
      rw [Node.ofScalar, if_neg (fun h => h.1 rfl), if_neg (fun h => h rfl), hplain.1]
      split_ifs with hmerge
      · exact .plain (.inr ⟨rfl, hmerge⟩)
      · exact .plain (.inl rfl)
    · exact ⟨[], t, .doubleQuoted, rfl, hquoted .doubleQuoted (by decide)⟩

theorem Node.IsText.exists_scalarValue {n : Node} {s : Bytes} (h : n.IsText s) :
    ∃ tag t line, n = .scalar tag t line ∧ Decoding.scalarValue tag t = pure (tag, .text s) ∧
      (tag ≠ Tag.binary → Utf8.encode t = s) ∧ (tag = Tag.merge → t = ['<', '<']) := by
  cases h with
  | plain h =>
    rcases h with rfl | ⟨rfl, hmerge⟩
    · exact ⟨_, _, _, rfl, rfl, fun _ => rfl, fun htag => absurd htag (by decide)⟩
    · exact ⟨_, _, _, rfl, rfl, fun _ => rfl, fun _ => hmerge⟩
  | binary h =>
    refine ⟨_, _, _, rfl, ?_, fun hne => absurd rfl hne, fun htag => absurd htag (by decide)⟩
    have hresolve : resolve Tag.binary (binaryText s)
        = .ok (Tag.binary, .text (Utf8.encode (binaryText s))) := rfl
    rw [Decoding.scalarValue, hresolve]
    simp only [decodeBase64?_binaryText, if_true]

end ScriptLint.Yaml
