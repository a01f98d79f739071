import ScriptLint.Proofs.Run.Concatenation
import ScriptLint.Proofs.Script.Utf16

/-!
# Scripts in every encoding

A text is stored as UTF-8, or as UTF-16 in one of the two byte orders behind its mark
(`Encoding.store`), and each of these decodes to it (`decodeScript_store`), so that a script is
checked alike however it is stored. In the other direction `decodeScript_eq_ok_iff` says what
decodes at all: the stored texts, and besides them UTF-16 with an unpaired surrogate
(`HasUnpairedSurrogate`), which is taken for a text that it does not store.
-/

namespace ScriptLint

/-! ### Stored texts -/

/-- How a script is stored. -/
inductive Encoding where
  | utf8
  | utf16 (order : ByteOrder)
deriving DecidableEq, Repr

namespace Encoding

/-- The bytes of a stored text. -/
def store : Encoding → Text → Bytes
  | .utf8, t => Utf8.encode t
  | .utf16 order, t => Utf16.mark order ++ Utf16.encode order t

/-- The encoding that the front of a stored script announces. -/
def announced (data : Bytes) : Encoding :=
  match markedOrder? data with
  | some (order, _) => .utf16 order
  | none => .utf8

end Encoding

/-- Whether whole units of UTF-16 stand behind a mark, and not all surrogates among them are in
pairs. -/
def HasUnpairedSurrogate (data : Bytes) : Prop :=
  ∃ order r, data = Utf16.mark order ++ r ∧ r.length % 2 = 0 ∧
    ¬ Utf16.WellFormed (Utf16.units order r)

/-! ### Marks -/

theorem markedOrder?_eq_some_iff {data r : Bytes} {order : ByteOrder} :
    markedOrder? data = some (order, r) ↔ data = Utf16.mark order ++ r := by
  constructor
  · intro h
    unfold markedOrder? at h
    split at h
    · rename_i a b r'
      split_ifs at h with hlittle hbig
      · obtain ⟨rfl, rfl⟩ := Prod.mk.inj (Option.some.inj h)
        rw [hlittle.1, hlittle.2]
        rfl
      · obtain ⟨rfl, rfl⟩ := Prod.mk.inj (Option.some.inj h)
        rw [hbig.1, hbig.2]
        rfl
    · exact absurd h (by simp)
  · rintro rfl
    cases order with
    | little => rfl
    | big => rfl

/-- UTF-8 starts with no mark of UTF-16: the bytes of a mark stand in no character. -/
theorem mark_append_ne_encode (order : ByteOrder) (r : Bytes) (t : Text) :
    Utf16.mark order ++ r ≠ Utf8.encode t := by
  intro h
  have hpieces := Utf8.pieces_encode t
  rw [← h] at hpieces
  -- Read as UTF-8 the first byte of a mark is stray, while a text is made up of characters.
  obtain ⟨b, ps, hstray⟩ : ∃ b ps, Utf8.pieces (Utf16.mark order ++ r) = .stray b :: ps := by
    cases order with
    | little => exact ⟨0xFF, _, rfl⟩
    | big => exact ⟨0xFE, _, rfl⟩
  rw [hstray] at hpieces
  cases t with
  | nil => simp at hpieces
  | cons c t => simp at hpieces

theorem markedOrder?_encode (t : Text) : markedOrder? (Utf8.encode t) = none := by
  rw [Option.eq_none_iff_forall_ne_some]
  rintro ⟨order, r⟩ h
  exact mark_append_ne_encode order r t (markedOrder?_eq_some_iff.mp h).symm

/-! ### Decoding what is stored -/

theorem decodeScript_mark_append (order : ByteOrder) (r : Bytes) :
    decodeScript (Utf16.mark order ++ r)
      = if r.length % 2 = 0 then .ok (Utf16.join (Utf16.units order r))
        else .error (.oddLength (Utf16.mark order ++ r).length) := by
  have hlength : (Utf16.mark order ++ r).length = r.length + 2 := by
    rw [List.length_append, Nat.add_comm]
    cases order <;> rfl
  rw [decodeScript, markedOrder?_eq_some_iff.mpr rfl]
  simp only [hlength, Nat.add_mod_right]

theorem decodeScript_of_markedOrder?_eq_none {data : Bytes} (h : markedOrder? data = none) :
    decodeScript data = match Utf8.decode? data with
      | some t => .ok t
      | none => .error .notUtf8 := by
  cases hdecode : Utf8.decode? data with
  | none => simp only [decodeScript, h, hdecode]
  | some t => simp only [decodeScript, h, hdecode]

/-- **A stored text decodes to that text**, whichever way it is stored. -/
theorem decodeScript_store (e : Encoding) (t : Text) : decodeScript (e.store t) = .ok t := by
  cases e with
  | utf8 =>
    rw [Encoding.store, decodeScript_of_markedOrder?_eq_none (markedOrder?_encode t),
      Utf8.decode?_eq_some_iff.mpr rfl]
  | utf16 order =>
    rw [Encoding.store, decodeScript_mark_append, if_pos (Utf16.even_length_encode order t),
      Utf16.units_encode, Utf16.join_flatMap_encodeChar]

/-- The front of a stored text announces how it is stored. -/
theorem announced_store (e : Encoding) (t : Text) : Encoding.announced (e.store t) = e := by
  cases e with
  | utf8 => rw [Encoding.store, Encoding.announced, markedOrder?_encode]
  | utf16 order => rw [Encoding.store, Encoding.announced, markedOrder?_eq_some_iff.mpr rfl]

/-! ### What decodes -/

/-- **What decodes is a stored text, or UTF-16 with an unpaired surrogate.** -/
theorem decodeScript_eq_ok_iff {data : Bytes} {t : Text} :
    decodeScript data = .ok t ↔
      data = (Encoding.announced data).store t ∨
        ∃ order r, data = Utf16.mark order ++ r ∧ r.length % 2 = 0 ∧
          ¬ Utf16.WellFormed (Utf16.units order r) ∧ t = Utf16.join (Utf16.units order r) := by
  constructor
  · intro h
    cases hmark : markedOrder? data with
    | none =>
      rw [decodeScript_of_markedOrder?_eq_none hmark] at h
      rw [Encoding.announced, hmark]
      cases hdecode : Utf8.decode? data with
      | none =>
        rw [hdecode] at h
        exact absurd h (by simp)
      | some t' =>
        rw [hdecode] at h
        obtain rfl := Except.ok.inj h
        exact .inl (Utf8.decode?_eq_some_iff.mp hdecode)
    | some marked =>
      obtain ⟨order, r⟩ := marked
      rw [Encoding.announced, hmark]
      obtain rfl := markedOrder?_eq_some_iff.mp hmark
      rw [decodeScript_mark_append] at h
      split_ifs at h with heven
      obtain rfl := Except.ok.inj h
      -- Whole units are joined whether or not they are well-formed.
      by_cases hwell : Utf16.WellFormed (Utf16.units order r)
      · obtain ⟨t, rfl⟩ := (Utf16.exists_eq_encode_iff order r).mpr ⟨heven, hwell⟩
        rw [Utf16.units_encode, Utf16.join_flatMap_encodeChar]
        exact .inl rfl
      · exact .inr ⟨order, r, rfl, heven, hwell, rfl⟩
  · rintro (h | ⟨order, r, rfl, heven, -, rfl⟩)
    · rw [h]
      exact decodeScript_store _ t
    · rw [decodeScript_mark_append, if_pos heven]

/-- An unpaired surrogate is stored by no text. -/
theorem HasUnpairedSurrogate.ne_store {data : Bytes} (h : HasUnpairedSurrogate data)
    (e : Encoding) (t : Text) : data ≠ e.store t := by
  obtain ⟨order, r, rfl, -, hwell⟩ := h
  intro hstore
  -- The mark leaves one encoding only, and in that the units would be well-formed.
  have hannounced := announced_store e t
  rw [← hstore, Encoding.announced, markedOrder?_eq_some_iff.mpr rfl] at hannounced
  subst hannounced
  have hr : r = Utf16.encode order t := List.append_cancel_left hstore
  exact hwell ((Utf16.exists_eq_encode_iff order r).mp ⟨t, hr⟩).2

/-- **A script is taken for what it stores, or refused, unless a surrogate in it is unpaired.** What
a text stores decodes to that text. Without unpaired surrogates nothing else decodes: behind a mark
of UTF-16 an odd number of bytes is all that can be wrong, and it is refused, and so is what has no
such mark and is not UTF-8. An unpaired surrogate, which no text stores, is not refused but read as
the replacement character. -/
theorem decodeScript_exact_unless_unpaired (data : Bytes) :
    (∀ t, data = (Encoding.announced data).store t → decodeScript data = .ok t) ∧
    (¬ HasUnpairedSurrogate data →
      (∀ t, decodeScript data = .ok t → data = (Encoding.announced data).store t) ∧
      (∀ order r, data = Utf16.mark order ++ r →
        ¬ (r.length % 2 = 0 ∧ Utf16.WellFormed (Utf16.units order r)) →
          decodeScript data = .error (.oddLength data.length)) ∧
      ((∀ order r, data ≠ Utf16.mark order ++ r) → (∀ t, data ≠ Utf8.encode t) →
        decodeScript data = .error .notUtf8)) ∧
    (HasUnpairedSurrogate data →
      (∀ e t, data ≠ Encoding.store e t) ∧
        ∃ t, decodeScript data = .ok t ∧ Utf16.replacement ∈ t) := by
  -- Behind a mark only an odd number of bytes or an unpaired surrogate can be wrong; without one
  -- the bytes are UTF-8 or refused.
  refine ⟨fun t h => decodeScript_eq_ok_iff.mpr (.inl h), fun hpaired => ⟨?_, ?_, ?_⟩, ?_⟩
  · intro t h
    rcases decodeScript_eq_ok_iff.mp h with hstore | ⟨order, r, hdata, heven, hwell, -⟩
    · exact hstore
    · exact absurd ⟨order, r, hdata, heven, hwell⟩ hpaired
  · rintro order r rfl hwrong
    have hodd : ¬ r.length % 2 = 0 := by
      intro heven
      exact hpaired ⟨order, r, rfl, heven, fun hwell => hwrong ⟨heven, hwell⟩⟩
    rw [decodeScript_mark_append, if_neg hodd]
  · intro hunmarked hwrong
    have hmark : markedOrder? data = none := by
      rw [Option.eq_none_iff_forall_ne_some]
      rintro ⟨order, r⟩ h
      exact hunmarked order r (markedOrder?_eq_some_iff.mp h)
    rw [decodeScript_of_markedOrder?_eq_none hmark, Utf8.decode?_eq_none_iff.mpr hwrong]
  · intro hunpaired
    refine ⟨hunpaired.ne_store, ?_⟩
    obtain ⟨order, r, rfl, heven, hwell⟩ := hunpaired
    refine ⟨Utf16.join (Utf16.units order r), ?_, ?_⟩
    · rw [decodeScript_mark_append, if_pos heven]
    · exact Utf16.replacement_mem_join (fun _ => Utf16.lt_of_mem_units) hwell

/-- A character beyond the basic plane in little-endian UTF-16, both halves of its pair there. -/
theorem decodeScript_exact_unless_unpaired_pair :
    let data : Bytes := [0xFF, 0xFE, 0x3D, 0xD8, 0x00, 0xDE]
    ¬ HasUnpairedSurrogate data ∧ decodeScript data = .ok ['😀'] ∧
      data = (Encoding.announced data).store ['😀'] := by
  intro data
  have hstore : data = (Encoding.announced data).store ['😀'] := by decide
  have hpaired : ¬ HasUnpairedSurrogate data := fun h => h.ne_store _ _ hstore
  have hok := (decodeScript_exact_unless_unpaired data).1 _ hstore
  exact ⟨hpaired, hok, ((decodeScript_exact_unless_unpaired data).2.1 hpaired).1 _ hok⟩

/-- The first half of a pair at the end of a script decodes, to a text that it does not store. -/
theorem decodeScript_lone_surrogate :
    let data : Bytes := [0xFF, 0xFE, 0x00, 0xD8]
    decodeScript data = .ok ['\uFFFD'] ∧ data ≠ (Encoding.announced data).store ['\uFFFD'] := by
  decide +kernel

/-! ### Checking what is stored -/

/-- A file that stores a text is read as the script with that text. -/
theorem readScript_of_store {w : World} {path : Bytes} {e : Encoding} {t : Text}
    (h : w.readFile path = .ok (e.store t)) (root : Bytes) :
    readScript w root path
      = .ok ⟨Path.display w.cwd root (Path.absolute w.cwd path), t⟩ := by
  rw [readScript, h]
  simp only [decodeScript_store]

/-- **A script is checked alike however it is stored.** As UTF-8, as little-endian or as big-endian
UTF-16 behind its mark, a text decodes to itself, whatever characters it holds. So files that store
one text give the same outcome when they are shown under the same path: the program stops or does
not, and the findings are those of the text under that path. -/
theorem checked_alike_in_every_encoding (t : Text) :
    decodeScript (Utf8.encode t) = .ok t ∧
    decodeScript ([0xFF, 0xFE] ++ Utf16.encode .little t) = .ok t ∧
    decodeScript ([0xFE, 0xFF] ++ Utf16.encode .big t) = .ok t ∧
    ∀ (r : Runner) (shown : Bytes) (e₁ e₂ : Encoding) (w₁ w₂ : World) (path₁ path₂ : Bytes),
      w₁.readFile path₁ = .ok (e₁.store t) → w₂.readFile path₂ = .ok (e₂.store t) →
      Path.display w₁.cwd r.root (Path.absolute w₁.cwd path₁) = shown →
      Path.display w₂.cwd r.root (Path.absolute w₂.cwd path₂) = shown →
        r.run w₁ false [path₁] = r.run w₂ false [path₂] ∧
          (r.run w₁ false [path₁]).crash? = (r.checkSource shown t).crash? ∧
          (r.run w₁ false [path₁]).diagnostics = (r.checkSource shown t).diagnostics := by
  refine ⟨decodeScript_store .utf8 t, decodeScript_store (.utf16 .little) t,
    decodeScript_store (.utf16 .big) t, ?_⟩
  intro r shown e₁ e₂ w₁ w₂ path₁ path₂ hread₁ hread₂ hshown₁ hshown₂
  have hscript₁ := readScript_of_store hread₁ r.root
  have hscript₂ := readScript_of_store hread₂ r.root
  rw [hshown₁] at hscript₁
  rw [hshown₂] at hscript₂
  rw [r.run_singleton w₁ hscript₁, r.run_singleton w₂ hscript₂]
  obtain ⟨hcrash, hfindings, -, -⟩ := Outcome.logged_append r.rulesLine (r.checkSource shown t)
  exact ⟨rfl, hcrash, hfindings⟩

/-- A text that starts with the mark itself and goes on with a null character and one beyond the
basic plane, as UTF-8 and as big-endian UTF-16. -/
theorem checked_alike_in_every_encoding_marked :
    let t : Text := ['\uFEFF', '\x00', '😀']
    let r : Runner := { rules := [.always [0x72] [0x6D]] }
    let w (e : Encoding) : World := ⟨.dir [([0x61], .file (e.store t))], []⟩
    let path : Bytes := [0x2F, 0x61]
    (w .utf8).readFile path = .ok (Encoding.utf8.store t) ∧
      (w (.utf16 .big)).readFile path = .ok ((Encoding.utf16 .big).store t) ∧
      r.run (w .utf8) false [path] = r.run (w (.utf16 .big)) false [path] := by
  intro t r w path
  have h (e : Encoding) : (w e).readFile path = .ok (e.store t) := rfl
  have hshown : Path.display [] [] (Path.absolute [] path) = path := by decide
  have hall := (checked_alike_in_every_encoding t).2.2.2 r path .utf8 (.utf16 .big) (w .utf8)
    (w (.utf16 .big)) path path (h _) (h _) hshown hshown
  exact ⟨h .utf8, h (.utf16 .big), hall.1⟩

end ScriptLint
