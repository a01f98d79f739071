import ScriptLint.Proofs.Text.Class
import ScriptLint.Proofs.Text.Fold
import ScriptLint.Rule.Basic

/-!
# Regular expressions and literal text

A pattern is the text of a regular expression, which is matched in any letter case. Patterns are
read in the fragment without groups, alternatives, classes in brackets and counted repetitions: a
pattern is a row of characters, classes and places, and a repetition sign belongs to what stands
right before it. A pattern that is not UTF-8 is never read.

A text is quoted by a backslash before every character that has a meaning in a pattern. Read back,
each of its characters stands for itself (`Expression.symbols?_quoted`), whatever it is and wherever
the quoted text stands in a pattern, and the quoted bytes are UTF-8 only if the bytes are
(`Expression.decode?_quotedBytes`).
-/

namespace ScriptLint

namespace Expression

/-! ### Expressions -/

/-- What one character is compared with. -/
inductive Atom where
  /-- This character, in any letter case. -/
  | literal (c : Char)
  /-- Any character but a line feed. -/
  | any
  /-- An ASCII blank. -/
  | blank
deriving DecidableEq

/-- A place between characters. -/
inductive Place where
  | start
  | stop
  /-- Between a word character and another one, or the end of the text. -/
  | wordBoundary
deriving DecidableEq

/-- How often an atom is repeated. -/
inductive Repetition where
  | oneOrMore
  | zeroOrMore
  | zeroOrOne
deriving DecidableEq

/-- A sign of a pattern. -/
inductive Symbol where
  | atom (a : Atom)
  | place (p : Place)
  | repetition (r : Repetition)
deriving DecidableEq

/-- A part of an expression. -/
inductive Item where
  | one (a : Atom)
  | repeated (a : Atom) (r : Repetition)
  | place (p : Place)
deriving DecidableEq

end Expression

/-- A regular expression: its parts in order. -/
abbrev Expression := List Expression.Item

namespace Expression

/-! ### Matching -/

/-- Whether a character is what an atom asks for. -/
def Atom.Accepts : Atom → Char → Prop
  | .literal p, c => Fold.codePoint p.toNat = Fold.codePoint c.toNat
  | .any, c => c ≠ '\n'
  | .blank, c => isAsciiBlank c = true

/-- Whether a repetition allows for a number of times. -/
def Repetition.Allows : Repetition → ℕ → Prop
  | .oneOrMore, n => 1 ≤ n
  | .zeroOrMore, _ => True
  | .zeroOrOne, n => n ≤ 1

/-- Whether a place lies between two parts of a text. -/
def Place.IsBetween : Place → (before after : Text) → Prop
  | .start, before, _ => before = []
  | .stop, _, after => after = []
  | .wordBoundary, before, after => startsWithWord before.reverse ≠ startsWithWord after

/-- Whether a part of an expression matches a text that stands between two others. -/
def Item.Matches : Item → (before t after : Text) → Prop
  | .one a, _, t, _ => ∃ c, t = [c] ∧ a.Accepts c
  | .repeated a r, _, t, _ => r.Allows t.length ∧ ∀ c ∈ t, a.Accepts c
  | .place p, before, t, after => t = [] ∧ p.IsBetween before after

/-- Whether an expression matches a text that stands between two others. -/
def Matches : Expression → (before t after : Text) → Prop
  | [], _, t, _ => t = []
  | i :: is, before, t, after => ∃ front back, t = front ++ back ∧
      i.Matches before front (back ++ after) ∧ Matches is (before ++ front) back after

/-- Whether an expression matches somewhere in a text. -/
def IsFoundIn (e : Expression) (t : Text) : Prop :=
  ∃ before found after, t = before ++ (found ++ after) ∧ Matches e before found after

/-! ### Reading a pattern -/

/-- The characters with a meaning in a pattern. -/
def metaCharacters : Text := "\\.+*?()|[]\x7b\x7d^$".toList

/-- Whether a character has a meaning in a pattern. -/
def isMeta (c : Char) : Bool := metaCharacters.contains c

/-- What a character stands for behind a backslash. -/
def escaped? (c : Char) : Option Symbol :=
  if c = 's' then some (.atom .blank)
  else if c = 'b' then some (.place .wordBoundary)
  else if c.toNat < 0x80 && !c.isAlphanum then some (.atom (.literal c))
  else none

/-- What a character stands for on its own. -/
def plain? (c : Char) : Option Symbol :=
  if c = '.' then some (.atom .any)
  else if c = '^' then some (.place .start)
  else if c = '$' then some (.place .stop)
  else if c = '+' then some (.repetition .oneOrMore)
  else if c = '*' then some (.repetition .zeroOrMore)
  else if c = '?' then some (.repetition .zeroOrOne)
  else if isMeta c then none
  else some (.atom (.literal c))

/-- The signs of a pattern. -/
def symbols? : Text → Option (List Symbol)
  | [] => some []
  | [c] => (plain? c).map ([·])
  | c :: d :: r =>
    if c = '\\' then (escaped? d).bind fun s => (symbols? r).map (s :: ·)
    else (plain? c).bind fun s => (symbols? (d :: r)).map (s :: ·)

/-- The parts that signs make up. A repetition belongs to the atom before it. -/
def items? : List Symbol → Option Expression
  | [] => some []
  | .atom a :: .repetition r :: ss => (items? ss).map (.repeated a r :: ·)
  | .atom a :: ss => (items? ss).map (.one a :: ·)
  | .place p :: ss => (items? ss).map (.place p :: ·)
  | .repetition _ :: _ => none

/-- The expression that the text behind the flag of a pattern stands for. -/
def read? (t : Text) : Option Expression := (symbols? t).bind items?

/-- The rest of a pattern behind the flag that turns letter case off. -/
def afterFlag? : Text → Option Text
  | '(' :: '?' :: 'i' :: ')' :: r => some r
  | _ => none

/-- The expression that a pattern is the text of. -/
def compile? (pattern : Bytes) : Option Expression := do
  let t ← Utf8.decode? pattern
  read? (← afterFlag? t)

/-- A text with a backslash before every character that has a meaning in a pattern. -/
def quoted (t : Text) : Text := t.flatMap fun c => if isMeta c then ['\\', c] else [c]

/-- The bytes of a text that is quoted. -/
def quotedBytes (bs : Bytes) : Bytes :=
  bs.flatMap fun b => if isPatternMeta b then [0x5C, b] else [b]

/-! ### Quoted text -/

/-- The signs of two patterns in a row, of which the first can be read alone. -/
theorem symbols?_append {s : Text} {xs : List Symbol} (h : symbols? s = some xs) (r : Text) :
    symbols? (s ++ r) = (symbols? r).map (xs ++ ·) := by
  -- The first pattern can be read alone, so it does not end in an open escape, and no sign spans
  -- both.
  induction s using symbols?.induct generalizing xs with
  | case1 =>
    obtain rfl := Option.some.inj h
    simp
  | case2 c =>
    obtain ⟨x, hx, rfl⟩ := Option.map_eq_some_iff.mp h
    have hc : c ≠ '\\' := by
      rintro rfl
      rw [show plain? '\\' = none by decide] at hx
      exact absurd hx (Option.some_ne_none x).symm
    cases r with
    | nil => simp [symbols?, hx]
    | cons d r => simp [symbols?, hc, hx]
  | case3 d t ih =>
    rw [symbols?, if_pos rfl] at h
    obtain ⟨x, hx, h⟩ := Option.bind_eq_some_iff.mp h
    obtain ⟨ys, hys, rfl⟩ := Option.map_eq_some_iff.mp h
    simp [symbols?, hx, ih hys, Function.comp_def]
  | case4 c d t hc ih =>
    rw [symbols?, if_neg hc] at h
    obtain ⟨x, hx, h⟩ := Option.bind_eq_some_iff.mp h
    obtain ⟨ys, hys, rfl⟩ := Option.map_eq_some_iff.mp h
    have hrest := ih hys
    rw [List.cons_append] at hrest
    simp [symbols?, hc, hx, hrest, Function.comp_def]

/-- The parts of signs in a row, of which the second ones start with no repetition. -/
theorem items?_append {xs ys : List Symbol} {is : Expression} (h : items? xs = some is)
    (hys : ∀ r, ys.head? ≠ some (.repetition r)) :
    items? (xs ++ ys) = (items? ys).map (is ++ ·) := by
  -- The second signs start with no repetition, so none of them belongs to a first one.
  induction xs using items?.induct generalizing is with
  | case1 =>
    obtain rfl := Option.some.inj h
    simp
  | case2 a r xs ih =>
    obtain ⟨js, hjs, rfl⟩ := Option.map_eq_some_iff.mp h
    simp [items?, ih hjs, Function.comp_def]
  | case3 a xs hxs ih =>
    rw [items?] at h
    · obtain ⟨js, hjs, rfl⟩ := Option.map_eq_some_iff.mp h
      rw [List.cons_append, items?, ih hjs]
      · simp [Function.comp_def]
      · intro r zs hzs
        cases xs with
        | nil => exact hys r (by simp [show ys = _ from hzs])
        | cons x xs => exact hxs r xs (by rw [(List.cons.inj hzs).1])
    · exact hxs
  | case4 p xs ih =>
    obtain ⟨js, hjs, rfl⟩ := Option.map_eq_some_iff.mp h
    simp [items?, ih hjs, Function.comp_def]
  | case5 r xs => exact absurd h (by simp [items?])

/-- **A character with a meaning stands for itself behind a backslash.** -/
theorem escaped?_of_isMeta {c : Char} (h : isMeta c = true) :
    escaped? c = some (.atom (.literal c)) := by
  have hall : (metaCharacters.all fun d => escaped? d = some (.atom (.literal d))) = true := by
    decide
  exact of_decide_eq_true (List.all_eq_true.mp hall c (List.contains_iff_mem.mp h))

/-- Every other character stands for itself on its own. -/
theorem plain?_of_not_isMeta {c : Char} (h : isMeta c = false) :
    plain? c = some (.atom (.literal c)) := by
  have hne {d : Char} (hd : isMeta d = true) : c ≠ d := by
    rintro rfl
    rw [h] at hd
    exact absurd hd (by decide)
  rw [plain?, if_neg (hne (by decide)), if_neg (hne (by decide)), if_neg (hne (by decide)),
    if_neg (hne (by decide)), if_neg (hne (by decide)), if_neg (hne (by decide)), h]
  rfl

/-- **Quoted text is read literally**: each of its characters stands for itself. -/
theorem symbols?_quoted (t : Text) :
    symbols? (quoted t) = some (t.map fun c => .atom (.literal c)) := by
  induction t with
  | nil => rfl
  | cons c t ih =>
    have hone : symbols? (if isMeta c then ['\\', c] else [c]) = some [.atom (.literal c)] := by
      split_ifs with hc
      · simp [symbols?, escaped?_of_isMeta hc]
      · rw [Bool.not_eq_true] at hc
        simp [symbols?, plain?_of_not_isMeta hc]
    rw [quoted, List.flatMap_cons, symbols?_append hone]
    simp [show symbols? (t.flatMap fun c => if isMeta c then ['\\', c] else [c]) = _ from ih]

/-- An expression that asks for a text, character by character. -/
def literals (t : Text) : Expression := t.map fun c => .one (.literal c)

theorem items?_literals (t : Text) :
    items? (t.map fun c => .atom (.literal c)) = some (literals t) := by
  induction t with
  | nil => rfl
  | cons c t ih =>
    rw [List.map_cons, items?, ih]
    · rfl
    · intro r ss hss
      cases t with
      | nil => exact absurd hss (by simp)
      | cons d t => exact absurd hss (by simp)

/-! ### Quoted bytes -/

theorem isPatternMeta_of_le {b : UInt8} (h : 0x80 ≤ b.toNat) : isPatternMeta b = false := by
  have hall : ∀ n < 0x100, 0x80 ≤ n → isPatternMeta n.toUInt8 = false := by decide +kernel
  have hb := hall b.toNat b.toNat_lt h
  rwa [Nat.toUInt8, UInt8.ofNat_toNat] at hb

theorem toNat_lt_of_isMeta {c : Char} (h : isMeta c = true) : c.toNat < 0x80 := by
  have hall : (metaCharacters.all (·.toNat < 0x80)) = true := by decide
  exact of_decide_eq_true (List.all_eq_true.mp hall c (List.contains_iff_mem.mp h))

theorem isPatternMeta_toUInt8 {c : Char} (h : c.toNat < 0x80) :
    isPatternMeta c.toNat.toUInt8 = isMeta c := by
  have hall : ∀ n < 0x80, isPatternMeta n.toUInt8 = isMeta (Char.ofNat n) := by decide
  rw [hall _ h, Char.ofNat_toNat]

theorem quotedBytes_cons (b : UInt8) (bs : Bytes) :
    quotedBytes (b :: bs) = (if isPatternMeta b then [0x5C, b] else [b]) ++ quotedBytes bs :=
  List.flatMap_cons

theorem quotedBytes_of_le {bs : Bytes} (h : ∀ b ∈ bs, 0x80 ≤ b.toNat) : quotedBytes bs = bs := by
  induction bs with
  | nil => rfl
  | cons b bs ih =>
    obtain ⟨hb, hbs⟩ := List.forall_mem_cons.mp h
    rw [quotedBytes_cons, isPatternMeta_of_le hb, ih hbs]
    rfl

/-- A character is quoted as its bytes are: those with a meaning are single bytes, and a character
of several bytes has none below 128. -/
theorem quotedBytes_encodeChar (c : Char) : quotedBytes (Utf8.encodeChar c)
    = Utf8.encode (if isMeta c then ['\\', c] else [c]) := by
  by_cases hc : c.toNat < 0x80
  · have hbyte : Utf8.encodeChar c = [c.toNat.toUInt8] := by
      simp only [Utf8.encodeChar]
      rw [if_pos hc]
    rw [hbyte, quotedBytes, List.flatMap_singleton, isPatternMeta_toUInt8 hc]
    split_ifs
    · rw [Utf8.encode_cons, Utf8.encode_singleton, hbyte]
      rfl
    · rw [Utf8.encode_singleton, hbyte]
  · have hhigh : ∀ b ∈ Utf8.encodeChar c, 0x80 ≤ b.toNat := by
      intro b hb
      by_contra hlow
      have := Utf8.toNat_eq_of_mem_encodeChar (Nat.lt_of_not_le hlow) hb
      omega
    have hplain : isMeta c = false := by
      by_contra hmeta
      rw [Bool.not_eq_false] at hmeta
      exact hc (toNat_lt_of_isMeta hmeta)
    rw [quotedBytes_of_le hhigh, hplain]
    exact (List.append_nil _).symm

/-- **A text is quoted as its bytes are.** -/
theorem quotedBytes_encode (t : Text) : quotedBytes (Utf8.encode t) = Utf8.encode (quoted t) := by
  have happend (a b : Bytes) : quotedBytes (a ++ b) = quotedBytes a ++ quotedBytes b :=
    List.flatMap_append
  induction t with
  | nil => rfl
  | cons c t ih =>
    rw [Utf8.encode_cons, happend, quotedBytes_encodeChar, ih, ← Utf8.encode_append]
    rfl

/-- What starts with bytes outside ASCII when it is quoted starts with them. -/
theorem exists_of_quotedBytes_eq_append {x bs r : Bytes} (hx : ∀ b ∈ x, 0x80 ≤ b.toNat)
    (h : quotedBytes bs = x ++ r) : ∃ bs', bs = x ++ bs' ∧ quotedBytes bs' = r := by
  induction x generalizing bs with
  | nil => exact ⟨bs, rfl, h⟩
  | cons a x ih =>
    rw [List.forall_mem_cons] at hx
    cases bs with
    | nil => exact absurd h (by simp [quotedBytes])
    | cons b bs =>
      rw [quotedBytes_cons] at h
      split_ifs at h with hb
      · obtain ⟨rfl, -⟩ := List.cons.inj h
        exact absurd hx.1 (by decide)
      · obtain ⟨rfl, hrest⟩ := List.cons.inj h
        obtain ⟨bs', rfl, hr⟩ := ih hx.2 hrest
        exact ⟨bs', rfl, hr⟩

/-- **Bytes that are UTF-8 when they are quoted are UTF-8.** -/
theorem exists_of_quotedBytes_eq_encode {bs : Bytes} {u : Text}
    (h : quotedBytes bs = Utf8.encode u) : ∃ t, bs = Utf8.encode t := by
  -- The induction is on the number of bytes, because a character takes several of them away.
  induction hn : bs.length using Nat.strong_induction_on generalizing bs u with
  | _ n ih =>
  cases bs with
  | nil => exact ⟨[], rfl⟩
  | cons b bs =>
    rw [List.length_cons] at hn
    rw [quotedBytes_cons] at h
    by_cases hb : b.toNat < 0x80
    · obtain ⟨c, hc⟩ := Utf8.exists_encodeChar_eq hb
      obtain ⟨s, hs⟩ : ∃ s, (if isPatternMeta b then [0x5C, b] else [b]) = Utf8.encode s := by
        split_ifs
        · exact ⟨['\\', c], by rw [Utf8.encode_cons, Utf8.encode_singleton, hc]; rfl⟩
        · exact ⟨[c], by rw [Utf8.encode_singleton, hc]⟩
      rw [hs] at h
      obtain ⟨u', hu', -⟩ := Utf8.exists_of_encode_append_eq h
      obtain ⟨t, rfl⟩ := ih bs.length (by omega) hu' rfl
      exact ⟨c :: t, by rw [Utf8.encode_cons, hc, List.singleton_append]⟩
    · rw [isPatternMeta_of_le (Nat.le_of_not_lt hb)] at h
      cases u with
      | nil => exact absurd h (by simp [Utf8.encode])
      | cons c u =>
        obtain ⟨b', r, hcons, -, hr⟩ := Utf8.exists_encodeChar_cons c
        rw [Utf8.encode_cons, hcons] at h
        obtain ⟨rfl, hbytes⟩ := List.cons.inj h
        have hhigh : ∀ x ∈ r, 0x80 ≤ x.toNat := by
          intro x hx
          have hcontinues := hr x hx
          rw [Ne, Utf8.continuation?_eq_none_iff] at hcontinues
          omega
        obtain ⟨bs', rfl, hrest⟩ := exists_of_quotedBytes_eq_append hhigh hbytes
        rw [List.length_append] at hn
        obtain ⟨t, rfl⟩ := ih bs'.length (by omega) hrest rfl
        exact ⟨c :: t, by rw [Utf8.encode_cons, hcons, List.cons_append]⟩

/-- What is quoted between two texts is UTF-8 exactly if it is on its own. -/
theorem decode?_quotedBytes (front back : Text) (bs : Bytes) :
    Utf8.decode? (Utf8.encode front ++ (quotedBytes bs ++ Utf8.encode back))
      = (Utf8.decode? bs).map fun t => front ++ (quoted t ++ back) := by
  cases hbs : Utf8.decode? bs with
  | some t =>
    obtain rfl := Utf8.decode?_eq_some_iff.mp hbs
    rw [quotedBytes_encode, ← Utf8.encode_append, ← Utf8.encode_append]
    exact Utf8.decode?_eq_some_iff.mpr rfl
  | none =>
    refine Utf8.decode?_eq_none_iff.mpr fun u hu => ?_
    obtain ⟨v, hv, -⟩ := Utf8.exists_of_encode_append_eq hu
    obtain ⟨w, hw⟩ := Utf8.exists_of_append_encode_eq hv
    obtain ⟨t, ht⟩ := exists_of_quotedBytes_eq_encode hw
    exact Utf8.decode?_eq_none_iff.mp hbs t ht

/-- Quoted text between two texts that can be read alone is read as literal text. -/
theorem read?_around {front back : Text} {is js : Expression} (hfront : read? front = some is)
    (hback : read? back = some js) (t : Text) :
    read? (front ++ (quoted t ++ back)) = some (is ++ (literals t ++ js)) := by
  obtain ⟨xs, hxs, his⟩ := Option.bind_eq_some_iff.mp hfront
  obtain ⟨ys, hys, hjs⟩ := Option.bind_eq_some_iff.mp hback
  have hends : ∀ r, ys.head? ≠ some (.repetition r) := by
    intro r hr
    obtain ⟨ys', rfl⟩ := List.head?_eq_some_iff.mp hr
    exact absurd hjs (by simp [items?])
  have hnext : ∀ r, (t.map (fun c => Symbol.atom (.literal c)) ++ ys).head?
      ≠ some (.repetition r) := by
    cases t with
    | nil => exact hends
    | cons c t => simp
  rw [read?, symbols?_append hxs, symbols?_append (symbols?_quoted t), hys, Option.map_some,
    Option.map_some, Option.bind_some, items?_append his hnext,
    items?_append (items?_literals t) hends, hjs]
  rfl

/-- **A pattern around quoted bytes asks for the text of the bytes literally**, between what its two
ends ask for, and it is a pattern exactly if the bytes are UTF-8. -/
theorem compile?_around {front back : Text} {is js : Expression} (hfront : read? front = some is)
    (hback : read? back = some js) (bs : Bytes) :
    compile? (Utf8.encode ("(?i)".toList ++ front) ++ (quotedBytes bs ++ Utf8.encode back))
      = (Utf8.decode? bs).map fun t => is ++ (literals t ++ js) := by
  unfold compile?
  rw [decode?_quotedBytes]
  cases Utf8.decode? bs with
  | none => rfl
  | some t => exact read?_around hfront hback t

/-! ### Matching -/

theorem matches_append {e e' : Expression} {before t after : Text} :
    Matches (e ++ e') before t after ↔ ∃ front back, t = front ++ back ∧
      Matches e before front (back ++ after) ∧ Matches e' (before ++ front) back after := by
  induction e generalizing before t with
  | nil => simp [Matches]
  | cons i e ih =>
    simp only [List.cons_append, Matches, ih]
    constructor
    · rintro ⟨f, b, rfl, hi, f', b', rfl, he, he'⟩
      refine ⟨f ++ f', b', by simp, ⟨f, f', rfl, ?_, he⟩, ?_⟩
      · rwa [List.append_assoc] at hi
      · rwa [List.append_assoc] at he'
    · rintro ⟨fb, b', rfl, ⟨f, f', rfl, hi, he⟩, he'⟩
      refine ⟨f, f' ++ b', by simp, ?_, f', b', rfl, he, ?_⟩
      · rwa [List.append_assoc]
      · rwa [List.append_assoc]

/-- **Literal text matches what agrees with it.** -/
theorem matches_literals {p before t after : Text} :
    Matches (literals p) before t after ↔ Fold.Agrees p t := by
  induction p generalizing before t with
  | nil => exact Fold.agrees_nil_iff.symm
  | cons c p ih =>
    rw [literals, List.map_cons, Matches, Fold.agrees_cons_iff]
    constructor
    · rintro ⟨_, t', rfl, ⟨d, rfl, hd⟩, ht'⟩
      exact ⟨d, t', rfl, hd, ih.mp ht'⟩
    · rintro ⟨d, t', rfl, hd, ht'⟩
      exact ⟨[d], t', rfl, ⟨d, rfl, hd⟩, ih.mpr ht'⟩

theorem matches_singleton {i : Item} {before t after : Text} :
    Matches [i] before t after ↔ i.Matches before t after := by
  simp [Matches]

/-- An expression for the start of a text is found in it exactly if it matches a front of it. -/
theorem isFoundIn_start_iff {e : Expression} {t : Text} :
    IsFoundIn (.place .start :: e) t ↔
      ∃ found after, t = found ++ after ∧ Matches e [] found after := by
  constructor
  · rintro ⟨before, found, after, rfl, _, back, rfl, ⟨rfl, rfl⟩, he⟩
    exact ⟨back, after, rfl, he⟩
  · rintro ⟨found, after, rfl, he⟩
    exact ⟨[], found, after, rfl, [], found, rfl, ⟨rfl, rfl⟩, he⟩

end Expression

end ScriptLint
