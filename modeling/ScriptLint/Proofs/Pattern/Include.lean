import ScriptLint.Config.Basic
import ScriptLint.Pattern.Include
import ScriptLint.Proofs.Text.Utf8
import Mathlib.Tactic.IntervalCases

/-!
# What the default pattern takes

Without patterns of its own a configuration takes the files that `**/*.ahk` matches. Matching walks
along the pattern and goes back again and again, but behind the last star it only ever goes forward:
there the characters just read are those of the pattern (`Walk.IsSettled`). So whatever is taken
ends in `.ahk` (`suffix_of_accepts_default`).
-/

namespace ScriptLint.Include

/-- The letters of the default pattern. -/
def defaultLetters : Array Char := #['*', '*', '/', '*', '.', 'a', 'h', 'k']

/-- What stands behind its last star. -/
def ending : Text := ['.', 'a', 'h', 'k']

/-- Whether a walk along the default pattern has read what the pattern has behind its last star, and
goes back to no place beyond that star. -/
structure Walk.IsSettled (w : Walk) (path : Array Char) : Prop where
  place : w.pattern ≤ 8
  read : ending.take (w.pattern - 4) <:+ path.toList.take w.path
  star : ∀ s ∈ w.star, s.1 ≤ 4
  deep : ∀ s ∈ w.deep, s.1 ≤ 4

variable {w w' : Walk} {path : Array Char}

/-- Before the last star nothing has to be read. -/
theorem Walk.IsSettled.of_le {w : Walk} (hplace : w.pattern ≤ 4) (star : ∀ s ∈ w.star, s.1 ≤ 4)
    (deep : ∀ s ∈ w.deep, s.1 ≤ 4) : w.IsSettled path where
  place := by omega
  read := by
    rw [Nat.sub_eq_zero_of_le hplace]
    exact List.nil_suffix
  star := star
  deep := deep

/-- Going back leads to a place that was remembered, for the last star or for the last pair. -/
theorem Walk.retry?_cases (hretry : w.retry? path = some w') :
    (∃ s ∈ w.star, ∃ n, w'.pattern = s.1 ∧ w'.star = some (s.1, n) ∧ w'.deep = w.deep) ∨
      ∃ s ∈ w.deep, ∃ n, w'.pattern = s.1 ∧ w'.star = w.star ∧ w'.deep = some (s.1, n) := by
  obtain ⟨place, n, fresh, star, deep⟩ := w
  -- The way back to the last pair is the same whether there was no star or it has led nowhere.
  have hdeep {o : Option Walk} (ho : o = some w')
      (hbind : o = deep.bind fun s =>
        let next := s.2 + ((path.toList.drop s.2).takeWhile (· != '/')).length + 1
        if path.size < next then none else some ⟨s.1, next, true, star, some (s.1, next)⟩) :
      ∃ s ∈ deep, ∃ n, w'.pattern = s.1 ∧ w'.star = star ∧ w'.deep = some (s.1, n) := by
    rw [hbind] at ho
    obtain ⟨s, hs, ho⟩ := Option.bind_eq_some_iff.mp ho
    dsimp only at ho
    split_ifs at ho
    obtain rfl := Option.some.inj ho
    exact ⟨s, hs, _, rfl, rfl, rfl⟩
  unfold Walk.retry? at hretry
  cases star with
  | none => exact .inr (hdeep hretry rfl)
  | some s =>
    dsimp only at hretry
    split_ifs at hretry
    · exact .inr (hdeep hretry rfl)
    all_goals
      obtain rfl := Option.some.inj hretry
      exact .inl ⟨s, rfl, _, rfl, rfl, rfl⟩

theorem Walk.IsSettled.retry (h : w.IsSettled path) (hretry : w.retry? path = some w') :
    w'.IsSettled path := by
  rcases Walk.retry?_cases hretry with
    ⟨s, hs, n, hplace, hstar, hdeep⟩ | ⟨s, hs, n, hplace, hstar, hdeep⟩
  · have hle := h.star s hs
    refine .of_le (hplace ▸ hle) (fun q hq => ?_) (hdeep ▸ h.deep)
    rw [hstar] at hq
    obtain rfl := Option.some.inj hq
    exact hle
  · have hle := h.deep s hs
    refine .of_le (hplace ▸ hle) (hstar ▸ h.star) fun q hq => ?_
    rw [hdeep] at hq
    obtain rfl := Option.some.inj hq
    exact hle

/-- A letter without a meaning of its own is read as it stands. -/
theorem step_of_plain (w : Walk) {pattern : Array Char} {p : Char}
    (hp : pattern[w.pattern]? = some p) (hplain : p ∉ ['*', '?', '[', '{', '\\']) :
    w.step pattern path =
      if p = path.getD w.path '\uFFFD' then
        .next { w with pattern := w.pattern + 1, path := w.path + 1, fresh := p = '/' }
      else .fail w := by
  simp only [List.mem_cons, List.not_mem_nil, or_false, not_or] at hplain
  unfold Walk.step
  rw [hp]
  split <;> simp_all

/-- Behind the last star a letter that is read is one more letter of the ending. -/
theorem Walk.IsSettled.forward (h : w.IsSettled path) (hplace : 4 ≤ w.pattern)
    (hpath : w.path < path.size)
    (hread : ending[w.pattern - 4]? = some (path.getD w.path '\uFFFD')) (fresh : Bool) :
    ({ w with pattern := w.pattern + 1, path := w.path + 1, fresh } : Walk).IsSettled path where
  place := by
    obtain ⟨hlt, -⟩ := List.getElem?_eq_some_iff.mp hread
    have hlength : ending.length = 4 := rfl
    show w.pattern + 1 ≤ 8
    omega
  read := by
    have hletter : path.toList[w.path]? = some (path.getD w.path '\uFFFD') := by
      rw [Array.getElem?_toList, Array.getD_eq_getD_getElem?, Array.getElem?_eq_getElem hpath]
      rfl
    show ending.take (w.pattern + 1 - 4) <:+ path.toList.take (w.path + 1)
    rw [show w.pattern + 1 - 4 = w.pattern - 4 + 1 by omega, List.take_add_one, List.take_add_one,
      hread, hletter]
    exact (List.suffix_append_self_iff).mpr h.read
  star := h.star
  deep := h.deep

/-- A step at a letter of the ending. -/
theorem Walk.IsSettled.step_ending (h : w.IsSettled path) (hplace : 4 ≤ w.pattern)
    (hpath : w.path < path.size) {p : Char} (hp : defaultLetters[w.pattern]? = some p)
    (hend : ending[w.pattern - 4]? = some p) (hplain : p ∉ ['*', '?', '[', '{', '\\']) :
    (∃ w', w.step defaultLetters path = .next w' ∧ w'.IsSettled path) ∨
      w.step defaultLetters path = .fail w := by
  rw [step_of_plain w hp hplain]
  by_cases hread : p = path.getD w.path '\uFFFD'
  · rw [if_pos hread]
    exact .inl ⟨_, rfl, h.forward hplace hpath (hread ▸ hend) _⟩
  · rw [if_neg hread]
    exact .inr rfl

/-- **A walk stays settled.** It goes on so, or it fails where it stands. -/
theorem Walk.IsSettled.step (h : w.IsSettled path) (hpath : w.path < path.size) :
    (∃ w', w.step defaultLetters path = .next w' ∧ w'.IsSettled path) ∨
      w.step defaultLetters path = .fail w := by
  have hplace := h.place
  have hmark {k n : Nat} (hk : k ≤ 4) : ∀ s ∈ some (k, n), s.1 ≤ 4 := by
    rintro s ⟨⟩
    exact hk
  have two : 2 ≤ 4 := by decide
  have three : 3 ≤ 4 := by decide
  obtain ⟨place, n, fresh, star, deep⟩ := w
  dsimp only at hplace
  -- The pattern is `**/*.ahk`: stars and the slash up to place three, then the letters of the
  -- ending.
  interval_cases place
  · cases fresh with
    | true => exact .inl ⟨_, rfl, .of_le three (by simp) (hmark three)⟩
    | false => exact .inl ⟨_, rfl, .of_le two (hmark two) h.deep⟩
  · exact .inl ⟨_, rfl, .of_le two (hmark two) h.deep⟩
  · have hslash : defaultLetters[2]? = some '/' := rfl
    rw [step_of_plain _ hslash (by decide)]
    by_cases hread : '/' = path.getD n '\uFFFD'
    · rw [if_pos hread]
      exact .inl ⟨_, rfl, .of_le three h.star h.deep⟩
    · rw [if_neg hread]
      exact .inr rfl
  · exact .inl ⟨_, rfl, .of_le le_rfl (hmark le_rfl) h.deep⟩
  · exact h.step_ending (by simp) hpath (p := '.') rfl rfl (by decide)
  · exact h.step_ending (by simp) hpath (p := 'a') rfl rfl (by decide)
  · exact h.step_ending (by simp) hpath (p := 'h') rfl rfl (by decide)
  · exact h.step_ending (by simp) hpath (p := 'k') rfl rfl (by decide)
  · exact .inr rfl

/-- What is left of the default pattern stands for nothing only at its end. -/
theorem eq_of_matchesEmpty {place : Nat} (hplace : place ≤ 8)
    (h : matchesEmpty 9 (defaultLetters.toList.drop place) = some true) : place = 8 := by
  revert h
  interval_cases place <;> decide

/-- **A run along the default pattern that succeeds has read its ending last.** -/
theorem suffix_of_run (fuel : Nat) (h : w.IsSettled path)
    (hrun : run 0 fuel defaultLetters path w = some true) : ending <:+ path.toList := by
  induction fuel generalizing w with
  | zero => simp [run] at hrun
  | succ fuel ih =>
    rw [run] at hrun
    split_ifs at hrun with hend
    · have hplace := eq_of_matchesEmpty h.place hrun
      have hread := h.read
      have hall : path.toList.take w.path = path.toList :=
        List.take_of_length_le (by simpa using hend)
      rw [hplace, hall] at hread
      exact hread
    · rcases h.step (by omega) with ⟨w', hstep, hw'⟩ | hstep
      · rw [hstep] at hrun
        exact ih hw' hrun
      · rw [hstep] at hrun
        dsimp only at hrun
        split at hrun
        · next w' hretry => exact ih (h.retry hretry) hrun
        · split_ifs at hrun
          cases hrun

/-- The last letters of a byte string are its last bytes. -/
theorem suffix_of_letters {s : Bytes} {t : Text} (ht : '\uFFFD' ∉ t)
    (h : t <:+ (letters s).toList) : Utf8.encode t <:+ s := by
  obtain ⟨front, hfront⟩ := h
  rw [letters, List.toList_toArray, eq_comm, List.map_eq_append_iff] at hfront
  obtain ⟨before, last, hpieces, -, hlast⟩ := hfront
  -- A stray byte is read as the replacement character, so there is none among the last pieces.
  have hchars : last = t.map .char := by
    rw [← hlast, List.map_map]
    refine (List.map_id last).symm.trans (List.map_congr_left fun p hp => ?_)
    cases p with
    | char c => rfl
    | stray b => exact absurd (hlast ▸ List.mem_map_of_mem hp) ht
  refine ⟨Utf8.joinPieces before, ?_⟩
  calc Utf8.joinPieces before ++ Utf8.encode t
      = Utf8.joinPieces (before ++ last) := by
        rw [hchars, ← Utf8.joinPieces_map_char, Utf8.joinPieces, Utf8.joinPieces, Utf8.joinPieces,
          List.flatMap_append]
    _ = s := by rw [← hpieces, Utf8.joinPieces_pieces]

/-- **What the default pattern takes ends in `.ahk`.** -/
theorem suffix_of_accepts_default {p path : Bytes} (hp : p ∈ Config.defaultPatterns)
    (h : accepts p path = true) : bytes ".ahk" <:+ path := by
  obtain rfl := List.mem_singleton.mp hp
  have hletters : letters (bytes "**/*.ahk") = defaultLetters := by decide
  unfold accepts at h
  rw [hletters] at h
  have hsettled : ({} : Walk).IsSettled (letters path) := .of_le (by decide) (by simp) (by simp)
  exact suffix_of_letters (by decide) (suffix_of_run _ hsettled (eq_of_beq h))

end ScriptLint.Include
