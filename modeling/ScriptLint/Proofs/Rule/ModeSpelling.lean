import ScriptLint.Proofs.Rule.RequireSingleInstance

/-!
# Spellings of a mode

A mode is accepted in any letter case: what counts is that it lowers to one of the four modes. On a
line it is looked for by folding. The two notions of letter case agree on every accepted spelling
but those with a dotted capital I, which lowers to `i` and folds to itself only. So spellings of one
mode are alike if both have this letter or none has it (`IsMode.agrees`), and of two other spellings
no script satisfies both (`IsMode.check_ne_nil_of_dotted`).
-/

namespace ScriptLint.RequireSingleInstance

/-- The dotted capital I. It lowers to `i`, and it agrees with no other character. -/
def dottedI : Char := '\u0130'

/-! ### Spellings that agree -/

/-- The letter `i` of a mode is its first one. -/
theorem IsMode.dottedI_notMem_tail {mode : Text} (h : IsMode mode) : dottedI ∉ mode.tail := by
  have hfirst : ∀ m ∈ modes, 'i' ∉ m.tail := by decide
  intro hmem
  refine hfirst _ h ?_
  rw [← List.map_tail]
  exact List.mem_map_of_mem hmem

theorem IsMode.dottedI_mem_iff {c : Char} {r : Text} (h : IsMode (c :: r)) :
    dottedI ∈ c :: r ↔ c = dottedI := by
  have htail : dottedI ∉ r := h.dottedI_notMem_tail
  rw [List.mem_cons, or_iff_left htail, eq_comm]

/-- **Spellings of one mode agree**, if both have a dotted capital I or none has it. -/
theorem IsMode.agrees {mode mode' : Text} (h : IsMode mode) (h' : IsMode mode')
    (hlower : mode.map Fold.lowerAscii = mode'.map Fold.lowerAscii)
    (hdotted : dottedI ∈ mode ↔ dottedI ∈ mode') : Fold.Agrees mode mode' := by
  obtain ⟨c, r, rfl, -⟩ := h.startsNonblank
  obtain ⟨c', r', rfl, -⟩ := h'.startsNonblank
  rw [h.dottedI_mem_iff, h'.dottedI_mem_iff] at hdotted
  obtain ⟨hhead, htail⟩ := List.cons.inj hlower
  -- Behind the first letter lowering is folding; the first letter is compared on its own.
  have hfolded {d : Char} {t : Text} (ht : IsMode (d :: t)) :
      Fold.folded t = (t.map Fold.lowerAscii).map Char.toNat := by
    rw [Fold.folded, List.map_map]
    refine List.map_congr_left fun e he => Fold.codePoint_eq_toNat_lowerAscii ?_ ?_
    · exact ne_of_mem_of_not_mem he ht.dottedI_notMem_tail
    · have := ht.lowerAscii_bounds e (List.mem_cons_of_mem d he)
      omega
  have hheads : Fold.codePoint c.toNat = Fold.codePoint c'.toNat := by
    by_cases hc : c = dottedI
    · rw [hc, hdotted.mp hc]
    · have hbounds := h.lowerAscii_bounds c List.mem_cons_self
      have hbounds' := h'.lowerAscii_bounds c' List.mem_cons_self
      rw [Fold.codePoint_eq_toNat_lowerAscii hc (by omega),
        Fold.codePoint_eq_toNat_lowerAscii (mt hdotted.mpr hc) (by omega),
        show Fold.lowerAscii c = Fold.lowerAscii c' from hhead]
  refine Fold.agrees_cons_iff.mpr ⟨c', r', rfl, hheads, ?_⟩
  rw [Fold.Agrees, hfolded h, hfolded h', htail]

theorem names_congr {mode mode' : Text} (h : Fold.Agrees mode mode') (rest : Text) :
    names mode rest = names mode' rest := by
  rw [names, names, funext (Fold.strip?_congr h)]

/-! ### Reports -/

/-- Whether two reports are alike but for the mode that they quote. -/
inductive AlikeBut (mode mode' : Text) (path : Bytes) : List Diagnostic → List Diagnostic → Prop
    where
  | silent : AlikeBut mode mode' path [] []
  | missing : AlikeBut mode mode' path
      [⟨path, 0, instanceRuleName, bytes "missing #SingleInstance directive"⟩]
      [⟨path, 0, instanceRuleName, bytes "missing #SingleInstance directive"⟩]
  | wrong : AlikeBut mode mode' path
      [⟨path, 0, instanceRuleName,
        bytes "#SingleInstance should use '" ++ Utf8.encode mode ++ bytes "'"⟩]
      [⟨path, 0, instanceRuleName,
        bytes "#SingleInstance should use '" ++ Utf8.encode mode' ++ bytes "'"⟩]

theorem alikeBut_check {mode mode' : Text} (h : Fold.Agrees mode mode') (s : Script) :
    AlikeBut mode mode' s.path (check mode s) (check mode' s) := by
  simp only [check, names_congr h]
  split
  · exact .missing
  · split_ifs
    · exact .silent
    · exact .wrong

theorem AlikeBut.eq_nil_iff {mode mode' : Text} {path : Bytes} {ds ds' : List Diagnostic}
    (h : AlikeBut mode mode' path ds ds') : ds = [] ↔ ds' = [] := by
  cases h with
  | silent => rfl
  | missing | wrong => exact iff_of_false (List.cons_ne_nil _ _) (List.cons_ne_nil _ _)

/-! ### The dotted capital I -/

/-- A mode that is named starts with a character that agrees with the first one behind the
blanks. -/
theorem exists_head_of_names {c : Char} {r rest : Text} (h : names (c :: r) rest = true) :
    ∃ d t, afterBlanks? rest = some (d :: t) ∧ Fold.codePoint c.toNat = Fold.codePoint d.toNat := by
  rw [names] at h
  split at h
  · rename_i after hafter
    obtain ⟨t, ht, hstrip⟩ := Option.bind_eq_some_iff.mp hafter
    obtain ⟨front, rfl, hfront⟩ := Fold.strip?_eq_some_iff.mp hstrip
    obtain ⟨d, ds, rfl, hsame, -⟩ := Fold.agrees_cons_iff.mp hfront
    exact ⟨d, ds ++ after, ht, hsame⟩
  · exact absurd h (by decide)

/-- **A directive names a mode with a dotted capital I in front, or one without.** -/
theorem eq_dottedI_of_names {c : Char} {r r' rest : Text}
    (h : names (dottedI :: r) rest = true) (h' : names (c :: r') rest = true) : c = dottedI := by
  obtain ⟨d, t, ht, hd⟩ := exists_head_of_names h
  obtain ⟨d', t', ht', hd'⟩ := exists_head_of_names h'
  rw [ht] at ht'
  obtain ⟨rfl, -⟩ := List.cons.inj (Option.some.inj ht')
  have hfolds : Fold.codePoint dottedI.toNat = 0x130 := Fold.codePoint_eq_dotted_iff.mpr rfl
  exact Char.toNat_inj.mp (Fold.codePoint_eq_dotted_iff.mp (by rw [hd', ← hd, hfolds]))

theorem check_eq_nil_iff {mode : Text} {s : Script} : check mode s = [] ↔
    ∃ rest, (s.lines.findSome? fun line => afterDirective? (trim line)) = some rest ∧
      names mode rest = true := by
  rw [check]
  cases s.lines.findSome? fun line => afterDirective? (trim line) with
  | none => simp
  | some rest =>
    dsimp only
    split_ifs with h <;> simp [h]

/-- **No script satisfies two spellings** of which one has a dotted capital I and the other has
none. -/
theorem IsMode.check_ne_nil_of_dotted {mode mode' : Text} (h : IsMode mode) (h' : IsMode mode')
    (hdotted : dottedI ∈ mode) (hplain : dottedI ∉ mode') {s : Script}
    (hcheck : check mode s = []) : check mode' s ≠ [] := by
  intro hcheck'
  obtain ⟨c, r, rfl, -⟩ := h.startsNonblank
  obtain ⟨c', r', rfl, -⟩ := h'.startsNonblank
  obtain rfl := h.dottedI_mem_iff.mp hdotted
  obtain ⟨rest, hrest, hnames⟩ := check_eq_nil_iff.mp hcheck
  obtain ⟨rest', hrest', hnames'⟩ := check_eq_nil_iff.mp hcheck'
  obtain rfl : rest = rest' := Option.some.inj (hrest.symm.trans hrest')
  exact hplain (h'.dottedI_mem_iff.mpr (eq_dottedI_of_names hnames hnames'))

/-- A mode with a dotted capital I lowers to the one mode with an `i`. -/
theorem IsMode.lowers_to_ignore {mode : Text} (h : IsMode mode) (hdotted : dottedI ∈ mode) :
    mode.map Fold.lowerAscii = "ignore".toList := by
  have hone : ∀ m ∈ modes, 'i' ∈ m → m = "ignore".toList := by decide
  exact hone _ h (List.mem_map_of_mem hdotted)

/-- The path of a script does not matter for what its first directive names. -/
theorem check_eq_nil_of_names {mode text : Text} (path : Bytes) (rest : Text)
    (hfirst : ((splitLines text).findSome? fun line => afterDirective? (trim line)) = some rest)
    (hnames : names mode rest = true) : check mode ⟨path, text⟩ = [] :=
  check_eq_nil_iff.mpr ⟨rest, hfirst, hnames⟩

/-- **Spellings of one mode are satisfied by the same scripts**, if both have a dotted capital I or
none has it. -/
theorem IsMode.check_eq_nil_iff_of_lowers {mode : Text} (h : IsMode mode) (spelling : Text)
    (hdotted : dottedI ∈ mode ↔ dottedI ∈ spelling)
    (hlower : mode.map Fold.lowerAscii = spelling.map Fold.lowerAscii) (s : Script) :
    check mode s = [] ↔ check spelling s = [] := by
  have hmode : IsMode spelling := by
    unfold IsMode
    rwa [← hlower]
  exact (alikeBut_check (h.agrees hmode hlower hdotted) s).eq_nil_iff

/-- **A mode is accepted in any letter case, and looked for in another sense of it.** Two accepted
spellings of one mode are alike for every script, if both have a dotted capital I or none has it:
the rule is content under both or under none, and its reports differ in the mode that they quote at
most. Where only one of them has this letter, each is satisfied by a script of its own and no script
satisfies both. -/
theorem spellings_alike_unless_dotted {mode mode' : Text} {configured configured' : Rule}
    (h : IsRuleFor mode configured) (h' : IsRuleFor mode' configured')
    (hlower : mode.map Fold.lowerAscii = mode'.map Fold.lowerAscii) :
    ((dottedI ∈ mode ↔ dottedI ∈ mode') → ∀ s,
      AlikeBut mode mode' s.path (configured.check s) (configured'.check s)) ∧
    (dottedI ∈ mode → dottedI ∉ mode' →
      (∀ path, configured.check ⟨path, "#SingleInstance \u0130gnore".toList⟩ = [] ∧
        configured'.check ⟨path, "#SingleInstance Ignore".toList⟩ = []) ∧
      ∀ s, configured.check s = [] → configured'.check s ≠ []) := by
  obtain ⟨hmode, hcheck⟩ := h.check_eq
  obtain ⟨hmode', hcheck'⟩ := h'.check_eq
  rw [hcheck, hcheck']
  refine ⟨fun hdotted => alikeBut_check (hmode.agrees hmode' hlower hdotted), ?_⟩
  intro hdotted hplain
  have hignore := hmode.lowers_to_ignore hdotted
  refine ⟨fun path => ⟨?_, ?_⟩, fun s => hmode.check_ne_nil_of_dotted hmode' hdotted hplain⟩
  · refine (hmode.check_eq_nil_iff_of_lowers "\u0130gnore".toList
      (iff_of_true hdotted (by decide)) (hignore.trans (by decide)) _).mpr ?_
    exact check_eq_nil_of_names path " \u0130gnore".toList (by decide)
      (by decide)
  · refine (hmode'.check_eq_nil_iff_of_lowers "Ignore".toList
      (iff_of_false hplain (by decide)) (hlower.symm.trans (hignore.trans (by decide))) _).mpr ?_
    exact check_eq_nil_of_names path " Ignore".toList (by decide)
      (by decide)

/-- Two spellings without the letter and one with it: reports under the first two differ in the mode
that they quote at most, and a directive that satisfies the first does not satisfy the last. -/
theorem spellings_alike_unless_dotted_ignore :
    let under (mode : Text) : RuleEntry :=
      { enabled := true, settings := some [(bytes "mode", .text (Utf8.encode mode))] }
    let small : Text := "ignore".toList
    let large : Text := "IGNORE".toList
    let dotted : Text := "\u0130GNORE".toList
    ∃ c c' c'', rule.configure (under small) = .ok c ∧ rule.configure (under large) = .ok c' ∧
      rule.configure (under dotted) = .ok c'' ∧
      (∀ s, AlikeBut small large s.path (c.check s) (c'.check s)) ∧
      ∀ path, c.check ⟨path, "#SingleInstance Ignore".toList⟩ = [] ∧
        c''.check ⟨path, "#SingleInstance Ignore".toList⟩ ≠ [] := by
  intro under small large dotted
  have hconfigure (mode : Text) (h : IsMode mode) :
      rule.configure (under mode) = .ok { rule with check := check mode } :=
    (configure_eq_ok_iff true).mpr ⟨h, rfl⟩
  have hsmall := hconfigure small (by decide)
  have hlarge := hconfigure large (by decide)
  have hdotted := hconfigure dotted (by decide)
  refine ⟨_, _, _, hsmall, hlarge, hdotted, ?_, fun path => ?_⟩
  · exact (spellings_alike_unless_dotted (.setting hsmall) (.setting hlarge) (by decide)).1
      (by decide)
  · obtain ⟨hown, hapart⟩ := (spellings_alike_unless_dotted (.setting hdotted) (.setting hsmall)
      (by decide)).2 (by decide) (by decide)
    exact ⟨(hown path).2, fun h => hapart _ h (hown path).2⟩

/-- **A spelling is accepted for a mode that it does not stand for**: with a dotted capital I the
rule reports about a directive that it is content with when the mode is spelled without. -/
theorem dotted_spelling_differs :
    let under (mode : Text) : RuleEntry :=
      { enabled := true, settings := some [(bytes "mode", .text (Utf8.encode mode))] }
    let plain : Text := "Ignore".toList
    let dotted : Text := "\u0130gnore".toList
    let s : Script := ⟨bytes "a.ahk", "#SingleInstance Ignore\n".toList⟩
    plain.map Fold.lowerAscii = dotted.map Fold.lowerAscii ∧
    ∃ c c', rule.configure (under plain) = .ok c ∧ rule.configure (under dotted) = .ok c' ∧
      c.check s = [] ∧
      c'.check s = [⟨bytes "a.ahk", 0, instanceRuleName,
        bytes "#SingleInstance should use '" ++ Utf8.encode dotted ++ bytes "'"⟩] := by
  intro under plain dotted s
  refine ⟨by decide, _, _, (configure_eq_ok_iff true).mpr ⟨by decide, rfl⟩,
    (configure_eq_ok_iff true).mpr ⟨by decide, rfl⟩, ?_, ?_⟩
  · show check plain s = []
    decide
  · show check dotted s = _
    decide

end ScriptLint.RequireSingleInstance
