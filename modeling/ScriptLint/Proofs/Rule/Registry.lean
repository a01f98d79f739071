import ScriptLint.Proofs.Except
import ScriptLint.Proofs.Text.Bytes
import ScriptLint.Rule.Registry
import Mathlib.Data.List.Nodup

/-!
# What a registry holds

A registry is seen through `find?`, which leads from a name to a rule. The lists of names and of
rules and the loading of rules by name are said in terms of it (`mem_names_iff`, `map_some_all`,
`load_eq`). Along any history of registrations and resets, refused registrations included, the names
are well-formed and no two rules share one (`wellFormed_after`), so that the views agree with each
other (`after_views`).
-/

namespace ScriptLint.Registry

variable {g : Registry}

/-! ### Looking up -/

theorem of_find?_eq_some {name : Bytes} {rule : Rule} (h : g.find? name = some rule) :
    rule ∈ g.rules ∧ rule.name = name := by
  rw [find?] at h
  have hname := List.find?_some h
  exact ⟨List.mem_of_find?_eq_some h, beq_iff_eq.mp hname⟩

theorem find?_eq_none_iff {name : Bytes} :
    g.find? name = none ↔ name ∉ g.rules.map (·.name) := by
  simp only [find?, List.find?_eq_none, beq_iff_eq, List.mem_map, not_exists, not_and]

theorem isSome_find?_iff {name : Bytes} :
    (g.find? name).isSome = true ↔ name ∈ g.rules.map (·.name) := by
  rw [Option.isSome_iff_ne_none, ne_eq, find?_eq_none_iff, not_not]

/-- A rule is found under its own name as the last one, unless the name was taken. -/
theorem find?_append (rule : Rule) (name : Bytes) :
    (⟨g.rules ++ [rule]⟩ : Registry).find? name =
      (g.find? name).or (if name = rule.name then some rule else none) := by
  rw [find?, List.find?_append, ← find?]
  by_cases h : name = rule.name
  · simp [h]
  · simp [h, Ne.symm h]

/-! ### Views -/

/-- The names of a registry are the registered ones, in byte order. -/
theorem names_perm_and_sorted (g : Registry) :
    g.names.Perm (g.rules.map (·.name)) ∧ g.names.Pairwise fun a b => bytesLt b a = false :=
  ⟨sortBytes_perm _, pairwise_sortBytes _⟩

theorem mem_names_iff {name : Bytes} : name ∈ g.names ↔ (g.find? name).isSome = true := by
  rw [g.names_perm_and_sorted.1.mem_iff, isSome_find?_iff]

/-- Where every name leads to a rule, leaving out the names without one leaves nothing out. -/
theorem map_some_filterMap_find? {names : List Bytes}
    (h : ∀ name ∈ names, (g.find? name).isSome = true) :
    (names.filterMap g.find?).map some = names.map g.find? := by
  induction names with
  | nil => rfl
  | cons name names ih =>
    rw [List.forall_mem_cons] at h
    obtain ⟨rule, hrule⟩ := Option.isSome_iff_exists.mp h.1
    rw [List.filterMap_cons, hrule, List.map_cons, ih h.2, List.map_cons, hrule]

/-- **All rules are the rules of all names**, in the order of the names. -/
theorem map_some_all (g : Registry) : g.all.map some = g.names.map g.find? :=
  map_some_filterMap_find? fun _ hname => mem_names_iff.mp hname

/-! ### Loading -/

/-- **Rules are loaded all or none**: the first name that is not registered is the error. -/
theorem load_eq (names : List Bytes) :
    g.load names =
      match names.find? fun name => (g.find? name).isNone with
      | some name => .error ⟨name⟩
      | none => .ok (names.filterMap g.find?) := by
  unfold load
  induction names with
  | nil => rfl
  | cons name names ih =>
    rw [List.mapM_cons, ih, List.find?_cons, List.filterMap_cons]
    cases g.find? name with
    | none => rfl
    | some rule =>
      simp only [Option.isNone_some]
      cases names.find? fun name => (g.find? name).isNone with
      | none => rfl
      | some missing => rfl

/-- Some of the names is not registered, or all of them are. -/
theorem find?_isNone_eq_none_iff {names : List Bytes} :
    names.find? (fun name => (g.find? name).isNone) = none ↔
      ∀ name ∈ names, (g.find? name).isSome = true := by
  simp only [List.find?_eq_none, Option.isNone_iff_eq_none, Option.isSome_iff_ne_none, ne_eq]

/-- What loading gives is what the names lead to, one by one. -/
theorem load_eq_ok_iff {names : List Bytes} {rules : List Rule} :
    g.load names = .ok rules ↔ rules.map some = names.map g.find? := by
  rw [load_eq]
  constructor
  · intro h
    cases hfirst : names.find? fun name => (g.find? name).isNone with
    | some name =>
      rw [hfirst] at h
      exact absurd h (by simp)
    | none =>
      rw [hfirst] at h
      obtain rfl := Except.ok.inj h
      exact map_some_filterMap_find? (find?_isNone_eq_none_iff.mp hfirst)
  · intro h
    have hall : ∀ name ∈ names, (g.find? name).isSome = true := by
      intro name hname
      have hmem : g.find? name ∈ rules.map some := h ▸ List.mem_map_of_mem hname
      obtain ⟨rule, -, hrule⟩ := List.mem_map.mp hmem
      rw [← hrule, Option.isSome_some]
    have hsame : rules.map some = (names.filterMap g.find?).map some := by
      rw [h, map_some_filterMap_find? hall]
    rw [find?_isNone_eq_none_iff.mpr hall,
      List.map_injective_iff.mpr (fun _ _ => Option.some.inj) hsame]

theorem load_eq_error_iff {names : List Bytes} {e : UnknownRule} :
    g.load names = .error e ↔
      names.find? (fun name => (g.find? name).isNone) = some e.name := by
  rw [load_eq]
  cases names.find? fun name => (g.find? name).isNone with
  | some name =>
    simp only [Except.error.injEq, Option.some.injEq]
    exact ⟨fun h => h ▸ rfl, fun h => h ▸ rfl⟩
  | none => simp

theorem exists_load_eq_ok_iff {names : List Bytes} :
    (∃ rules, g.load names = .ok rules) ↔ ∀ name ∈ names, (g.find? name).isSome = true := by
  rw [← find?_isNone_eq_none_iff, load_eq]
  cases names.find? fun name => (g.find? name).isNone with
  | none => simp
  | some name => simp

/-- Rules that are loaded by name are those registered under these names, in the same order. -/
theorem of_load_eq_ok {names : List Bytes} {rules : List Rule} (h : g.load names = .ok rules) :
    rules.map (·.name) = names ∧ ∀ rule ∈ rules, g.find? rule.name = some rule := by
  rw [load_eq_ok_iff] at h
  induction names generalizing rules with
  | nil =>
    obtain rfl := List.map_eq_nil_iff.mp h
    exact ⟨rfl, List.forall_mem_nil _⟩
  | cons name names ih =>
    obtain ⟨rule, rest, rfl, hrule, hrest⟩ := List.map_eq_cons_iff.mp h
    obtain rfl := (of_find?_eq_some hrule.symm).2
    obtain ⟨hnames, hfound⟩ := ih hrest
    exact ⟨by rw [List.map_cons, hnames], List.forall_mem_cons.mpr ⟨hrule.symm, hfound⟩⟩

/-! ### Registering -/

/-- **What a registration needs**: a rule, with a well-formed name that is free. -/
theorem register_eq_ok_iff {rule? : Option Rule} {grown : Registry} :
    g.register rule? = .ok grown ↔ ∃ rule, rule? = some rule ∧ isRuleName rule.name = true ∧
      g.find? rule.name = none ∧ grown = ⟨g.rules ++ [rule]⟩ := by
  cases rule? with
  | none => simp [register]
  | some rule =>
    simp only [register, Option.some.injEq, exists_eq_left']
    by_cases hname : isRuleName rule.name = true
    · cases hfind : g.find? rule.name with
      | none =>
        simp only [hname, Bool.not_true, Bool.false_eq_true, if_false, Option.isSome_none,
          Except.ok.injEq, true_and]
        exact eq_comm
      | some taken => simp [hname]
    · simp [hname]

/-- What can be done to a registry: a rule is added, nothing changes, or nothing is left. -/
theorem perform_cases (g : Registry) (a : Action) :
    (∃ rule, a = .register (some rule) ∧ isRuleName rule.name = true ∧
      g.find? rule.name = none ∧ g.perform a = (⟨g.rules ++ [rule]⟩, none)) ∨
    (∃ rule? e, a = .register rule? ∧ g.register rule? = .error e ∧ g.perform a = (g, some e)) ∨
    (a = .reset ∧ g.perform a = ({}, none)) := by
  cases a with
  | reset => exact .inr (.inr ⟨rfl, rfl⟩)
  | register rule? =>
    obtain ⟨e, he⟩ | ⟨grown, hok⟩ := exists_error_or_ok (g.register rule?)
    · exact .inr (.inl ⟨rule?, e, rfl, he, by rw [perform, he]⟩)
    · obtain ⟨rule, rfl, hname, hfree, rfl⟩ := register_eq_ok_iff.mp hok
      exact .inl ⟨rule, rfl, hname, hfree, by rw [perform, hok]⟩

/-! ### Histories -/

/-- What holds of a registry at any time: the names are well-formed, and each belongs to one
rule. -/
structure WellFormed (g : Registry) : Prop where
  isRuleName_of_mem : ∀ rule ∈ g.rules, isRuleName rule.name = true
  nodup : (g.rules.map (·.name)).Nodup

theorem wellFormed_empty : WellFormed {} := ⟨List.forall_mem_nil _, List.nodup_nil⟩

/-- **An action keeps a registry well-formed**, whether or not it is refused. -/
theorem WellFormed.perform (hg : g.WellFormed) (a : Action) : (g.perform a).1.WellFormed := by
  obtain ⟨rule, -, hname, hfree, h⟩ | ⟨_, _, -, -, h⟩ | ⟨-, h⟩ := g.perform_cases a
  · rw [h]
    constructor
    · intro r hr
      rcases List.mem_append.mp hr with hr | hr
      · exact hg.isRuleName_of_mem r hr
      · rwa [List.mem_singleton.mp hr]
    · rw [List.map_append, List.map_singleton, ← List.concat_eq_append]
      exact hg.nodup.concat (find?_eq_none_iff.mp hfree)
  · rwa [h]
  · rw [h]
    exact wellFormed_empty

/-- **A registry is well-formed after any history.** -/
theorem wellFormed_after (actions : List Action) : (after actions).WellFormed := by
  have hrun (g : Registry) (hg : g.WellFormed) (actions : List Action) :
      (actions.foldl (fun g a => (g.perform a).1) g).WellFormed := by
    induction actions generalizing g with
    | nil => exact hg
    | cons a actions ih => exact ih _ (hg.perform a)
  exact hrun {} wellFormed_empty actions

/-- The names of a well-formed registry increase. -/
theorem WellFormed.pairwise_names (hg : g.WellFormed) :
    g.names.Pairwise fun a b => bytesLt a b = true := by
  have hnodup : g.names.Nodup := g.names_perm_and_sorted.1.nodup_iff.mpr hg.nodup
  refine (g.names_perm_and_sorted.2.and hnodup).imp fun ⟨hle, hne⟩ => ?_
  rw [← Bool.not_eq_true, bytesLt_iff, not_lt] at hle
  rw [bytesLt_iff]
  exact hle.lt_of_ne fun heq => hne (byteKey_injective heq)

/-- A lower-case letter, then lower-case letters, digits and underscores. -/
def IsName (name : Bytes) : Prop :=
  ∃ first rest, name = first :: rest ∧ (0x61 ≤ first ∧ first ≤ 0x7A) ∧
    ∀ b ∈ rest, (0x61 ≤ b ∧ b ≤ 0x7A) ∨ (0x30 ≤ b ∧ b ≤ 0x39) ∨ b = 0x5F

theorem isRuleName_iff {name : Bytes} : isRuleName name = true ↔ IsName name := by
  unfold IsName
  cases name with
  | nil => simp [isRuleName]
  | cons first rest =>
    simp only [isRuleName, isLowerByte, isNameByte, Bool.and_eq_true, decide_eq_true_eq,
      List.all_eq_true, Bool.or_eq_true, beq_iff_eq, List.cons.injEq, or_assoc]
    constructor
    · rintro ⟨hfirst, hrest⟩
      exact ⟨first, rest, ⟨rfl, rfl⟩, hfirst, hrest⟩
    · rintro ⟨_, _, ⟨rfl, rfl⟩, hfirst, hrest⟩
      exact ⟨hfirst, hrest⟩

/-- **The views of a registry agree after any history** of registrations, refused ones included, and
resets. A name leads to a rule of this name only, and is well-formed. A registration is refused
exactly if there is no rule, or its name is of another form or taken; then nothing changes, and
otherwise the new name leads to the new rule and every other name to where it did. The names
strictly increase and are those that lead to a rule; all rules are what the names lead to, one by
one. Loading succeeds exactly if every name is registered, gives what the names lead to, and is
otherwise refused for the first name that is not registered; so loading all names gives all
rules. -/
theorem after_views (actions : List Action) :
    let g := after actions
    (∀ name rule, g.find? name = some rule → rule.name = name ∧ IsName name) ∧
    (∀ rule?, (g.perform (.register rule?)).2 = none ↔
      ∃ rule, rule? = some rule ∧ IsName rule.name ∧ g.find? rule.name = none) ∧
    (∀ a, (g.perform a).2 ≠ none → after (actions ++ [a]) = g) ∧
    (∀ rule, (g.perform (.register (some rule))).2 = none →
      ∀ name, (after (actions ++ [.register (some rule)])).find? name
        = if name = rule.name then some rule else g.find? name) ∧
    (g.names.Pairwise fun a b => bytesLt a b = true) ∧
    (∀ name, name ∈ g.names ↔ (g.find? name).isSome = true) ∧
    g.all.map some = g.names.map g.find? ∧
    (∀ names rules, g.load names = .ok rules ↔ rules.map some = names.map g.find?) ∧
    (∀ names, (∃ rules, g.load names = .ok rules) ↔
      ∀ name ∈ names, (g.find? name).isSome = true) ∧
    (∀ names e, g.load names = .error e ↔
      names.find? (fun name => (g.find? name).isNone) = some e.name) ∧
    g.load g.names = .ok g.all := by
  intro g
  have hg : g.WellFormed := wellFormed_after actions
  have hlast (a : Action) : after (actions ++ [a]) = (g.perform a).1 := by
    rw [after, List.foldl_append]
    rfl
  refine ⟨?_, ?_, ?_, ?_, hg.pairwise_names, fun _ => mem_names_iff, g.map_some_all,
    fun _ _ => load_eq_ok_iff, fun _ => exists_load_eq_ok_iff, fun _ _ => load_eq_error_iff,
    load_eq_ok_iff.mpr g.map_some_all⟩
  · intro name rule h
    obtain ⟨hmem, rfl⟩ := of_find?_eq_some h
    exact ⟨rfl, isRuleName_iff.mp (hg.isRuleName_of_mem rule hmem)⟩
  · intro rule?
    obtain ⟨e, he⟩ | ⟨grown, hok⟩ := exists_error_or_ok (g.register rule?)
    · -- A rule with a name that is well-formed and free would have been registered.
      rw [perform, he]
      refine iff_of_false (by simp) ?_
      rintro ⟨rule, rfl, hname, hfree⟩
      have hok := register_eq_ok_iff.mpr ⟨rule, rfl, isRuleName_iff.mpr hname, hfree, rfl⟩
      rw [he] at hok
      exact absurd hok (by simp)
    · rw [perform, hok]
      obtain ⟨rule, rfl, hname, hfree, -⟩ := register_eq_ok_iff.mp hok
      exact iff_of_true rfl ⟨rule, rfl, isRuleName_iff.mp hname, hfree⟩
  · intro a ha
    rw [hlast]
    obtain ⟨_, -, -, -, h⟩ | ⟨_, _, -, -, h⟩ | ⟨-, h⟩ := g.perform_cases a
    · exact absurd (by rw [h]) ha
    · rw [h]
    · exact absurd (by rw [h]) ha
  · -- The new rule stands last, so it decides only where no other rule has the name.
    intro rule hrule name
    rw [hlast]
    obtain ⟨_, ha, -, hfree, h⟩ | ⟨_, _, -, -, h⟩ | ⟨ha, -⟩ :=
      g.perform_cases (.register (some rule))
    · obtain rfl := Option.some.inj (Action.register.inj ha)
      rw [h, find?_append]
      split_ifs with hname
      · rw [hname, hfree, Option.none_or]
      · rw [Option.or_none]
    · rw [h] at hrule
      exact absurd hrule (by simp)
    · cases ha

/-- Two rules registered after a reset, with two refused registrations between them: one of them is
refused when it comes again, and of the names to load the first one without a rule is the error. -/
theorem after_views_two_rules :
    let a := Rule.always (bytes "a") []
    let b := Rule.always (bytes "b_2") []
    let actions : List Action := [.register (some b), .reset, .register (some a),
      .register none, .register (some (Rule.always (bytes "B") [])), .register (some b)]
    ((after actions).find? (bytes "b_2")).map (·.name) = some (bytes "b_2") ∧
      (after actions).names = [bytes "a", bytes "b_2"] ∧
      after (actions ++ [.register (some b)]) = after actions ∧
      (after actions).load [bytes "b_2", bytes "c", bytes "d"] = .error ⟨bytes "c"⟩ := by
  intro a b actions
  obtain ⟨hname, -, hrefused, -, -, -, -, -, -, herror, -⟩ := after_views actions
  have hfound : (after actions).find? (bytes "b_2") = some b := rfl
  have hagain : ((after actions).perform (.register (some b))).2
      = some (.duplicate (bytes "b_2")) := rfl
  refine ⟨?_, List.mergeSort_of_pairwise ?_, ?_, (herror _ _).mpr rfl⟩
  · rw [hfound, Option.map_some, (hname _ _ hfound).1]
  · have hsorted : [bytes "a", bytes "b_2"].Pairwise fun a b => (!bytesLt b a) = true := by
      decide
    exact hsorted
  · exact hrefused _ (by simp [hagain])

end ScriptLint.Registry
