import ScriptLint.Config.Basic
import ScriptLint.Proofs.Entries
import Mathlib.Data.List.Induction

/-!
# The rules for a file

The rules for a file are folded together from three levels: the defaults, a loaded configuration on
top of them, and those of its overrides that apply to the file, one after the other. What comes out
is decided level by level (`Config.Tells`), and each rule is told what one level says of it as a
whole. The order in which a table is listed decides nothing (`Config.SameRules.effective`).
-/

namespace ScriptLint

/-! ### Overrides -/

namespace Override

variable {o : Override} {path name : Bytes}

/-- Whether an override is about a file: one of its patterns compiles and matches it. -/
def Applies (o : Override) (path : Bytes) : Prop :=
  ∃ pattern ∈ o.files, ∃ m, Glob.compile pattern = .ok m ∧ Glob.accepts m path = true

/-- Whether an override says of a file what a rule is told. -/
def Decides (o : Override) (path name : Bytes) : Prop :=
  o.Applies path ∧ name ∈ o.rules.map (·.1)

/-- What an override tells a rule for a file. -/
def told? (o : Override) (path name : Bytes) : Option RuleEntry :=
  if o.files.any (Config.matchesPattern path) then o.rules.get? name else none

theorem applies_iff : o.Applies path ↔ o.files.any (Config.matchesPattern path) = true := by
  rw [List.any_eq_true]
  refine exists_congr fun pattern => and_congr_right fun _ => ?_
  rw [Config.matchesPattern]
  cases Glob.compile pattern with
  | error reason => simp
  | ok m => simp

instance (o : Override) (path : Bytes) : Decidable (o.Applies path) :=
  decidable_of_iff _ applies_iff.symm

instance (o : Override) (path name : Bytes) : Decidable (o.Decides path name) :=
  inferInstanceAs (Decidable (_ ∧ _))

theorem told?_eq_none_iff : o.told? path name = none ↔ ¬ o.Decides path name := by
  rw [told?, Decides, applies_iff]
  split_ifs with happlies
  · rw [Entries.get?_eq_none_iff, and_iff_right happlies]
  · simp [happlies]

theorem told?_eq_some_iff (ho : o.rules.IsDistinct) {e : RuleEntry} :
    o.told? path name = some e ↔ o.Applies path ∧ (name, e) ∈ o.rules := by
  rw [told?, applies_iff]
  split_ifs with happlies
  · rw [Entries.get?_eq_some_iff ho, and_iff_right happlies]
  · simp [happlies]

end Override

/-! ### Level by level -/

namespace Config

variable {base : Config} {loaded : Option Config} {path name : Bytes}

/-- Whether the tables of a configuration are maps: none of them lists a rule twice. -/
structure IsDistinct (c : Config) : Prop where
  rules : c.rules.IsDistinct
  overrides : ∀ o ∈ c.overrides, o.rules.IsDistinct

/-- Whether a loaded configuration, if there is one, leaves what a rule is told to the defaults. -/
def LeavesOpen (loaded : Option Config) (path name : Bytes) : Prop :=
  ∀ c ∈ loaded, (∀ o ∈ c.overrides, ¬ o.Decides path name) ∧ name ∉ c.rules.map (·.1)

/-- What a rule is told for a file. The last override that applies to the file and mentions the rule
goes first, then the loaded configuration, then the defaults. -/
inductive Tells (base : Config) (loaded : Option Config) (path name : Bytes) :
    Option RuleEntry → Prop where
  | override {c : Config} {before after : List Override} {o : Override} {e : RuleEntry}
      (hloaded : loaded = some c) (hsplit : c.overrides = before ++ o :: after)
      (happlies : o.Applies path) (hentry : (name, e) ∈ o.rules)
      (hlast : ∀ later ∈ after, ¬ later.Decides path name) : Tells base loaded path name (some e)
  | loaded {c : Config} {e : RuleEntry} (hloaded : loaded = some c)
      (hnone : ∀ o ∈ c.overrides, ¬ o.Decides path name) (hentry : (name, e) ∈ c.rules) :
      Tells base loaded path name (some e)
  | default {e : RuleEntry} (hopen : LeavesOpen loaded path name)
      (hentry : (name, e) ∈ base.rules) : Tells base loaded path name (some e)
  | nothing (hopen : LeavesOpen loaded path name) (hbase : name ∉ base.rules.map (·.1)) :
      Tells base loaded path name none

/-- What a configuration tells a rule for a file: the overrides are asked from the last one on. -/
def told? (c : Config) (path name : Bytes) : Option RuleEntry :=
  (c.overrides.reverse.findSome? (·.told? path name)).or (c.rules.get? name)

/-- **The overrides are laid over each other so that the last one counts.** -/
theorem get?_effective_eq (c : Config) (hc : ∀ o ∈ c.overrides, o.rules.IsDistinct)
    (path name : Bytes) : (c.effective path).get? name = c.told? path name := by
  unfold effective told?
  generalize c.overrides = overrides at hc ⊢
  -- The last override is laid over all the rest, so the induction takes it off first.
  induction overrides using List.reverseRecOn with
  | nil => rfl
  | append_singleton os o ih =>
    rw [List.forall_mem_append, List.forall_mem_singleton] at hc
    rw [List.foldl_append, List.foldl_cons, List.foldl_nil, List.reverse_append,
      List.reverse_singleton, List.singleton_append, List.findSome?_cons, Override.told?]
    split_ifs with happlies
    · rw [Entries.get?_overlay _ hc.2, ih hc.1]
      cases o.rules.get? name with
      | none => rfl
      | some e => rfl
    · exact ih hc.1

theorem get?_effective_merge (base : Config) (hloaded : ∀ c ∈ loaded, c.IsDistinct)
    (path name : Bytes) :
    ((base.merge loaded).effective path).get? name
      = (loaded.bind (·.told? path name)).or (base.rules.get? name) := by
  cases loaded with
  | none => rfl
  | some c =>
    have hc := hloaded c rfl
    rw [get?_effective_eq (base.merge (some c)) hc.overrides, Option.bind_some, told?, told?,
      Option.or_assoc, ← Entries.get?_overlay _ hc.rules]
    rfl

theorem findSome?_told?_eq_none_iff {os : List Override} :
    os.reverse.findSome? (·.told? path name) = none ↔ ∀ o ∈ os, ¬ o.Decides path name := by
  simp only [List.findSome?_eq_none_iff, List.mem_reverse, Override.told?_eq_none_iff]

/-- The first entry that is found from the last override on is that of the last one that decides. -/
theorem findSome?_told?_eq_some_iff {os : List Override} (hos : ∀ o ∈ os, o.rules.IsDistinct)
    {e : RuleEntry} :
    os.reverse.findSome? (·.told? path name) = some e ↔
      ∃ before o after, os = before ++ o :: after ∧ o.Applies path ∧ (name, e) ∈ o.rules ∧
        ∀ later ∈ after, ¬ later.Decides path name := by
  rw [List.findSome?_eq_some_iff]
  constructor
  · rintro ⟨after, o, before, hsplit, hentry, hlast⟩
    have hos' : os = before.reverse ++ o :: after.reverse := by
      rw [← List.reverse_reverse os, hsplit]
      simp
    have ho : o.rules.IsDistinct := hos o (by simp [hos'])
    obtain ⟨happlies, hmem⟩ := (Override.told?_eq_some_iff ho).mp hentry
    refine ⟨before.reverse, o, after.reverse, hos', happlies, hmem, fun later hlater => ?_⟩
    exact Override.told?_eq_none_iff.mp (hlast later (List.mem_reverse.mp hlater))
  · rintro ⟨before, o, after, rfl, happlies, hmem, hlast⟩
    refine ⟨after.reverse, o, before.reverse, by simp, ?_, fun later hlater => ?_⟩
    · exact (Override.told?_eq_some_iff (hos o (by simp))).mpr ⟨happlies, hmem⟩
    · exact Override.told?_eq_none_iff.mpr (hlast later (List.mem_reverse.mp hlater))

theorem bind_told?_eq_none_iff :
    loaded.bind (·.told? path name) = none ↔ LeavesOpen loaded path name := by
  rw [Option.bind_eq_none_iff]
  refine forall₂_congr fun c _ => ?_
  rw [told?, Option.or_eq_none_iff, findSome?_told?_eq_none_iff, Entries.get?_eq_none_iff]

/-- **The rules for a file are decided level by level.** -/
theorem get?_effective_merge_eq_iff (hbase : base.rules.IsDistinct)
    (hloaded : ∀ c ∈ loaded, c.IsDistinct) {answer : Option RuleEntry} :
    ((base.merge loaded).effective path).get? name = answer ↔
      Tells base loaded path name answer := by
  rw [get?_effective_merge base hloaded]
  -- The levels from the top: the overrides that are loaded, the rules that are loaded, the
  -- defaults. What is told by none is open on all of them.
  constructor
  · rintro rfl
    cases hsaid : loaded.bind (·.told? path name) with
    | none =>
      have hopen := bind_told?_eq_none_iff.mp hsaid
      rw [Option.none_or]
      cases hget : base.rules.get? name with
      | none => exact .nothing hopen (Entries.get?_eq_none_iff.mp hget)
      | some e => exact .default hopen ((Entries.get?_eq_some_iff hbase).mp hget)
    | some e =>
      rw [Option.some_or]
      obtain ⟨c, rfl, he⟩ := Option.bind_eq_some_iff.mp hsaid
      have hc := hloaded c rfl
      rw [Config.told?, Option.or_eq_some_iff] at he
      rcases he with hover | ⟨hnone, hget⟩
      · obtain ⟨before, o, after, hsplit, happlies, hentry, hlast⟩ :=
          (findSome?_told?_eq_some_iff hc.overrides).mp hover
        exact .override rfl hsplit happlies hentry hlast
      · exact .loaded rfl (findSome?_told?_eq_none_iff.mp hnone)
          ((Entries.get?_eq_some_iff hc.rules).mp hget)
  · intro htells
    cases htells with
    | override hc hsplit happlies hentry hlast =>
      subst hc
      have hfound := (findSome?_told?_eq_some_iff (hloaded _ rfl).overrides).mpr
        ⟨_, _, _, hsplit, happlies, hentry, hlast⟩
      rw [Option.bind_some, Config.told?, hfound, Option.some_or, Option.some_or]
    | loaded hc hnone hentry =>
      subst hc
      rw [Option.bind_some, Config.told?, findSome?_told?_eq_none_iff.mpr hnone, Option.none_or,
        (Entries.get?_eq_some_iff (hloaded _ rfl).rules).mpr hentry, Option.some_or]
    | default hopen hentry =>
      rw [bind_told?_eq_none_iff.mpr hopen, Option.none_or]
      exact (Entries.get?_eq_some_iff hbase).mpr hentry
    | nothing hopen hnone =>
      rw [bind_told?_eq_none_iff.mpr hopen, Option.none_or]
      exact Entries.get?_eq_none_iff.mpr hnone

/-! ### Whatever the order of a table -/

/-- Whether two configurations tell the rules the same, listed in whatever order. -/
structure SameRules (c c' : Config) : Prop where
  rules : c.rules.Perm c'.rules
  overrides : List.Forall₂ (fun o o' : Override => o.files = o'.files ∧ o.rules.Perm o'.rules)
    c.overrides c'.overrides

theorem SameRules.refl (c : Config) : c.SameRules c :=
  ⟨.refl _, List.forall₂_same.mpr fun _ _ => ⟨rfl, .refl _⟩⟩

theorem SameRules.trans {c c' c'' : Config} (h : c.SameRules c') (h' : c'.SameRules c'') :
    c.SameRules c'' := by
  refine ⟨h.rules.trans h'.rules, ?_⟩
  obtain ⟨-, hs⟩ := h
  obtain ⟨-, hs'⟩ := h'
  generalize c.overrides = os, c'.overrides = os', c''.overrides = os'' at hs hs' ⊢
  induction hs generalizing os'' with
  | nil => exact hs'
  | cons ho _ ih =>
    cases hs' with
    | cons ho' hrest => exact .cons ⟨ho.1.trans ho'.1, ho.2.trans ho'.2⟩ (ih _ hrest)

/-- The tables of a configuration on top of defaults are maps again. -/
theorem merge_isDistinct (hbase : base.rules.IsDistinct) (hloaded : ∀ c ∈ loaded, c.IsDistinct) :
    (base.merge loaded).IsDistinct := by
  cases loaded with
  | none => exact ⟨hbase, List.forall_mem_nil _⟩
  | some c => exact ⟨hbase.overlay c.rules, (hloaded c rfl).overrides⟩

/-- What comes of laying a configuration over defaults does not depend on how the two are listed. -/
theorem merge_sameRules {base' : Config} {loaded' : Option Config} (hbase : base.rules.IsDistinct)
    (hloaded : ∀ c ∈ loaded, c.IsDistinct) (h : base.rules.Perm base'.rules)
    (h' : Option.Rel SameRules loaded loaded') :
    (base.merge loaded).SameRules (base'.merge loaded') := by
  cases h' with
  | none => exact ⟨h, .nil⟩
  | some hc => exact ⟨Entries.overlay_perm hbase (hloaded _ rfl).rules h hc.rules, hc.overrides⟩

theorem isDistinct_effective {c : Config} (hc : c.rules.IsDistinct) (path : Bytes) :
    (c.effective path).IsDistinct := by
  unfold effective
  generalize c.rules = rules at hc ⊢
  induction c.overrides generalizing rules with
  | nil => exact hc
  | cons o os ih =>
    rw [List.foldl_cons]
    apply ih
    split_ifs
    · exact hc.overlay o.rules
    · exact hc

theorem SameRules.effective {c c' : Config} (h : c.SameRules c') (hc : c.IsDistinct)
    (path : Bytes) : (c.effective path).Perm (c'.effective path) := by
  unfold Config.effective
  obtain ⟨hrules, hoverrides⟩ := h
  obtain ⟨hdistinct, hdistincts⟩ := hc
  generalize c.rules = rules, c'.rules = rules', c.overrides = os, c'.overrides = os'
    at hrules hoverrides hdistinct hdistincts ⊢
  -- Along the overrides of both, the tables so far stay the same up to their order.
  induction hoverrides generalizing rules rules' with
  | nil => exact hrules
  | cons ho _ ih =>
    rw [List.forall_mem_cons] at hdistincts
    rw [List.foldl_cons, List.foldl_cons, ho.1]
    split_ifs
    · refine ih _ _ (Entries.overlay_perm hdistinct hdistincts.1 hrules ho.2)
        (hdistinct.overlay _) hdistincts.2
    · exact ih _ _ hrules hdistinct hdistincts.2

/-! ### The closed form -/

/-- **The rules for a file, as a closed form.** A rule is told what the last override says that
applies to the file and mentions it, else what the loaded configuration says, else what the defaults
say. Nothing else decides, and in particular not the order in which a table is listed, be it before
the two are merged or after. That the tables are maps holds of every configuration that is loaded
(`Config.isDistinct_of_load`). -/
theorem effective_merge_told (hbase : base.rules.IsDistinct)
    (hloaded : ∀ c ∈ loaded, c.IsDistinct) (path : Bytes) :
    ((base.merge loaded).effective path).IsDistinct ∧
      (∀ name answer, ((base.merge loaded).effective path).get? name = answer ↔
        Tells base loaded path name answer) ∧
      ∀ (base' : Config) (loaded' : Option Config) (merged' : Config),
        base.rules.Perm base'.rules → Option.Rel SameRules loaded loaded' →
          (base'.merge loaded').SameRules merged' →
            ((base.merge loaded).effective path).Perm (merged'.effective path) := by
  have hmerged := merge_isDistinct hbase hloaded
  refine ⟨isDistinct_effective hmerged.rules path,
    fun _ _ => get?_effective_merge_eq_iff hbase hloaded, ?_⟩
  intro base' loaded' merged' hperm hrel hsame
  exact ((merge_sameRules hbase hloaded hperm hrel).trans hsame).effective hmerged path

/-- Defaults that turn three rules on. -/
def allOn : Config where
  rules := [(versionRuleName, { enabled := true }), (TrailingNewline.name, { enabled := true }),
    (TrailingWhitespace.name, { enabled := true })]

/-- A configuration that asks for a version, turns that off for old scripts and on again for one of
them. The last override has no pattern that compiles. -/
def reenabling : Config where
  rules := [(versionRuleName,
    { enabled := true, settings := some [(bytes "version", .text (bytes "2.1"))] })]
  overrides :=
    [{ files := [bytes "old/*", bytes "["],
       rules := [(TrailingNewline.name, {}), (versionRuleName, {})] },
     { files := [bytes "new/*", bytes "old/kept.ahk"],
       rules := [(versionRuleName, { enabled := true })] },
     { files := [bytes "["], rules := [(versionRuleName, {})] }]

theorem effective_merge_told_reenabled :
    let path := bytes "old/kept.ahk"
    allOn.rules.IsDistinct ∧ (∀ c ∈ some reenabling, c.IsDistinct) ∧
      ((allOn.merge (some reenabling)).effective path).get? versionRuleName
        = some { enabled := true } ∧
      ((allOn.merge (some reenabling)).effective path).get? TrailingNewline.name = some {} ∧
      ((allOn.merge (some reenabling)).effective path).get? TrailingWhitespace.name
        = some { enabled := true } ∧
      ((allOn.merge (some reenabling)).effective path).Perm
        ((merge { rules := allOn.rules.reverse } (some reenabling)).effective path) := by
  intro path
  have hbase : allOn.rules.IsDistinct := by decide +kernel
  have hloaded : ∀ c ∈ some reenabling, c.IsDistinct := by
    rintro c ⟨⟩
    exact ⟨by decide +kernel, by decide +kernel⟩
  obtain ⟨-, htold, horder⟩ := effective_merge_told hbase hloaded path
  refine ⟨hbase, hloaded, (htold _ _).mpr ?_, (htold _ _).mpr ?_, (htold _ _).mpr ?_, ?_⟩
  · exact .override rfl (show reenabling.overrides = [_] ++ _ :: [_] from rfl) (by decide +kernel)
      (List.mem_singleton_self _) (by decide +kernel)
  · exact .override rfl (show reenabling.overrides = [] ++ _ :: [_, _] from rfl)
      (by decide +kernel) (List.mem_cons_self ..) (by decide +kernel)
  · refine .default ?_ (by simp [allOn])
    rintro c ⟨⟩
    exact ⟨by decide +kernel, by decide +kernel⟩
  · exact horder _ _ _ (List.reverse_perm _).symm (.some (.refl _)) (.refl _)

end Config

end ScriptLint
