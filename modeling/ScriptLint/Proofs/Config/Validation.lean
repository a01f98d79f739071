import ScriptLint.Proofs.Config.Effective
import ScriptLint.Proofs.Discovery
import ScriptLint.Proofs.Except
import ScriptLint.Proofs.Rule.Registry
import ScriptLint.Proofs.Text.Bytes

/-!
# What the check of a configuration promises

A configuration passes its check exactly if every rule it mentions is registered, every override
names files by patterns that compile, and the number of workers is not negative
(`Config.validate_eq_ok_iff`). What is told about one that does not pass is the same in whatever
order its tables are listed (`Config.validate_congr`), since the unknown names are sorted.

The rules for a file are then found without passing over a pattern. For the search for scripts the
check promises nothing: it does not look at the ignore patterns, so the search is refused for the
first of them that does not compile (`Discovery.discover_eq_badIgnore_iff`).
-/

namespace ScriptLint

/-- Whether a pattern of an override, or an ignore pattern, compiles. -/
def Glob.Compiles (pattern : Bytes) : Prop := ∃ m, Glob.compile pattern = .ok m

theorem Glob.not_compiles_iff {pattern : Bytes} :
    ¬ Glob.Compiles pattern ↔ ∃ reason, Glob.compile pattern = .error reason := by
  rw [Glob.Compiles]
  cases Glob.compile pattern with
  | ok m => simp
  | error reason => simp

/-! ### What is checked -/

/-- Whether nothing is wrong with an override: it names files, by patterns that compile, and the
rules that it mentions are registered. -/
structure Override.IsValid (g : Registry) (o : Override) : Prop where
  files : o.files ≠ []
  patterns : ∀ p ∈ o.files, Glob.Compiles p
  registered : ∀ name ∈ o.rules.map (·.1), name ∈ g.rules.map (·.name)

namespace Config

variable {g : Registry} {c c' : Config}

/-- Whether nothing is wrong with a configuration that its check looks for. -/
structure IsValid (g : Registry) (c : Config) : Prop where
  registered : ∀ name ∈ c.rules.map (·.1), name ∈ g.rules.map (·.name)
  overrides : ∀ o ∈ c.overrides, o.IsValid g
  jobs : 0 ≤ c.jobs

theorem checkOverride_eq_ok_iff {index : Nat} {o : Override} :
    checkOverride index o = .ok () ↔ o.files ≠ [] ∧ ∀ p ∈ o.files, Glob.Compiles p := by
  unfold checkOverride
  cases o.files with
  | nil => simp [bind, Except.bind, throw, throwThe, MonadExceptOf.throw]
  | cons p ps =>
    rw [List.isEmpty_cons, if_neg Bool.false_ne_true, and_iff_right (List.cons_ne_nil p ps)]
    refine forM_eq_ok_iff.trans (forall₂_congr fun q _ => ?_)
    rw [Glob.Compiles]
    cases Glob.compile q with
    | ok m => simp [pure, Except.pure]
    | error reason => simp [throw, throwThe, MonadExceptOf.throw]

theorem unknownRules_eq_nil_iff :
    c.unknownRules g = [] ↔ (∀ name ∈ c.rules.map (·.1), name ∈ g.rules.map (·.name)) ∧
      ∀ o ∈ c.overrides, ∀ name ∈ o.rules.map (·.1), name ∈ g.rules.map (·.name) := by
  have hknown (name : Bytes) :
      ¬ (g.find? name).isNone = true ↔ name ∈ g.rules.map (·.name) := by
    rw [← Registry.isSome_find?_iff, Bool.not_eq_true, Option.isNone_eq_false_iff]
  rw [unknownRules, sortBytes, ← List.length_eq_zero_iff, List.length_mergeSort,
    List.length_eq_zero_iff, List.filter_eq_nil_iff, List.forall_mem_append]
  simp only [hknown, List.forall_mem_flatMap]

/-- The checks in their order: the overrides, the rules that are mentioned, the workers. -/
theorem validate_eq (g : Registry) (c : Config) :
    c.validate g =
      ((c.overrides.zipIdx.forM fun p => checkOverride p.2 p.1) >>= fun _ =>
        if c.unknownRules g ≠ [] then .error (.unknownRules (c.unknownRules g))
        else if c.jobs < 0 then .error (.negativeJobs c.jobs)
        else .ok ()) := by
  unfold validate
  refine congrArg _ (funext fun _ => ?_)
  dsimp only
  by_cases hunknown : c.unknownRules g ≠ []
  · rw [if_pos hunknown, if_pos hunknown]
    rfl
  · rw [if_neg hunknown, if_neg hunknown]
    rfl

/-- **A configuration passes exactly if nothing is wrong with it** that is looked for. -/
theorem validate_eq_ok_iff : c.validate g = .ok () ↔ c.IsValid g := by
  have hoverrides : (c.overrides.zipIdx.forM fun p => checkOverride p.2 p.1) = .ok () ↔
      ∀ o ∈ c.overrides, o.files ≠ [] ∧ ∀ p ∈ o.files, Glob.Compiles p := by
    simp only [forM_eq_ok_iff, checkOverride_eq_ok_iff]
    -- The positions of the overrides are for the messages.
    conv_rhs => rw [← List.zipIdx_map_fst 0 c.overrides]
    rw [List.forall_mem_map]
  have hrest : (if c.unknownRules g ≠ [] then .error (.unknownRules (c.unknownRules g))
        else if c.jobs < 0 then .error (.negativeJobs c.jobs) else .ok ())
      = (.ok () : Except Problem Unit) ↔ c.unknownRules g = [] ∧ 0 ≤ c.jobs := by
    split_ifs with hunknown hjobs
    · exact iff_of_false (fun h => nomatch h) fun h => hunknown h.1
    · exact iff_of_false (fun h => nomatch h) fun h => absurd h.2 (Int.not_le.mpr hjobs)
    · exact iff_of_true rfl ⟨not_not.mp hunknown, Int.not_lt.mp hjobs⟩
  rw [validate_eq, bind_eq_ok_iff]
  simp only [hoverrides, hrest, exists_and_left, exists_const, unknownRules_eq_nil_iff]
  constructor
  · rintro ⟨hfiles, ⟨hrules, hmentioned⟩, hjobs⟩
    exact ⟨hrules, fun o ho => ⟨(hfiles o ho).1, (hfiles o ho).2, hmentioned o ho⟩, hjobs⟩
  · rintro ⟨hrules, hvalid, hjobs⟩
    exact ⟨fun o ho => ⟨(hvalid o ho).files, (hvalid o ho).patterns⟩,
      ⟨hrules, fun o ho => (hvalid o ho).registered⟩, hjobs⟩

/-! ### What does not matter -/

theorem SameRules.unknownRules_eq (h : c.SameRules c') (g : Registry) :
    c'.unknownRules g = c.unknownRules g := by
  have hoverrides : (c.overrides.flatMap fun o => o.rules.map (·.1)).Perm
      (c'.overrides.flatMap fun o => o.rules.map (·.1)) := by
    obtain ⟨-, hs⟩ := h
    generalize c.overrides = os, c'.overrides = os' at hs ⊢
    induction hs with
    | nil => exact .nil
    | cons ho _ ih =>
      rw [List.flatMap_cons, List.flatMap_cons]
      exact (ho.2.map _).append ih
  rw [unknownRules, unknownRules]
  -- The names come in another order, and sorting them undoes this.
  exact (sortBytes_eq_of_perm (((h.rules.map _).append hoverrides).filter _)).symm

/-- **What is told about a configuration does not depend on how its tables are listed**, and neither
on anything that is not checked. -/
theorem validate_congr (h : c.SameRules c') (hjobs : c'.jobs = c.jobs) (g : Registry) :
    c'.validate g = c.validate g := by
  have hfiles : c'.overrides.map (·.files) = c.overrides.map (·.files) := by
    obtain ⟨-, hs⟩ := h
    generalize c.overrides = os, c'.overrides = os' at hs ⊢
    induction hs with
    | nil => rfl
    | cons ho _ ih => rw [List.map_cons, List.map_cons, ho.1, ih]
  have hcheck (os : List Override) : (os.zipIdx.forM fun p => checkOverride p.2 p.1)
      = (os.map (·.files)).zipIdx.forM fun p => checkOverride p.2 { files := p.1 } := by
    rw [List.zipIdx_map, forM_map]
    rfl
  rw [validate_eq, validate_eq, hcheck, hcheck, hfiles, h.unknownRules_eq g, hjobs]

end Config

/-! ### Ignore patterns -/

namespace Discovery

/-- Ignore patterns are refused for the first one that does not compile. -/
theorem compileIgnored_eq_error_iff {ignored : List Bytes} {e : Error} :
    compileIgnored ignored = .error e ↔ ∃ before p after reason, ignored = before ++ p :: after ∧
      (∀ q ∈ before, Glob.Compiles q) ∧ Glob.compile p = .error reason ∧
      e = .badIgnore p reason := by
  have hcompile : compileIgnored ignored
      = ignored.mapM fun p => (Glob.compile p).mapError (.badIgnore p) := by
    unfold compileIgnored
    refine congrArg (List.mapM · ignored) (funext fun p => ?_)
    cases Glob.compile p with
    | ok m => rfl
    | error reason => rfl
  simp only [hcompile, mapM_eq_error_iff, mapError_eq_ok_iff, mapError_eq_error_iff,
    ← exists_and_left, eq_comm (a := e)]
  rfl

/-- **A search is refused for the first ignore pattern that does not compile**, unless it is refused
for an include pattern before. -/
theorem discover_eq_badIgnore_iff {w : World} {base root : Bytes} {patterns : Option (List Bytes)}
    {ignored : List Bytes} {p : Bytes} {reason : Glob.Error} :
    discover w base root patterns ignored = .error (.badIgnore p reason) ↔
      (∀ q ∈ patterns.getD Config.defaultPatterns, Include.isValid q = true) ∧
      ∃ before after, ignored = before ++ p :: after ∧ (∀ q ∈ before, Glob.Compiles q) ∧
        Glob.compile p = .error reason := by
  -- A search that is refused for an include pattern is refused with another error.
  have hinclude : (patterns.getD Config.defaultPatterns).forM
      (fun q => if Include.isValid q then .ok () else .error (.badInclude q))
        ≠ (.error (.badIgnore p reason) : Except Error Unit) := by
    intro h
    obtain ⟨q, -, hq⟩ := exists_of_forM_eq_error h
    split_ifs at hq
    cases hq
  have hvalid (q : Bytes) : (if Include.isValid q then .ok () else .error (.badInclude q))
      = (.ok () : Except Error Unit) ↔ Include.isValid q = true := by
    split_ifs with hq
    · exact iff_of_true rfl hq
    · exact iff_of_false (fun h => nomatch h) hq
  unfold discover
  rw [bind_eq_error_iff, or_iff_right hinclude]
  constructor
  · rintro ⟨⟨⟩, hforM, h⟩
    refine ⟨fun q hq => (hvalid q).mp (forM_eq_ok_iff.mp hforM q hq), ?_⟩
    rcases bind_eq_error_iff.mp h with h | ⟨ms, -, h⟩
    · obtain ⟨before, q, after, reason', hsplit, hbefore, hq, he⟩ :=
        compileIgnored_eq_error_iff.mp h
      cases he
      exact ⟨before, after, hsplit, hbefore, hq⟩
    · dsimp only at h
      generalize w.lookup _ = found at h
      cases found <;> cases h
  · rintro ⟨hincludes, before, after, hsplit, hbefore, hp⟩
    refine ⟨(), forM_eq_ok_iff.mpr fun q hq => (hvalid q).mpr (hincludes q hq), ?_⟩
    refine bind_eq_error_iff.mpr (.inl (compileIgnored_eq_error_iff.mpr ?_))
    exact ⟨before, p, after, reason, hsplit, hbefore, hp, rfl⟩

end Discovery

/-! ### What is promised -/

namespace Config

/-- A pattern that compiles is matched and not passed over. -/
theorem matchesPattern_of_compiles {pattern : Bytes} (h : Glob.Compiles pattern) :
    ∃ m, Glob.compile pattern = .ok m ∧
      ∀ path, matchesPattern path pattern = Glob.accepts m path := by
  obtain ⟨m, hm⟩ := h
  refine ⟨m, hm, fun path => ?_⟩
  rw [matchesPattern, hm]

/-- **The check of a configuration is exact but for the ignore patterns.** A configuration passes
exactly if every rule it mentions is registered, every override names files by patterns that compile
and the number of workers is not negative. What is told about it does not depend on the order in
which its tables are listed. Once it has passed, the rules for a file are found without passing over
a pattern of an override. The ignore patterns are not looked at: whatever they are, the answer is
the same, and the search for scripts is refused for the first of them that does not compile. -/
theorem validate_exact_but_for_ignored (g : Registry) (c : Config) :
    (c.validate g = .ok () ↔ c.IsValid g) ∧
    (∀ c' : Config, c.SameRules c' → c'.jobs = c.jobs → c'.validate g = c.validate g) ∧
    (c.validate g = .ok () → ∀ o ∈ c.overrides, ∀ p ∈ o.files, ∃ m, Glob.compile p = .ok m ∧
      ∀ path, matchesPattern path p = Glob.accepts m path) ∧
    ∀ w base root p reason,
      Discovery.discover w base root (some c.patterns) c.ignored = .error (.badIgnore p reason) ↔
        (∀ q ∈ c.patterns, Include.isValid q = true) ∧
        ∃ before after, c.ignored = before ++ p :: after ∧ (∀ q ∈ before, Glob.Compiles q) ∧
          Glob.compile p = .error reason := by
  refine ⟨validate_eq_ok_iff, fun c' h hjobs => validate_congr h hjobs g, ?_, ?_⟩
  · intro hvalid o ho p hp
    exact matchesPattern_of_compiles (((validate_eq_ok_iff.mp hvalid).overrides o ho).patterns p hp)
  · intro w base root p reason
    exact Discovery.discover_eq_badIgnore_iff

/-- An override that compiles, and an ignore pattern that does not: the configuration passes, also
with its tables in another order, and a search is refused. -/
theorem validate_exact_but_for_ignored_class :
    let off : RuleEntry := {}
    let o : Override :=
      { files := [bytes "old/*"], rules := [(TrailingNewline.name, off), (RequireWarn.name, off)] }
    let c : Config := { ignored := [bytes "vendor/*", bytes "a["], overrides := [o] }
    let c' : Config := { c with overrides := [{ o with rules := o.rules.reverse }] }
    c.validate .standard = .ok () ∧ c'.validate .standard = .ok () ∧
      (∃ m, Glob.compile (bytes "old/*") = .ok m ∧
        ∀ path, matchesPattern path (bytes "old/*") = Glob.accepts m path) ∧
      ∀ w base root, Discovery.discover w base root (some c.patterns) c.ignored
        = .error (.badIgnore (bytes "a[") .unexpectedEnd) := by
  intro off o c c'
  obtain ⟨hexact, horder, hmet, hsearch⟩ := validate_exact_but_for_ignored .standard c
  have hpasses : c.validate .standard = .ok () := by
    refine hexact.mpr ⟨List.forall_mem_nil _, List.forall_mem_singleton.mpr ⟨?_, ?_, ?_⟩, ?_⟩
    · exact List.cons_ne_nil _ _
    · exact List.forall_mem_singleton.mpr ⟨_, rfl⟩
    · decide
    · exact Int.le_refl 0
  have hsame : c.SameRules c' :=
    ⟨.refl _, .cons ⟨rfl, (List.reverse_perm _).symm⟩ .nil⟩
  refine ⟨hpasses, (horder c' hsame rfl).trans hpasses, ?_, ?_⟩
  · exact hmet hpasses o (List.mem_singleton_self o) _ (List.mem_singleton_self _)
  · intro w base root
    refine (hsearch w base root _ _).mpr
      ⟨List.forall_mem_nil _, [bytes "vendor/*"], [], rfl, ?_, ?_⟩
    · exact List.forall_mem_singleton.mpr ⟨_, rfl⟩
    · rfl

/-- **An ignore pattern that does not compile passes the check**, and is found at fault only when
scripts are searched. -/
theorem validate_passes_over_ignored :
    let c : Config := { ignored := [bytes "["] }
    c.validate .standard = .ok () ∧ (∃ p ∈ c.ignored, ¬ Glob.Compiles p) ∧
      ∀ w base root, Discovery.discover w base root (some c.patterns) c.ignored
        = .error (.badIgnore (bytes "[") .unexpectedEnd) := by
  intro c
  have hbad : Glob.compile (bytes "[") = .error .unexpectedEnd := rfl
  have hpasses : c.validate .standard = .ok () :=
    validate_eq_ok_iff.mpr ⟨List.forall_mem_nil _, List.forall_mem_nil _, Int.le_refl 0⟩
  refine ⟨hpasses, ⟨_, List.mem_singleton_self _, Glob.not_compiles_iff.mpr ⟨_, hbad⟩⟩, ?_⟩
  intro w base root
  exact Discovery.discover_eq_badIgnore_iff.mpr
    ⟨List.forall_mem_nil _, [], [], rfl, List.forall_mem_nil _, hbad⟩

end Config

end ScriptLint
