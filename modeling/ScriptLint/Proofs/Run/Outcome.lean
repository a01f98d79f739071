import ScriptLint.Run.Runner
import Mathlib.Data.List.Basic

/-!
# What the outcome of a run is made of

An outcome is put together from the outcomes of files, and that of a file from the outcomes of
rules. Here the parts of it are told as plain lists: the findings and the errors of a rule on a
script (`Runner.ruleFindings`, `Runner.ruleErrors`) and of a file (`Runner.fileFindings`,
`Runner.fileErrors`) say what each of them contributes on its own. An outcome is given by such lists
(`Outcome.Gives`): it stops at the first error that stops the program, and if there is none, its
result consists of them. What is passed on are the findings, or the first of them where the program
stops (`Outcome.PassesOn`). Both carry over from parts to what is put together from them, so that
`checkScript`, `checkPath` and `runInOrder` give the concatenations.
-/

namespace ScriptLint

/-! ### Results in order -/

namespace RunResult

theorem append_assoc (a b c : RunResult) : a ++ b ++ c = a ++ (b ++ c) := by
  show append (append a b) c = append a (append b c)
  simp only [append, List.append_assoc]

@[simp]
theorem empty_append (a : RunResult) : ({} : RunResult) ++ a = a := rfl

@[simp]
theorem append_empty (a : RunResult) : a ++ ({} : RunResult) = a := by
  show append a {} = a
  simp only [append, List.append_nil]

end RunResult

namespace Outcome

/-! ### Outcomes in order -/

/-- Behind a result comes what is next. -/
theorem append_of_ok {a : Outcome} {first : RunResult} (h : a.result = .ok first) (b : Outcome) :
    a ++ b = { emitted := a.emitted ++ b.emitted, result := b.result.map (first ++ ·) } := by
  show append a b = _
  rw [append, h]

/-- Behind an outcome that stops the program comes nothing. -/
theorem append_of_error {a : Outcome} {message : Bytes} (h : a.result = .error message)
    (b : Outcome) : a ++ b = a := by
  show append a b = a
  rw [append, h]

@[simp]
theorem append_empty (a : Outcome) : a ++ {} = a := by
  obtain ⟨emitted, result⟩ := a
  cases result with
  | error message => rfl
  | ok r =>
    rw [append_of_ok rfl, List.append_nil]
    exact congrArg (fun r => Outcome.mk emitted (.ok r)) (RunResult.append_empty r)

theorem append_assoc (a b c : Outcome) : a ++ b ++ c = a ++ (b ++ c) := by
  cases ha : a.result with
  | error message => rw [append_of_error ha, append_of_error ha, append_of_error ha]
  | ok first =>
    rw [append_of_ok ha, append_of_ok ha]
    cases hb : b.result with
    | error message => rw [append_of_error rfl, append_of_error hb, hb]
    | ok second =>
      rw [append_of_ok rfl, append_of_ok hb, List.append_assoc]
      cases c.result with
      | error message => rfl
      | ok third => exact congrArg (fun r => Outcome.mk _ (.ok r)) (RunResult.append_assoc ..)

/-- Two outcomes in order have a result if both of them have one. -/
theorem result_append_eq_ok_iff {a b : Outcome} {r : RunResult} :
    (a ++ b).result = .ok r ↔
      ∃ first second, a.result = .ok first ∧ b.result = .ok second ∧ first ++ second = r := by
  cases ha : a.result with
  | error message => simp [append_of_error ha, ha]
  | ok first =>
    rw [append_of_ok ha]
    cases b.result <;> simp [Except.map]

@[simp]
theorem crash?_append (a b : Outcome) : (a ++ b).crash? = a.crash?.or b.crash? := by
  cases ha : a.result with
  | error message => rw [append_of_error ha, crash?, ha, Option.some_or]
  | ok first =>
    rw [append_of_ok ha]
    simp only [crash?, ha, Option.none_or]
    cases b.result <;> rfl

theorem crash?_eq_none_iff (o : Outcome) : o.crash? = none ↔ ∃ r, o.result = .ok r := by
  unfold crash?
  cases o.result <;> simp

/-- Without a result there are no findings and no errors. -/
theorem eq_nil_of_crash? {o : Outcome} (h : o.crash? ≠ none) :
    o.diagnostics = [] ∧ o.errors = [] := by
  unfold crash? at h
  unfold diagnostics errors
  cases hresult : o.result with
  | ok r => exact absurd (by rw [hresult]) h
  | error message => exact ⟨rfl, rfl⟩

/-- A line for the log shows in the log only. -/
theorem logged_append (line : Bytes) (o : Outcome) :
    (logged line ++ o).crash? = o.crash? ∧ (logged line ++ o).diagnostics = o.diagnostics ∧
      (logged line ++ o).errors = o.errors ∧ (logged line ++ o).emitted = o.emitted := by
  rw [append_of_ok rfl]
  unfold crash? diagnostics errors
  cases o.result <;> exact ⟨rfl, rfl, rfl, rfl⟩

/-! ### Outcomes that lists give -/

/-- Whether some findings and errors give an outcome: it stops with the message of the first error
that stops the program, and if there is none, its result consists of them. -/
structure Gives (o : Outcome) (ds : List Diagnostic) (es : List RunError) : Prop where
  crash? : o.crash? = (es.find? (·.isFatal)).map (·.message)
  result : ∀ r, o.result = .ok r → r.diagnostics = ds ∧ r.errors = es

namespace Gives

variable {o a b : Outcome} {ds ds' : List Diagnostic} {es es' : List RunError}

/-- There is a result unless one of the errors stops the program. -/
theorem crash?_eq_none_iff (h : o.Gives ds es) : o.crash? = none ↔ ∀ e ∈ es, e.isFatal = false := by
  rw [h.crash?, Option.map_eq_none_iff, List.find?_eq_none]
  simp only [Bool.not_eq_true]

theorem diagnostics (h : o.Gives ds es) (hnone : o.crash? = none) : o.diagnostics = ds := by
  obtain ⟨r, hr⟩ := (Outcome.crash?_eq_none_iff o).mp hnone
  rw [Outcome.diagnostics, hr]
  exact (h.result r hr).1

theorem errors (h : o.Gives ds es) (hnone : o.crash? = none) : o.errors = es := by
  obtain ⟨r, hr⟩ := (Outcome.crash?_eq_none_iff o).mp hnone
  rw [Outcome.errors, hr]
  exact (h.result r hr).2

/-- Outcomes that the same findings and errors give differ in what was passed on and logged only. -/
theorem unique (h : o.Gives ds es) (h' : a.Gives ds es) :
    a.crash? = o.crash? ∧ a.diagnostics = o.diagnostics ∧ a.errors = o.errors := by
  have hcrash : a.crash? = o.crash? := h'.crash?.trans h.crash?.symm
  refine ⟨hcrash, ?_⟩
  by_cases hnone : o.crash? = none
  · have hnone' := hcrash.trans hnone
    exact ⟨(h'.diagnostics hnone').trans (h.diagnostics hnone).symm,
      (h'.errors hnone').trans (h.errors hnone).symm⟩
  · have hstops : a.crash? ≠ none := hcrash ▸ hnone
    rw [(eq_nil_of_crash? hnone).1, (eq_nil_of_crash? hnone).2, (eq_nil_of_crash? hstops).1,
      (eq_nil_of_crash? hstops).2]
    exact ⟨rfl, rfl⟩

theorem append (ha : a.Gives ds es) (hb : b.Gives ds' es') :
    (a ++ b).Gives (ds ++ ds') (es ++ es') where
  crash? := by
    rw [crash?_append, ha.crash?, hb.crash?, List.find?_append, Option.map_or]
  result := by
    intro r hr
    obtain ⟨first, second, hfirst, hsecond, rfl⟩ := result_append_eq_ok_iff.mp hr
    obtain ⟨rfl, rfl⟩ := ha.result first hfirst
    obtain ⟨rfl, rfl⟩ := hb.result second hsecond
    exact ⟨rfl, rfl⟩

end Gives

theorem gives_of_result {o : Outcome} {ds : List Diagnostic} {log : List Bytes}
    (h : o.result = .ok { diagnostics := ds, log }) : o.Gives ds [] where
  crash? := by rw [crash?, h, List.find?_nil, Option.map_none]
  result := by
    intro r hr
    obtain rfl := Except.ok.inj (h.symm.trans hr)
    exact ⟨rfl, rfl⟩

theorem gives_empty : ({} : Outcome).Gives [] [] := gives_of_result rfl

theorem gives_logged (line : Bytes) : (logged line).Gives [] [] := gives_of_result rfl

theorem gives_failed (e : RunError) : (failed e).Gives [] [e] := by
  cases he : e.isFatal with
  | true => exact ⟨by simp [failed, crash?, he], by simp [failed, he]⟩
  | false => exact ⟨by simp [failed, crash?, he], by simp [failed, RunResult.failed, he]⟩

/-- Outcomes in order are given by what gives each of them. -/
theorem gives_join {α : Type} {as : List α} {f : α → Outcome} {ds : α → List Diagnostic}
    {es : α → List RunError} (h : ∀ a ∈ as, (f a).Gives (ds a) (es a)) :
    (join (as.map f)).Gives (as.flatMap ds) (as.flatMap es) := by
  induction as with
  | nil => exact gives_empty
  | cons a as ih =>
    rw [List.forall_mem_cons] at h
    exact h.1.append (ih h.2)

/-! ### What is passed on -/

/-- Whether an outcome passes on some findings: all of them, or only the first ones where the
program stops. -/
structure PassesOn (o : Outcome) (ds : List Diagnostic) : Prop where
  first : o.emitted <+: ds
  all : o.crash? = none → o.emitted = ds

theorem PassesOn.append {a b : Outcome} {ds ds' : List Diagnostic} (ha : a.PassesOn ds)
    (hb : b.PassesOn ds') : (a ++ b).PassesOn (ds ++ ds') := by
  cases hresult : a.result with
  | error message =>
    rw [append_of_error hresult]
    refine ⟨ha.first.trans (List.prefix_append ..), fun h => ?_⟩
    rw [crash?, hresult] at h
    cases h
  | ok first =>
    have hnone : a.crash? = none := by rw [crash?, hresult]
    have hall : (a ++ b).emitted = ds ++ b.emitted := by
      rw [append_of_ok hresult, ha.all hnone]
    refine ⟨?_, fun h => ?_⟩
    · rw [hall]
      exact (List.prefix_append_right_inj ds).mpr hb.first
    · rw [crash?_append, hnone, Option.none_or] at h
      rw [hall, hb.all h]

theorem passesOn_join {α : Type} {as : List α} {f : α → Outcome} {ds : α → List Diagnostic}
    (h : ∀ a ∈ as, (f a).PassesOn (ds a)) : (join (as.map f)).PassesOn (as.flatMap ds) := by
  induction as with
  | nil => exact ⟨List.prefix_rfl, fun _ => rfl⟩
  | cons a as ih =>
    rw [List.forall_mem_cons] at h
    exact h.1.append (ih h.2)

/-- Nothing is passed on by what has nothing to pass on. -/
theorem passesOn_nil {o : Outcome} (h : o.emitted = []) : o.PassesOn [] :=
  ⟨h ▸ List.prefix_rfl, fun _ => h⟩

theorem Gives.withAllEmitted {o : Outcome} {ds : List Diagnostic} {es : List RunError}
    (h : o.Gives ds es) : o.withAllEmitted.Gives ds es := ⟨h.crash?, h.result⟩

/-- What is passed on at the end are all findings, or none where the program stops. -/
theorem Gives.passesOn_withAllEmitted {o : Outcome} {ds : List Diagnostic} {es : List RunError}
    (h : o.Gives ds es) : o.withAllEmitted.PassesOn ds := by
  refine ⟨?_, h.diagnostics⟩
  show o.diagnostics <+: ds
  by_cases hnone : o.crash? = none
  · exact h.diagnostics hnone ▸ List.prefix_rfl
  · rw [(eq_nil_of_crash? hnone).1]
    exact List.nil_prefix

end Outcome

namespace Runner

variable (r : Runner) (w : World)

/-! ### What a rule and a file contribute -/

/-- What a rule is told for a script: its effective entry, or that of a rule without one. -/
def entry (s : Script) (rule : Rule) : RuleEntry :=
  ((r.config.effective s.path).get? rule.name).getD RuleEntry.implicit

/-- What a rule finds in a script under its entry. One that is off or cannot be configured finds
nothing. -/
def ruleFindings (s : Script) (rule : Rule) : List Diagnostic :=
  if (r.entry s rule).enabled then
    match rule.configure (r.entry s rule) with
    | .ok configured => configured.check s
    | .error _ => []
  else []

/-- The errors of a rule on a script: one if it is on and cannot be configured. -/
def ruleErrors (s : Script) (rule : Rule) : List RunError :=
  if (r.entry s rule).enabled then
    match rule.configure (r.entry s rule) with
    | .ok _ => []
    | .error e => [.settings e]
  else []

/-- What is found in a file: the findings of the rules in order. -/
def fileFindings (path : Bytes) : List Diagnostic :=
  match readScript w r.root path with
  | .ok s => r.rules.flatMap (r.ruleFindings s)
  | .error _ => []

/-- The errors of a file: one if it cannot be read, and otherwise those of the rules in order. -/
def fileErrors (path : Bytes) : List RunError :=
  match readScript w r.root path with
  | .ok s => r.rules.flatMap (r.ruleErrors s)
  | .error e => [.read e]

/-! ### Rules on a script -/

/-- A rule on a script gives its findings and errors. -/
theorem gives_checkRule (streamed : Bool) (s : Script) (rule : Rule) :
    (checkRule streamed s rule (r.entry s rule)).Gives (r.ruleFindings s rule)
      (r.ruleErrors s rule) := by
  unfold checkRule ruleFindings ruleErrors
  by_cases hon : (r.entry s rule).enabled = true
  · rw [if_pos hon, if_pos hon, if_pos hon]
    cases rule.configure (r.entry s rule) with
    | ok configured => exact Outcome.gives_of_result rfl
    | error e => exact Outcome.gives_failed (.settings e)
  · rw [if_neg hon, if_neg hon, if_neg hon]
    exact Outcome.gives_empty

/-- A streamed rule passes on what it finds. -/
theorem passesOn_checkRule (s : Script) (rule : Rule) :
    (checkRule true s rule (r.entry s rule)).PassesOn (r.ruleFindings s rule) := by
  unfold checkRule ruleFindings
  by_cases hon : (r.entry s rule).enabled = true
  · rw [if_pos hon, if_pos hon]
    cases rule.configure (r.entry s rule) with
    | ok configured => exact ⟨List.prefix_rfl, fun _ => rfl⟩
    | error e => exact Outcome.passesOn_nil rfl
  · rw [if_neg hon, if_neg hon]
    exact Outcome.passesOn_nil rfl

/-! ### Scripts -/

theorem gives_checkRules (streamed : Bool) (s : Script) :
    (checkRules streamed s r.rules (r.config.effective s.path)).Gives
      (r.rules.flatMap (r.ruleFindings s)) (r.rules.flatMap (r.ruleErrors s)) :=
  Outcome.gives_join fun rule _ => r.gives_checkRule streamed s rule

theorem gives_checkScript (streamed : Bool) (s : Script) :
    (r.checkScript streamed s).Gives (r.rules.flatMap (r.ruleFindings s))
      (r.rules.flatMap (r.ruleErrors s)) :=
  (Outcome.gives_logged _).append (r.gives_checkRules streamed s)

theorem passesOn_checkScript (s : Script) :
    (r.checkScript true s).PassesOn (r.rules.flatMap (r.ruleFindings s)) :=
  (Outcome.passesOn_nil rfl).append
    (Outcome.passesOn_join fun rule _ => r.passesOn_checkRule s rule)

/-! ### Files -/

theorem gives_checkPath (streamed : Bool) (path : Bytes) :
    (r.checkPath w streamed path).Gives (r.fileFindings w path) (r.fileErrors w path) := by
  unfold checkPath fileFindings fileErrors
  cases readScript w r.root path with
  | ok s => exact r.gives_checkScript streamed s
  | error e => exact Outcome.gives_failed (.read e)

theorem passesOn_checkPath (path : Bytes) :
    (r.checkPath w true path).PassesOn (r.fileFindings w path) := by
  unfold checkPath fileFindings
  cases readScript w r.root path with
  | ok s => exact r.passesOn_checkScript s
  | error e => exact Outcome.passesOn_nil rfl

/-! ### Files one by one -/

theorem runInOrder_none (paths : List Bytes) :
    r.runInOrder w none paths = .join (paths.map (r.checkPath w true)) := by
  induction paths with
  | nil => rfl
  | cons path paths ih => exact congrArg (r.checkPath w true path ++ ·) ih

/-! ### Files that are all checked -/

/-- What comes of files that are all checked, by several workers or one by one. -/
def checkAll (parallel : Bool) (paths : List Bytes) : Outcome :=
  if parallel then (Outcome.join (paths.map (r.checkPath w false))).withAllEmitted
  else r.runInOrder w none paths

theorem gives_checkAll (parallel : Bool) (paths : List Bytes) :
    (r.checkAll w parallel paths).Gives (paths.flatMap (r.fileFindings w))
      (paths.flatMap (r.fileErrors w)) := by
  unfold checkAll
  split_ifs
  · exact (Outcome.gives_join fun path _ => r.gives_checkPath w false path).withAllEmitted
  · rw [runInOrder_none]
    exact Outcome.gives_join fun path _ => r.gives_checkPath w true path

theorem passesOn_checkAll (parallel : Bool) (paths : List Bytes) :
    (r.checkAll w parallel paths).PassesOn (paths.flatMap (r.fileFindings w)) := by
  unfold checkAll
  split_ifs
  · exact (Outcome.gives_join fun path _ => r.gives_checkPath w false path).passesOn_withAllEmitted
  · rw [runInOrder_none]
    exact Outcome.passesOn_join fun path _ => r.passesOn_checkPath w path

/-! ### Where a run stops -/

/-- Whether checking a script stops the program: the settings of some rule that is on do. -/
def StopsOn (s : Script) : Prop :=
  ∃ rule ∈ r.rules, (r.entry s rule).enabled = true ∧
    ∃ e, rule.configure (r.entry s rule) = .error e ∧ e.isFatal = true

theorem mem_ruleErrors_iff {s : Script} {rule : Rule} {e : RunError} :
    e ∈ r.ruleErrors s rule ↔
      (r.entry s rule).enabled = true ∧
        ∃ reason, rule.configure (r.entry s rule) = .error reason ∧ e = .settings reason := by
  unfold ruleErrors
  by_cases hon : (r.entry s rule).enabled = true
  · rw [if_pos hon]
    cases rule.configure (r.entry s rule) with
    | ok configured => simp
    | error reason => simp [hon]
  · rw [if_neg hon]
    simp [hon]

/-- The errors of the rules on a script stop the program exactly if the script does. -/
theorem exists_fatal_ruleErrors_iff (s : Script) :
    (∃ e ∈ r.rules.flatMap (r.ruleErrors s), e.isFatal = true) ↔ r.StopsOn s := by
  simp only [List.mem_flatMap, StopsOn]
  constructor
  · rintro ⟨e, ⟨rule, hrule, he⟩, hfatal⟩
    obtain ⟨hon, reason, hreason, rfl⟩ := r.mem_ruleErrors_iff.mp he
    exact ⟨rule, hrule, hon, reason, hreason, hfatal⟩
  · rintro ⟨rule, hrule, hon, reason, hreason, hfatal⟩
    exact ⟨.settings reason, ⟨rule, hrule, r.mem_ruleErrors_iff.mpr ⟨hon, reason, hreason, rfl⟩⟩,
      hfatal⟩

/-- The errors of a file stop the program exactly if its script does. -/
theorem exists_fatal_fileErrors_iff (path : Bytes) :
    (∃ e ∈ r.fileErrors w path, e.isFatal = true) ↔
      ∃ s, readScript w r.root path = .ok s ∧ r.StopsOn s := by
  unfold fileErrors
  cases readScript w r.root path with
  | error e => simp [RunError.isFatal]
  | ok s =>
    simp only [Except.ok.injEq, exists_eq_left']
    exact r.exists_fatal_ruleErrors_iff s

/-- The errors of some files stop the program unless none of their scripts does. -/
theorem forall_isFatal_fileErrors_iff (paths : List Bytes) :
    (∀ e ∈ paths.flatMap (r.fileErrors w), e.isFatal = false) ↔
      ∀ path ∈ paths, ∀ s, readScript w r.root path = .ok s → ¬ r.StopsOn s := by
  constructor
  · intro h path hpath s hs hstops
    obtain ⟨e, he, hfatal⟩ := (r.exists_fatal_fileErrors_iff w path).mpr ⟨s, hs, hstops⟩
    rw [h e (List.mem_flatMap.mpr ⟨path, hpath, he⟩)] at hfatal
    exact Bool.false_ne_true hfatal
  · intro h e he
    obtain ⟨path, hpath, he⟩ := List.mem_flatMap.mp he
    by_contra hfatal
    rw [Bool.not_eq_false] at hfatal
    obtain ⟨s, hs, hstops⟩ := (r.exists_fatal_fileErrors_iff w path).mp ⟨e, he, hfatal⟩
    exact h path hpath s hs hstops

end Runner

end ScriptLint
