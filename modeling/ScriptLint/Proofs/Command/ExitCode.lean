import ScriptLint.Proofs.Command.Preparation
import ScriptLint.Proofs.Config.Decoding
import ScriptLint.Proofs.Run.Validation

/-!
# The exit code of a check

A check is refused (`Refused`), or it has a plan and runs to its end. The exit code is read off from
what the plan is about: `CheckPlan.scripts` lists the scripts, or why one of them cannot be read,
and the plan fails (`CheckPlan.Fails`) or finds something (`CheckPlan.Finds`) by what is in this
list.

- `runCheck_of_refused`: what a refused check replies, and that it does not depend on any script.
- `gives_outcome`: what comes of a plan, script by script.
- `runCheck_exit_code`: the exit code in all cases.
-/

namespace ScriptLint

/-! ### Writing -/

/-- A sink without a limit accepts everything. -/
theorem Sink.writeAll_unlimited (s : Sink) (hs : s.limit = none) (pieces : List Bytes) :
    (s.writeAll pieces).2 = true := by
  induction pieces generalizing s with
  | nil => rfl
  | cons p ps ih =>
    have haccepts : s.accepts = true := by rw [Sink.accepts, hs]
    rw [Sink.writeAll, Sink.write, if_pos haccepts]
    exact ih _ hs

/-- Into such a sink neither format nor quiet mode changes the exit code. -/
theorem concludeCheck_code (o : CheckOptions) (colours : Bool) (out : Outcome) (s : Sink)
    (hs : s.limit = none) :
    (concludeCheck o colours out s).1
      = exitCode (!out.diagnostics.isEmpty) (!out.errors.isEmpty) := by
  have hall : ∀ (f : ReportFormat) (colour : Bool) (ds : List Diagnostic),
      (f.report colour ds s).2 = true := fun f colour ds => s.writeAll_unlimited hs _
  unfold concludeCheck
  split_ifs
  · rfl
  · split
    · split
      · rfl
      · next h => exact absurd (hall .text _ _) (by rw [h]; exact Bool.false_ne_true)
    · split
      · rfl
      · next h => exact absurd (hall .json _ _) (by rw [h]; exact Bool.false_ne_true)

/-! ### What is checked -/

/-- The script on the standard input. -/
def inputScript : Input → Except RunError Script
  | .broken reason => .error (.input reason)
  | .data content =>
    match decodeScript content with
    | .error e => .error (.inputEncoding e)
    | .ok text => .ok ⟨inputName, text⟩

/-- The scripts that a check is about, each of them or why it cannot be read. -/
def CheckPlan.scripts (plan : CheckPlan) (w : World) (input : Input) :
    List (Except RunError Script) :=
  match plan.files with
  | none => [inputScript input]
  | some files => files.map fun path => (readScript w plan.runner.root path).mapError .read

namespace Runner

variable (r : Runner)

/-- Whether a rule that is on for a script finds something in it. -/
def Reports (s : Script) (rule : Rule) : Prop :=
  (r.entry s rule).enabled = true ∧
    ∃ configured, rule.configure (r.entry s rule) = .ok configured ∧ configured.check s ≠ []

theorem ruleFindings_ne_nil_iff (s : Script) (rule : Rule) :
    r.ruleFindings s rule ≠ [] ↔ r.Reports s rule := by
  unfold ruleFindings Reports
  by_cases hon : (r.entry s rule).enabled = true
  · rw [if_pos hon]
    cases rule.configure (r.entry s rule) with
    | error e => simp
    | ok configured => simp [hon]
  · rw [if_neg hon]
    simp [hon]

/-- The findings in a script, if it can be read. -/
def findings : Except RunError Script → List Diagnostic
  | .ok s => r.rules.flatMap (r.ruleFindings s)
  | .error _ => []

/-- The errors of a script, or the reason why it cannot be read. -/
def failures : Except RunError Script → List RunError
  | .ok s => r.rules.flatMap (r.ruleErrors s)
  | .error e => [e]

end Runner

namespace CheckPlan

variable (plan : CheckPlan) (w : World) (input : Input)

/-- Whether one of the scripts, or else the standard input, cannot be read or decoded. -/
def Fails : Prop := ∃ e, .error e ∈ plan.scripts w input

/-- Whether a selected rule that is on for one of the scripts finds something in it. -/
def Finds : Prop :=
  ∃ s, .ok s ∈ plan.scripts w input ∧ ∃ rule ∈ plan.runner.rules, plan.runner.Reports s rule

theorem findings_readScript (path : Bytes) :
    plan.runner.findings ((readScript w plan.runner.root path).mapError .read)
      = plan.runner.fileFindings w path := by
  unfold Runner.fileFindings
  cases readScript w plan.runner.root path <;> rfl

theorem failures_readScript (path : Bytes) :
    plan.runner.failures ((readScript w plan.runner.root path).mapError .read)
      = plan.runner.fileErrors w path := by
  unfold Runner.fileErrors
  cases readScript w plan.runner.root path <;> rfl

/-- **An outcome is given by what each script gives**, however many workers there are. -/
theorem gives_outcome :
    (plan.outcome w input).Gives ((plan.scripts w input).flatMap plan.runner.findings)
      ((plan.scripts w input).flatMap plan.runner.failures) := by
  unfold outcome scripts
  -- The standard input is a single script, and files are one each.
  cases plan.files with
  | none =>
    rw [List.flatMap_singleton, List.flatMap_singleton]
    cases input with
    | broken reason => exact Outcome.gives_failed (.input reason)
    | data content =>
      unfold checkInput inputScript
      dsimp only
      cases decodeScript content with
      | error e => exact Outcome.gives_failed (.inputEncoding e)
      | ok text => exact plan.runner.gives_checkScript true ⟨inputName, text⟩
  | some files =>
    dsimp only
    simp only [List.flatMap_map, findings_readScript, failures_readScript]
    exact plan.runner.gives_run w files

/-- An outcome passes on what is found in the scripts. -/
theorem passesOn_outcome :
    (plan.outcome w input).PassesOn ((plan.scripts w input).flatMap plan.runner.findings) := by
  unfold outcome scripts
  cases plan.files with
  | none =>
    rw [List.flatMap_singleton]
    cases input with
    | broken reason => exact Outcome.passesOn_nil rfl
    | data content =>
      unfold checkInput inputScript
      dsimp only
      cases decodeScript content with
      | error e => exact Outcome.passesOn_nil rfl
      | ok text => exact plan.runner.passesOn_checkScript ⟨inputName, text⟩
  | some files =>
    dsimp only
    simp only [List.flatMap_map, findings_readScript]
    exact plan.runner.passesOn_run w files

/-- The number of workers does not show. -/
theorem outcome_withJobs (plan : CheckPlan) (jobs : Int) (w : World) (input : Input) :
    ((plan.withJobs jobs).outcome w input).diagnostics = (plan.outcome w input).diagnostics ∧
      ((plan.withJobs jobs).outcome w input).errors = (plan.outcome w input).errors :=
  ((plan.gives_outcome w input).unique ((plan.withJobs jobs).gives_outcome w input)).2

variable {plan} {w} {input}

theorem isFatal_of_error_mem_scripts {e : RunError} (h : .error e ∈ plan.scripts w input) :
    e.isFatal = false := by
  unfold scripts at h
  cases hfiles : plan.files with
  | none =>
    rw [hfiles, List.mem_singleton] at h
    unfold inputScript at h
    split at h
    · obtain rfl := Except.error.inj h
      rfl
    · split at h
      · obtain rfl := Except.error.inj h
        rfl
      · cases h
  | some files =>
    rw [hfiles] at h
    obtain ⟨path, -, hread⟩ := List.mem_map.mp h
    cases hr : readScript w plan.runner.root path with
    | error reason =>
      rw [hr] at hread
      obtain rfl := Except.error.inj hread
      rfl
    | ok s =>
      rw [hr] at hread
      cases hread

/-! ### Plans whose settings have passed -/

section Valid

variable (w) (input) (hvalid : plan.runner.validate = .ok ())
  (hdistinct : ∀ o ∈ plan.runner.config.overrides, o.rules.IsDistinct)

include hvalid hdistinct

/-- What goes wrong with the scripts is that they cannot be read. -/
theorem mem_scripts_of_mem_failures {e : RunError}
    (he : e ∈ (plan.scripts w input).flatMap plan.runner.failures) :
    .error e ∈ plan.scripts w input := by
  obtain ⟨x, hx, he⟩ := List.mem_flatMap.mp he
  cases x with
  | ok s =>
    rw [Runner.failures, Runner.flatMap_ruleErrors_eq_nil hvalid hdistinct s] at he
    exact absurd he List.not_mem_nil
  | error e' =>
    obtain rfl := List.mem_singleton.mp he
    exact hx

/-- Settings that have passed do not stop the program later. -/
theorem crash?_outcome : (plan.outcome w input).crash? = none := by
  rw [(plan.gives_outcome w input).crash?_eq_none_iff]
  intro e he
  exact isFatal_of_error_mem_scripts (mem_scripts_of_mem_failures w input hvalid hdistinct he)

theorem diagnostics_outcome :
    (plan.outcome w input).diagnostics = (plan.scripts w input).flatMap plan.runner.findings :=
  (plan.gives_outcome w input).diagnostics (crash?_outcome w input hvalid hdistinct)

theorem errors_outcome :
    (plan.outcome w input).errors = (plan.scripts w input).flatMap plan.runner.failures :=
  (plan.gives_outcome w input).errors (crash?_outcome w input hvalid hdistinct)

/-- What is found is passed on, all of it and in order. -/
theorem emitted_outcome : (plan.outcome w input).emitted = (plan.outcome w input).diagnostics :=
  ((plan.passesOn_outcome w input).all (crash?_outcome w input hvalid hdistinct)).trans
    (diagnostics_outcome w input hvalid hdistinct).symm

/-- Something goes wrong exactly if a script cannot be read. -/
theorem errors_outcome_ne_nil_iff : (plan.outcome w input).errors ≠ [] ↔ plan.Fails w input := by
  rw [errors_outcome w input hvalid hdistinct, ne_eq, List.flatMap_eq_nil_iff, not_forall₂]
  constructor
  · rintro ⟨x, hx, hfailures⟩
    cases x with
    | error e => exact ⟨e, hx⟩
    | ok s => exact absurd (Runner.flatMap_ruleErrors_eq_nil hvalid hdistinct s) hfailures
  · rintro ⟨e, he⟩
    exact ⟨.error e, he, List.cons_ne_nil e []⟩

/-- Something is found exactly if a rule finds something in a script. -/
theorem diagnostics_outcome_ne_nil_iff :
    (plan.outcome w input).diagnostics ≠ [] ↔ plan.Finds w input := by
  rw [diagnostics_outcome w input hvalid hdistinct, ne_eq, List.flatMap_eq_nil_iff, not_forall₂]
  constructor
  · rintro ⟨x, hx, hfindings⟩
    cases x with
    | error e => exact absurd rfl hfindings
    | ok s =>
      rw [Runner.findings, List.flatMap_eq_nil_iff, not_forall₂] at hfindings
      obtain ⟨rule, hrule, hne⟩ := hfindings
      exact ⟨s, hx, rule, hrule, (plan.runner.ruleFindings_ne_nil_iff s rule).mp hne⟩
  · rintro ⟨s, hs, rule, hrule, hreports⟩
    refine ⟨.ok s, hs, fun hnil => ?_⟩
    rw [Runner.findings, List.flatMap_eq_nil_iff] at hnil
    exact (plan.runner.ruleFindings_ne_nil_iff s rule).mpr hreports (hnil rule hrule)

end Valid

end CheckPlan

/-- The tables of a plan list every rule once. -/
theorem CheckOptions.IsPlan.isDistinct {g : Registry} {w : World} {o : CheckOptions}
    {plan : CheckPlan} (hplan : o.IsPlan g w plan) :
    ∀ override ∈ plan.runner.config.overrides, override.rules.IsDistinct := by
  rcases hplan.config with ⟨-, hc⟩ | ⟨-, loaded, hload, hc⟩
  · rw [hc]
    exact List.forall_mem_nil _
  · rw [hc]
    have hoverrides : ((Config.defaults g).merge (some loaded)).overrides = loaded.overrides := rfl
    rw [hoverrides]
    exact (Config.isDistinct_of_load hload).overrides

/-! ### Refused checks -/

/-- Whether a check is refused before it starts: its flags are not understood, they are misused, or
it cannot be prepared. -/
inductive Refused (g : Registry) (w : World) (arguments : List Bytes) : Prop where
  | flags (h : Flag.parse checkFlags arguments = .error .invalid) : Refused g w arguments
  | misused {p : Parsed} (hp : Flag.parse checkFlags arguments = .ok p) (h : p.Misused) :
    Refused g w arguments
  | unprepared {p : Parsed} (hp : Flag.parse checkFlags arguments = .ok p)
    (h : p.options.Unprepared g w) : Refused g w arguments

section Reply

variable {g : Registry} {w : World} {c : Call} {arguments : List Bytes} {p : Parsed}

/-- **A refused check ends with code two and writes nothing**, and its reply is the same in every
world that differs in the contents of scripts at most, whatever is on the standard input. -/
theorem runCheck_of_refused (h : Refused g w arguments) :
    ∃ stderr crash, ∀ (w' : World) (c' : Call),
      (∀ p, Flag.parse checkFlags arguments = .ok p → SameButScripts w w' p.options) →
      runCheck g w' c' arguments
        = { code := 2, stdout := { limit := c'.outputLimit }, stderr, world := w', crash } := by
  -- Misused arguments are refused before the world is looked at.
  have hmisused : ∀ p, Flag.parse checkFlags arguments = .ok p → p.Misused →
      ∃ stderr, ∀ (w' : World) (c' : Call), runCheck g w' c' arguments
        = { code := 2, stdout := { limit := c'.outputLimit }, stderr, world := w' } := by
    intro p hp hmis
    obtain ⟨r, hr⟩ | ⟨o, ho⟩ := exists_error_or_ok (CheckOptions.ofParsed p)
    · exact ⟨r.text, fun w' c' => by simp only [runCheck, hp, hr]⟩
    · exact absurd hmis (Parsed.not_misused_of_ofParsed ho)
  cases h with
  | flags h => exact ⟨[], none, fun w' c' _ => by simp only [runCheck, h]⟩
  | misused hp h =>
    obtain ⟨stderr, hreply⟩ := hmisused _ hp h
    exact ⟨stderr, none, fun w' c' _ => hreply w' c'⟩
  | @unprepared p hp h =>
    by_cases hmis : p.Misused
    · obtain ⟨stderr, hreply⟩ := hmisused p hp hmis
      exact ⟨stderr, none, fun w' c' _ => hreply w' c'⟩
    · rcases answers_prepareCheck g w p.options with ⟨plan, hplan, -⟩ | ⟨-, r, hanswer⟩
      · exact absurd h hplan.not_unprepared
      · obtain ⟨log, hrun⟩ := hanswer []
        refine ⟨Log.write (some { enabled := p.options.verbose }) log ++ r.text, r.crash?,
          fun w' c' hsame => ?_⟩
        simp only [runCheck, hp, Parsed.ofParsed_of_not_misused hmis,
          prepareCheck_congr (hsame p hp), hrun]

theorem code_of_refused (h : Refused g w arguments) : (runCheck g w c arguments).code = 2 := by
  obtain ⟨stderr, crash, hreply⟩ := runCheck_of_refused h
  rw [hreply w c fun p _ => .refl w p.options]

/-- The exit code of a check whose arguments are not misused. -/
theorem code_runCheck (hout : c.outputLimit = none)
    (hp : Flag.parse checkFlags arguments = .ok p) (hmis : ¬ p.Misused) :
    (runCheck g w c arguments).code =
      match ((prepareCheck g w p.options).run []).1 with
      | .error _ => 2
      | .ok plan => exitCode (!(plan.outcome w c.input).diagnostics.isEmpty)
          (!(plan.outcome w c.input).errors.isEmpty) := by
  simp only [runCheck, hp, Parsed.ofParsed_of_not_misused hmis]
  obtain ⟨prepared, log⟩ := (prepareCheck g w p.options).run []
  cases prepared with
  | error r => rfl
  | ok plan => exact concludeCheck_code _ _ _ _ hout

theorem crash_runCheck_of_isPlan {plan : CheckPlan}
    (hp : Flag.parse checkFlags arguments = .ok p) (hmis : ¬ p.Misused)
    (hanswer : (prepareCheck g w p.options).Answers (.ok plan)) :
    (runCheck g w c arguments).crash = (plan.outcome w c.input).crash? := by
  obtain ⟨log, hrun⟩ := hanswer []
  simp only [runCheck, hp, Parsed.ofParsed_of_not_misused hmis, hrun]

/-- A check that is not refused has a plan. -/
theorem exists_plan_of_not_refused (hhelp : Flag.parse checkFlags arguments ≠ .error .help)
    (h : ¬ Refused g w arguments) :
    ∃ p plan, Flag.parse checkFlags arguments = .ok p ∧ ¬ p.Misused ∧ p.options.IsPlan g w plan ∧
      (prepareCheck g w p.options).Answers (.ok plan) := by
  obtain ⟨stop, hstop⟩ | ⟨p, hp⟩ := exists_error_or_ok (Flag.parse checkFlags arguments)
  · cases stop with
    | help => exact absurd hstop hhelp
    | invalid => exact absurd (.flags hstop) h
  · rcases answers_prepareCheck g w p.options with ⟨plan, hplan, hanswer⟩ | ⟨hrefused, -⟩
    · exact ⟨p, plan, hp, fun hmis => h (.misused hp hmis), hplan, hanswer⟩
    · exact absurd (.unprepared hp hrefused) h

/-- Neither the presentation nor the number of workers changes the exit code. -/
theorem code_runCheck_congr {c' : Call} {arguments' : List Bytes} {p' : Parsed}
    (hout : c.outputLimit = none) (hout' : c'.outputLimit = none) (hinput : c'.input = c.input)
    (hp : Flag.parse checkFlags arguments = .ok p)
    (hp' : Flag.parse checkFlags arguments' = .ok p') (hsame : p'.essentials = p.essentials)
    (hpres : p.IsPresentable) (hpres' : p'.IsPresentable) :
    (runCheck g w c' arguments').code = (runCheck g w c arguments).code := by
  have hwords : p'.words = p.words := congrArg (·.words) hsame
  -- With the presentation in order only the words can be wrong, and these are the same.
  by_cases hmis : p.Misused
  · have hmis' : p'.Misused := by
      rw [hpres'.misused_iff, hwords]
      exact hpres.misused_iff.mp hmis
    rw [code_of_refused (.misused hp' hmis'), code_of_refused (.misused hp hmis)]
  · have hmis' : ¬ p'.Misused := by
      rw [hpres'.misused_iff, hwords]
      exact fun h => hmis (hpres.misused_iff.mpr h)
    rw [code_runCheck hout' hp' hmis', code_runCheck hout hp hmis, hinput,
      prepareCheck_of_sameWork (Parsed.sameWork_options hsame), Preparing.run_map]
    obtain ⟨prepared, log⟩ := (prepareCheck g w p.options).run []
    cases prepared with
    | error r => rfl
    | ok plan =>
      obtain ⟨hfindings, herrors⟩ := plan.outcome_withJobs p'.options.jobs w c.input
      show exitCode (!((plan.withJobs _).outcome w c.input).diagnostics.isEmpty)
        (!((plan.withJobs _).outcome w c.input).errors.isEmpty) = _
      rw [hfindings, herrors]

end Reply

/-- **The exit code of a check.** A check that is refused ends with two, writes nothing and reads no
script: its reply is the same whatever the scripts and the standard input hold. Any other check has
a plan and comes to an end. Its code is two if one of the scripts, or else the standard input,
cannot be read or decoded; otherwise one if a selected rule that is on for some script finds
something in it; and otherwise zero. How the check is presented and how many workers there are does
not matter. -/
theorem runCheck_exit_code (g : Registry) (w : World) (c : Call) (arguments : List Bytes)
    (hout : c.outputLimit = none) (hhelp : Flag.parse checkFlags arguments ≠ .error .help) :
    (Refused g w arguments →
      (runCheck g w c arguments).code = 2 ∧ (runCheck g w c arguments).stdout.written = [] ∧
      ∀ (w' : World) (c' : Call), c'.outputLimit = none →
        (∀ p, Flag.parse checkFlags arguments = .ok p → SameButScripts w w' p.options) →
        runCheck g w' c' arguments = { runCheck g w c arguments with world := w' }) ∧
    (¬ Refused g w arguments →
      ∃ p plan, Flag.parse checkFlags arguments = .ok p ∧ p.options.IsPlan g w plan ∧
        (runCheck g w c arguments).crash = none ∧ (plan.outcome w c.input).crash? = none ∧
        (plan.Fails w c.input → (runCheck g w c arguments).code = 2) ∧
        (¬ plan.Fails w c.input → plan.Finds w c.input → (runCheck g w c arguments).code = 1) ∧
        (¬ plan.Fails w c.input → ¬ plan.Finds w c.input → (runCheck g w c arguments).code = 0)) ∧
    (∀ (c' : Call) (arguments' : List Bytes) (p p' : Parsed), c'.outputLimit = none →
      c'.input = c.input → Flag.parse checkFlags arguments = .ok p →
      Flag.parse checkFlags arguments' = .ok p' → p'.essentials = p.essentials →
      p.IsPresentable → p'.IsPresentable →
      (runCheck g w c' arguments').code = (runCheck g w c arguments).code) := by
  refine ⟨fun h => ?_, fun h => ?_, ?_⟩
  · obtain ⟨stderr, crash, hreply⟩ := runCheck_of_refused h
    have hhere := hreply w c fun p _ => .refl w p.options
    refine ⟨by rw [hhere], by rw [hhere], fun w' c' hout' hsame => ?_⟩
    rw [hhere, hreply w' c' hsame, hout, hout']
  · obtain ⟨p, plan, hp, hmis, hplan, hanswer⟩ := exists_plan_of_not_refused hhelp h
    have hfails := plan.errors_outcome_ne_nil_iff w c.input hplan.settings hplan.isDistinct
    have hfinds := plan.diagnostics_outcome_ne_nil_iff w c.input hplan.settings hplan.isDistinct
    have hnone := plan.crash?_outcome w c.input hplan.settings hplan.isDistinct
    -- What the code is made of is whether there are errors and whether there are findings.
    have hcode : (runCheck g w c arguments).code =
        exitCode (!(plan.outcome w c.input).diagnostics.isEmpty)
          (!(plan.outcome w c.input).errors.isEmpty) := by
      obtain ⟨log, hrun⟩ := hanswer []
      rw [code_runCheck hout hp hmis, hrun]
    refine ⟨p, plan, hp, hplan, (crash_runCheck_of_isPlan hp hmis hanswer).trans hnone, hnone, ?_⟩
    rw [← hfails, ← hfinds, hcode]
    refine ⟨?_, ?_, ?_⟩
    · intro herrors
      simp [exitCode, herrors]
    · intro herrors hfindings
      simp [exitCode, not_not.mp herrors, hfindings]
    · intro herrors hfindings
      simp [exitCode, not_not.mp herrors, not_not.mp hfindings]
  · intro c' arguments' p p' hout' hinput hp hp' hsame hpres hpres'
    exact code_runCheck_congr hout hout' hinput hp hp' hsame hpres hpres'

/-- An input that lacks a line break at its end is checked, and this is found. -/
theorem runCheck_exit_code_input :
    let g : Registry := ⟨[TrailingNewline.rule]⟩
    let w : World := ⟨.dir [], []⟩
    let c : Call := { arguments := [], input := .data [0x78] }
    ∃ p plan, Flag.parse checkFlags [bytes "-"] = .ok p ∧ p.options.IsPlan g w plan ∧
      ¬ plan.Fails w c.input ∧ plan.Finds w c.input := by
  intro g w c
  have hcode : (runCheck g w c [bytes "-"]).code = 1 := by decide +kernel
  obtain ⟨hrefused, haccepted, -⟩ := runCheck_exit_code g w c [bytes "-"] rfl (by decide)
  have hplanned : ¬ Refused g w [bytes "-"] := by
    intro h
    have htwo := (hrefused h).1
    omega
  obtain ⟨p, plan, hp, hplan, -, -, hfails, -, hclean⟩ := haccepted hplanned
  have hread : ¬ plan.Fails w c.input := by
    intro h
    have htwo := hfails h
    omega
  refine ⟨p, plan, hp, hplan, hread, ?_⟩
  by_contra hnone
  have hzero := hclean hread hnone
  omega

end ScriptLint
