import ScriptLint.Command.Streaming
import ScriptLint.Proofs.Command.Errors
import ScriptLint.Proofs.Command.NewFile
import ScriptLint.Proofs.Report.Text
import ScriptLint.Proofs.Run.Streaming

/-!
# Output that breaks off

A check that writes its findings as they come up replies what it would reply if it wrote them at the
end (`streamCheck_eq_runCheck`), whatever its schedule. Once a line is not accepted the stream is
broken, and a broken stream is left alone (`CheckOptions.emit_of_broken`): so what stands on the
output is the lines up to there, and no second attempt is made (`text_breaks_off_cleanly`).
-/

namespace ScriptLint

/-! ### Room for some pieces -/

/-- **A sink with room for some pieces**: it keeps those, and if there are more it refuses the next
one and is not tried again. -/
theorem Sink.writeAll_eq {s : Sink} {k : Nat} (hs : s.limit = some k)
    (hroom : s.written.length ≤ k) (pieces : List Bytes) :
    (s.writeAll pieces).1 = { s with
      written := s.written ++ pieces.take (k - s.written.length)
      refused := s.refused + if k < s.written.length + pieces.length then 1 else 0 } := by
  induction pieces generalizing s with
  | nil =>
    have hfits : ¬ k < s.written.length + ([] : List Bytes).length := not_lt.mpr hroom
    rw [if_neg hfits, List.take_nil, List.append_nil]
    rfl
  | cons p ps ih =>
    have haccepts : s.accepts = decide (s.written.length < k) := by rw [Sink.accepts, hs]
    rw [Sink.writeAll, Sink.write, haccepts]
    -- A piece that is taken uses up room, and the first one that is not is refused before the rest
    -- is tried.
    by_cases hfree : s.written.length < k
    · have hlonger : (s.written ++ [p]).length = s.written.length + 1 := List.length_append
      have hleft : k - s.written.length = (k - (s.written.length + 1)) + 1 := by omega
      have htotal : s.written.length + 1 + ps.length = s.written.length + (p :: ps).length := by
        rw [List.length_cons]
        omega
      have hrest := ih (s := { s with written := s.written ++ [p] }) hs (hlonger.trans_le hfree)
      simp only [decide_eq_true hfree, if_true]
      rw [hrest, hlonger, hleft, List.take_succ_cons, htotal, List.append_assoc]
      rfl
    · have hfull : k - s.written.length = 0 := by omega
      have hmore : k < s.written.length + (p :: ps).length := by
        rw [List.length_cons]
        omega
      simp only [decide_eq_false hfree, Bool.false_eq_true, if_false, if_pos hmore, hfull,
        List.take_zero, List.append_nil]

/-! ### Lines one by one -/

namespace CheckOptions

variable (o : CheckOptions) (colours : Bool)

/-- Whether findings are written as they come up. -/
def Streams : Prop := o.quiet = false ∧ o.format = .text

variable {o}

/-- A finding leaves a stream as it is if findings are not written as they come up. -/
theorem emit_of_not_streams (h : ¬ o.Streams) (d : Diagnostic) (t : TextStream) :
    (o.emit colours d).run t = ((), t) := by
  have hidle : (o.quiet || o.format != .text || t.broken) = true := by
    unfold Streams at h
    cases hquiet : o.quiet <;> cases hformat : o.format <;> simp_all
  unfold emit
  simp only [StateT.run_bind, StateT.run_get, pure_bind, hidle, if_true]
  rfl

/-- A finding leaves a broken stream as it is. -/
theorem emit_of_broken (d : Diagnostic) {t : TextStream} (h : t.broken = true) :
    (o.emit colours d).run t = ((), t) := by
  have hidle : (o.quiet || o.format != .text || t.broken) = true := by rw [h, Bool.or_true]
  unfold emit
  simp only [StateT.run_bind, StateT.run_get, pure_bind, hidle, if_true]
  rfl

/-- A finding is written if the stream is not broken, and breaks it if it is not accepted. -/
theorem emit_of_streams (h : o.Streams) (d : Diagnostic) (s : Sink) :
    (o.emit colours d).run { sink := s } =
      ((), { sink := (s.write (d.textLine (colours && !o.noColour))).1
             broken := !(s.write (d.textLine (colours && !o.noColour))).2 }) := by
  have hbusy : (o.quiet || o.format != .text || false) = false := by
    rw [h.1, h.2]
    rfl
  unfold emit
  simp only [StateT.run_bind, StateT.run_get, pure_bind, hbusy, Bool.false_eq_true, if_false]
  rfl

/-- Findings that all leave a stream as it is do so together. -/
theorem forM_emit_of_forall {t : TextStream} (h : ∀ d, (o.emit colours d).run t = ((), t))
    (ds : List Diagnostic) : (ds.forM (o.emit colours)).run t = ((), t) := by
  induction ds with
  | nil => rfl
  | cons d ds ih =>
    rw [List.forM_eq_forM, List.forM_cons, StateT.run_bind, h d]
    exact ih

/-- **Lines that are written one by one** are the text report, and the stream is broken in the end
if the report is not accepted. -/
theorem forM_emit_of_streams (h : o.Streams) (ds : List Diagnostic) (s : Sink) :
    (ds.forM (o.emit colours)).run { sink := s } =
      ((), { sink := (ReportFormat.text.report (colours && !o.noColour) ds s).1
             broken := !(ReportFormat.text.report (colours && !o.noColour) ds s).2 }) := by
  induction ds generalizing s with
  | nil => rfl
  | cons d ds ih =>
    rw [List.forM_eq_forM, List.forM_cons, StateT.run_bind, emit_of_streams colours h,
      ReportFormat.report, ReportFormat.pieces, List.map_cons, Sink.writeAll]
    cases hwrite : s.write (d.textLine (colours && !o.noColour)) with
    | mk s' accepted =>
      cases accepted with
      | true => exact ih s'
      | false => exact forM_emit_of_forall colours (fun d => emit_of_broken colours d rfl) ds

/-- What a stream that starts at a sink has become after the findings of an outcome. -/
theorem concludeStream_emit {out : Outcome} {r : RunResult} (hr : out.result = .ok r) (s : Sink) :
    concludeStream o r ((out.emitted.forM (o.emit colours)).run { sink := s }).2
      = concludeCheck o colours out s := by
  have hfound : out.diagnostics = r.diagnostics := by rw [Outcome.diagnostics, hr]
  have herrors : out.errors = r.errors := by rw [Outcome.errors, hr]
  have hidle : ¬ o.Streams →
      ((out.emitted.forM (o.emit colours)).run { sink := s }).2 = { sink := s } := fun h =>
    congrArg Prod.snd (forM_emit_of_forall colours (fun d => emit_of_not_streams colours h d _) _)
  unfold concludeStream concludeCheck
  rw [hfound, herrors]
  cases hquiet : o.quiet with
  | true =>
    rw [hidle fun h => Bool.false_ne_true (h.1.symm.trans hquiet)]
    rfl
  | false =>
    cases hformat : o.format with
    | text =>
      rw [forM_emit_of_streams colours ⟨hquiet, hformat⟩]
      cases ReportFormat.text.report (colours && !o.noColour) out.emitted s with
      | mk s' accepted => cases accepted <;> rfl
    | json =>
      rw [hidle fun h => ReportFormat.noConfusion (h.2.symm.trans hformat)]
      cases hreport : ReportFormat.json.report false r.diagnostics s with
      | mk s' accepted => cases accepted <;> simp

end CheckOptions

/-- An outcome with a result is left with it, and with what its findings make of the stream. -/
theorem Outcome.run_passOn {out : Outcome} {r : RunResult} (hr : out.result = .ok r)
    (emit : Emit (StateM TextStream)) (t : TextStream) :
    (out.passOn emit).run.run t = (.ok r, ((out.emitted.forM emit).run t).2) := by
  rw [passOn, hr]
  rfl

/-! ### Plans -/

section Plans

variable {g : Registry} {w : World} {arguments : List Bytes}

theorem planned?_eq_some_iff {o : CheckOptions} {plan : CheckPlan} {log : List Bytes} :
    planned? g w arguments = some (o, plan, log) ↔
      ∃ p, Flag.parse checkFlags arguments = .ok p ∧ CheckOptions.ofParsed p = .ok o ∧
        (prepareCheck g w o).run [] = (.ok plan, log) := by
  unfold planned?
  cases Flag.parse checkFlags arguments with
  | error e => simp [Except.toOption]
  | ok p =>
    cases hoptions : CheckOptions.ofParsed p with
    | error e => simp [Except.toOption, hoptions]
    | ok o' =>
      cases hrun : (prepareCheck g w o').run [] with
      | mk prepared log' =>
        by_cases hsame : o' = o
        · obtain rfl := hsame
          have hanswer : (prepareCheck g w o').run [] = (.ok plan, log) ↔
              prepared = .ok plan ∧ log' = log := by
            rw [hrun]
            exact Prod.mk_inj
          rw [hanswer]
          cases prepared <;> simp [Except.toOption, hoptions, hrun]
        · cases prepared <;> simp [Except.toOption, hoptions, hrun, hsame]

end Plans

/-- Whether a schedule brings the run of a plan to its end without cancelling it. -/
structure CheckPlan.Completes (plan : CheckPlan) (w : World) (s : Schedule) : Prop where
  uncancelled : s.Uncancelled
  completes : ∀ files ∈ plan.files, plan.runner.Completes w s files

namespace CheckPlan

/-- **A plan is run as its outcome says**, whatever takes the findings. -/
theorem stream_eq {m : Type → Type} [Monad m] [LawfulMonad m] {plan : CheckPlan} {w : World}
    {s : Schedule} (h : plan.Completes w s) (input : Input) (emit : Emit m) :
    plan.stream w input s emit = (plan.outcome w input).passOn emit := by
  unfold stream outcome
  cases hfiles : plan.files with
  | some files =>
    dsimp only
    rw [Runner.stream_eq, plan.runner.runUnder_eq_run w h.uncancelled (h.completes files hfiles)]
  | none =>
    unfold checkInput
    cases input with
    | broken reason => exact (Outcome.passOn_of_silent (o := .failed (.input reason)) rfl emit).symm
    | data content =>
      dsimp only
      cases decodeScript content with
      | error e =>
        exact (Outcome.passOn_of_silent (o := .failed (.inputEncoding e)) rfl emit).symm
      | ok text => exact plan.runner.streamSource_eq emit inputName text

/-- The line about the rules that the log of a run begins with; text on the standard input has
none. -/
def opening (plan : CheckPlan) : List Bytes :=
  (plan.files.map fun _ => plan.runner.rulesLine).toList

/-- The log of a plan tells every script that is checked. -/
theorem logs_outcome (plan : CheckPlan) (w : World) (input : Input) :
    (plan.outcome w input).Logs
      (plan.opening ++ (plan.scripts w input).filterMap (·.toOption.map Script.logLine)) := by
  unfold outcome opening scripts
  cases plan.files with
  | some files =>
    have hread : ∀ path, ((readScript w plan.runner.root path).mapError RunError.read).toOption
        = (readScript w plan.runner.root path).toOption := by
      intro path
      cases readScript w plan.runner.root path <;> rfl
    dsimp only
    rw [List.filterMap_map]
    simp only [Function.comp_def, hread]
    exact plan.runner.logs_run w files
  | none =>
    cases input with
    | broken reason => exact Outcome.logs_failed (.input reason)
    | data content =>
      unfold checkInput inputScript
      dsimp only
      cases decodeScript content with
      | error e => exact Outcome.logs_failed (.inputEncoding e)
      | ok text => exact plan.runner.logs_checkScript true _

end CheckPlan

/-! ### A whole check -/

section Check

variable (g : Registry) (w : World) (c : Call) {s : Schedule} {arguments : List Bytes}

/-- The run of a plan comes to a result, because its settings have passed. -/
theorem exists_result_of_planned {o : CheckOptions} {plan : CheckPlan} {log : List Bytes}
    (hplanned : planned? g w arguments = some (o, plan, log)) :
    ∃ r, (plan.outcome w c.input).result = .ok r := by
  obtain ⟨p, -, -, hplan⟩ := planned?_eq_some_iff.mp hplanned
  have hisPlan : o.IsPlan g w plan := isPlan_of_prepareCheck (congrArg Prod.fst hplan)
  rw [← Outcome.crash?_eq_none_iff]
  exact plan.crash?_outcome w c.input hisPlan.settings hisPlan.isDistinct

/-- The reply of a check that has a plan. -/
theorem streamCheck_of_planned {o : CheckOptions} {plan : CheckPlan} {log : List Bytes}
    (hplanned : planned? g w arguments = some (o, plan, log)) (h : plan.Completes w s) :
    let out := plan.outcome w c.input
    let concluded := concludeCheck o c.colours out { limit := c.outputLimit }
    streamCheck g w c s arguments = {
      code := concluded.1
      stdout := concluded.2.1
      stderr := Log.write (some { enabled := o.verbose }) (log ++ out.log) ++ concluded.2.2
      world := w } := by
  intro out concluded
  obtain ⟨r, hr⟩ := exists_result_of_planned g w c hplanned
  have hconcluded : concludeStream o r
      ((out.emitted.forM (o.emit c.colours)).run { sink := { limit := c.outputLimit } }).2
        = concluded := CheckOptions.concludeStream_emit c.colours hr _
  have hlog : out.log = r.log := by rw [Outcome.log, hr]
  unfold streamCheck
  simp only [hplanned, CheckPlan.stream_eq h, Outcome.run_passOn hr]
  rw [← hconcluded, hlog]

/-- **Findings that are written as they come up** make no difference to the reply: it is that of a
check that writes them at the end, under every schedule that brings the run to its end. -/
theorem streamCheck_eq_runCheck
    (h : ∀ o plan log, planned? g w arguments = some (o, plan, log) → plan.Completes w s) :
    streamCheck g w c s arguments = runCheck g w c arguments := by
  cases hplanned : planned? g w arguments with
  | none =>
    unfold streamCheck
    rw [hplanned]
  | some planned =>
    obtain ⟨o, plan, log⟩ := planned
    obtain ⟨p, hp, ho, hplan⟩ := planned?_eq_some_iff.mp hplanned
    have hnone : (plan.outcome w c.input).crash? = none :=
      (Outcome.crash?_eq_none_iff _).mpr (exists_result_of_planned g w c hplanned)
    rw [streamCheck_of_planned g w c hplanned (h o plan log hplanned)]
    simp only [runCheck, hp, ho, hplan, hnone]

/-- A check that writes text ends as it is concluded, and its output is what it takes of the lines.
-/
theorem streamCheck_of_text {o : CheckOptions} {plan : CheckPlan} {log : List Bytes}
    (hplanned : planned? g w arguments = some (o, plan, log)) (h : plan.Completes w s)
    (htext : o.format = .text) (hloud : o.quiet = false) :
    let out := plan.outcome w c.input
    let reply := streamCheck g w c s arguments
    reply.code = (concluded o c out).1 ∧
      reply.stderr = Log.write (some { enabled := o.verbose }) (log ++ out.log)
        ++ (concluded o c out).2 ∧
      reply.stdout = (Sink.writeAll { limit := c.outputLimit }
        (out.diagnostics.map (·.textLine (c.colours && !o.noColour)))).1 ∧
      reply.crash = none := by
  intro out reply
  have hreply := streamCheck_of_planned g w c hplanned h
  have hsink := sink_concludeCheck hloud htext c.colours out { limit := c.outputLimit }
  obtain ⟨p, -, -, hplan⟩ := planned?_eq_some_iff.mp hplanned
  have hisPlan : o.IsPlan g w plan := isPlan_of_prepareCheck (congrArg Prod.fst hplan)
  rw [plan.emitted_outcome w c.input hisPlan.settings hisPlan.isDistinct] at hsink
  refine ⟨congrArg Reply.code hreply, congrArg Reply.stderr hreply, ?_,
    congrArg Reply.crash hreply⟩
  exact (congrArg Reply.stdout hreply).trans hsink

/-- **Output that breaks off is cut cleanly.** A check that writes its findings as text may find
that its output takes some lines and then no more. Under every schedule, and so for any number of
workers, it checks every script all the same: it is left with all findings and errors, and its log
tells each script. The output has taken the first lines, in order and nothing else, and at most one
more was tried. If there are more findings than lines are taken, the code is two, and the standard
error has what it has else and then a line about the output; and otherwise the reply is the one that
any output gets which takes everything. -/
theorem text_breaks_off_cleanly {p : Parsed} (hp : Flag.parse checkFlags arguments = .ok p)
    {o : CheckOptions} (ho : CheckOptions.ofParsed p = .ok o) (htext : o.format = .text)
    (hloud : o.quiet = false) {plan : CheckPlan} {log : List Bytes}
    (hplan : (prepareCheck g w o).run [] = (.ok plan, log)) (hs : s.Uncancelled)
    (hc : ∀ files ∈ plan.files, plan.runner.Completes w s files) {k : Nat}
    (hk : c.outputLimit = some k) :
    let scripts := plan.scripts w c.input
    let found := scripts.flatMap plan.runner.findings
    let errors := scripts.flatMap plan.runner.failures
    let logged := plan.opening ++ scripts.filterMap (·.toOption.map Script.logLine)
    let lines := found.map (·.textLine (c.colours && !o.noColour))
    let run := plan.stream w c.input s (o.emit c.colours)
    let reply := streamCheck g w c s arguments
    let healthy := streamCheck g w { c with outputLimit := none } s arguments
    (run.run.run { sink := { limit := k } }).1 = .ok ⟨found, errors, logged⟩ ∧
      reply.stdout.written = lines.take k ∧
      reply.stdout.refused = (if k < found.length then 1 else 0) ∧
      (k < found.length → reply.code = 2 ∧ reply.stderr = healthy.stderr ++ writeErrorLine) ∧
      (found.length ≤ k → reply.code = healthy.code ∧ reply.stderr = healthy.stderr ∧
        reply.stdout.content = healthy.stdout.content) ∧
      healthy.code = exitCode (!found.isEmpty) (!errors.isEmpty) ∧
      healthy.stderr = Log.write (some { enabled := o.verbose }) (log ++ logged)
        ++ errors.flatMap (fun e => programLine e.message) ∧
      healthy.stdout.written = lines ∧ reply.crash = none := by
  intro scripts found errors logged lines run reply healthy
  have hplanned : planned? g w arguments = some (o, plan, log) :=
    planned?_eq_some_iff.mpr ⟨p, hp, ho, hplan⟩
  have hcompletes : plan.Completes w s := ⟨hs, hc⟩
  set out := plan.outcome w c.input
  obtain ⟨result, hresult⟩ := exists_result_of_planned g w c hplanned
  have hgives := plan.gives_outcome w c.input
  have hnone : out.crash? = none := (Outcome.crash?_eq_none_iff out).mpr ⟨result, hresult⟩
  have hfound : out.diagnostics = found := hgives.diagnostics hnone
  have herrors : out.errors = errors := hgives.errors hnone
  have hlogged : out.log = logged := (plan.logs_outcome w c.input).log hnone
  have hemitted : out.emitted.length = found.length :=
    congrArg List.length ((plan.passesOn_outcome w c.input).all hnone)
  have hloses : ∀ c : Call, ¬ o.LosesDocument c := fun c h =>
    ReportFormat.noConfusion (htext.symm.trans h.2.1)
  -- Both replies are told by what the run comes to: the one with this output, and the one with an
  -- output that takes everything and so loses no line.
  obtain ⟨hcode, hstderr, hstdout, hcrash⟩ :=
    streamCheck_of_text g w c hplanned hcompletes htext hloud
  obtain ⟨hcode', hstderr', hstdout', -⟩ :=
    streamCheck_of_text g w { c with outputLimit := none } hplanned hcompletes htext hloud
  have hhealthy : concluded o { c with outputLimit := none } out
      = (exitCode (!found.isEmpty) (!errors.isEmpty), out.errorLines.flatten) := by
    rw [concluded_of_not_loses (hloses _) (fun h => by obtain ⟨-, -, k, hk, -⟩ := h; cases hk),
      hfound, herrors]
  rw [hhealthy] at hcode' hstderr'
  rw [hlogged] at hstderr hstderr'
  rw [hfound] at hstdout hstdout'
  have hwritten' : healthy.stdout.written = lines := by
    rw [hstdout', Sink.written_writeAll rfl]
    rfl
  have hlength : lines.length = found.length := List.length_map _
  -- What the output has taken and refused is a matter of its limit and the number of lines.
  have hsink := Sink.writeAll_eq (s := { limit := some k }) rfl (Nat.zero_le k) lines
  rw [hk, hsink] at hstdout
  simp only [List.length_nil, Nat.zero_add, Nat.sub_zero, List.nil_append, hlength] at hstdout
  refine ⟨?_, by rw [hstdout], by rw [hstdout], fun hmore => ?_, fun hfits => ?_, hcode', ?_,
    hwritten', hcrash⟩
  · have hrun : run = out.passOn (o.emit c.colours) := CheckPlan.stream_eq hcompletes _ _
    obtain ⟨hdiagnostics, hfailures⟩ := hgives.result result hresult
    have hlines := plan.logs_outcome w c.input result hresult
    have hparts : result = ⟨found, errors, logged⟩ := by
      obtain ⟨ds, es, told⟩ := result
      exact RunResult.mk.injEq .. ▸ ⟨hdiagnostics, hfailures, hlines⟩
    rw [hrun, Outcome.run_passOn hresult, hparts]
  · have hlines : o.LosesLines c out := ⟨hloud, htext, k, hk, hemitted ▸ hmore⟩
    rw [hcode, hstderr, hstderr', concluded_of_losesLines hlines, List.append_assoc]
    exact ⟨rfl, rfl⟩
  · have hlines : ¬ o.LosesLines c out := by
      rintro ⟨-, -, k', hk', hmore⟩
      obtain rfl := Option.some.inj (hk.symm.trans hk')
      rw [hemitted] at hmore
      omega
    have hall : lines.take k = lines := List.take_of_length_le (hlength.trans_le hfits)
    rw [hcode, hcode', hstderr, hstderr', concluded_of_not_loses (hloses c) hlines, hfound, herrors,
      Sink.content, Sink.content, hwritten', hstdout, hall]
    exact ⟨rfl, rfl, rfl⟩
  · rw [hstderr', Outcome.errorLines, herrors, ← List.flatMap_def]

end Check

/-- An input with two findings, and an output that takes one line. -/
theorem text_breaks_off_cleanly_input :
    let w : World := ⟨.dir [], []⟩
    let c : Call := { arguments := [], input := .data [0x78], outputLimit := some 1 }
    let arguments := [bytes "-j", bytes "2", bytes "-r",
      bytes "require_warn_directive,trailing_newline", bytes "-"]
    let reply := streamCheck .standard w c {} arguments
    reply.stdout.written = [bytes "<stdin>: missing #Warn directive\n"] ∧
      reply.stdout.refused = 1 ∧ reply.code = 2 ∧ reply.stderr = writeErrorLine := by
  intro w c arguments reply
  let p : Parsed :=
    { values := [(bytes "jobs", bytes "2"),
        (bytes "rules", bytes "require_warn_directive,trailing_newline")]
      words := [bytes "-"] }
  have hp : Flag.parse checkFlags arguments = .ok p := by decide +kernel
  -- All that is evaluated of the plan is what its scripts give; the plan itself holds functions and
  -- is left as it is.
  have hvalues : ((prepareCheck .standard w p.options).run []).1.toOption.map (fun plan =>
      (((plan.scripts w c.input).flatMap plan.runner.findings).map (·.textLine false),
        ((plan.scripts w c.input).flatMap plan.runner.failures).length)) = some ([
          bytes "<stdin>: missing #Warn directive\n",
          bytes "<stdin>: missing trailing newline\n"], 0) := by
    unfold prepareCheck loadConfig Config.defaults selectRules
    rw [Registry.names_standard]
    decide +kernel
  cases hrun : (prepareCheck .standard w p.options).run [] with
  | mk prepared log =>
    rw [hrun] at hvalues
    cases prepared with
    | error r => cases hvalues
    | ok plan =>
      obtain ⟨hlines, hnone⟩ := Prod.mk.inj (Option.some.inj hvalues)
      have hfiles : plan.files = none :=
        (isPlan_of_prepareCheck (congrArg Prod.fst hrun)).input (by decide)
      have hend : ∀ files ∈ plan.files, plan.runner.Completes w {} files := fun files h => by
        rw [hfiles] at h
        cases h
      obtain ⟨-, hwritten, hrefused, hmore, -, -, hstderr, -⟩ :=
        text_breaks_off_cleanly .standard w c (s := {}) hp (o := p.options) rfl (by decide)
          (by decide) hrun ⟨rfl, List.not_mem_nil⟩ hend (k := 1) rfl
      have hlong : 1 < ((plan.scripts w c.input).flatMap plan.runner.findings).length := by
        have htwo := congrArg List.length hlines
        rw [List.length_map] at htwo
        exact htwo ▸ by decide
      rw [if_pos hlong] at hrefused
      obtain ⟨hcode, htold⟩ := hmore hlong
      have hdark : (c.colours && !p.options.noColour) = false := rfl
      have hquiet : p.options.verbose = false := by decide
      rw [hdark, hlines] at hwritten
      rw [hquiet, List.eq_nil_of_length_eq_zero hnone] at hstderr
      exact ⟨hwritten, hrefused, hcode, htold.trans (by rw [hstderr]; rfl)⟩

end ScriptLint
