import ScriptLint.Proofs.Command.Order
import ScriptLint.Proofs.Rule.Findings

/-!
# Text reports

A text report has a line for each finding, because no finding of a rule holds a line break unless
its path does (`isUnbroken_render`). `findings_have_one_line_each` says so for the findings of the
rules, for the runs of several files and of a single text, and for the check command.
-/

namespace ScriptLint

/-! ### Writing lines -/

/-- An output without a limit takes every piece. -/
theorem Sink.written_writeAll {s : Sink} (hs : s.limit = none) (pieces : List Bytes) :
    (s.writeAll pieces).1.written = s.written ++ pieces := by
  induction pieces generalizing s with
  | nil => exact (List.append_nil _).symm
  | cons p ps ih =>
    have haccepts : s.accepts = true := by rw [accepts, hs]
    have hrest := ih (s := { s with written := s.written ++ [p] }) hs
    rw [writeAll, write, if_pos haccepts]
    exact hrest.trans (List.append_assoc ..)

/-- The content of a report is its lines, each with a line feed behind it. -/
theorem content_text_report (ds : List Diagnostic) :
    (ReportFormat.text.report false ds {}).1.content = ds.flatMap fun d => d.render ++ [0x0A] := by
  rw [ReportFormat.report, Sink.content, Sink.written_writeAll rfl, List.nil_append,
    ReportFormat.pieces, List.flatMap_def]
  rfl

/-- Whether some bytes are the lines of the findings of an outcome, one for each, in order. Where
the program stops these are the findings passed on until then. -/
structure Outcome.HasLines (out : Outcome) (content : Bytes) : Prop where
  lines : splitBytes 0x0A content = out.emitted.map (·.render) ++ [[]]
  all : out.crash? = none → out.emitted = out.diagnostics
  noReturn : 0x0D ∉ content

/-- A report of what is passed on has its lines if no finding breaks one. -/
theorem hasLines_text_report {out : Outcome} {ds : List Diagnostic} {es : List RunError}
    (hgives : out.Gives ds es) (hpassed : out.PassesOn ds) (h : ∀ d ∈ ds, IsUnbroken d.render) :
    out.HasLines (ReportFormat.text.report false out.emitted {}).1.content := by
  replace h : ∀ d ∈ out.emitted, IsUnbroken d.render := fun d hd => h d (hpassed.first.subset hd)
  rw [content_text_report]
  refine ⟨?_, fun hnone => (hpassed.all hnone).trans (hgives.diagnostics hnone).symm, ?_⟩
  · generalize out.emitted = ds at h
    induction ds with
    | nil => rfl
    | cons d ds ih =>
      rw [List.forall_mem_cons] at h
      have hone : splitBytes 0x0A d.render = [d.render] :=
        splitBytes_joinBytes (List.cons_ne_nil _ _) (List.forall_mem_singleton.mpr h.1.1)
      rw [List.flatMap_cons, List.append_assoc, List.singleton_append, splitBytes_append_cons,
        hone, ih h.2, List.map_cons, List.cons_append, List.nil_append, List.cons_append]
  · intro hmem
    obtain ⟨d, hd, hbyte⟩ := List.mem_flatMap.mp hmem
    rcases List.mem_append.mp hbyte with hbyte | hbyte
    · exact (h d hd).2 hbyte
    · exact absurd hbyte (by decide)

/-! ### Findings on one line -/

/-- **A finding stays on one line** if the path that it names does. -/
theorem Diagnostic.IsAbout.isUnbroken_render {d : Diagnostic} {s : Script} {name : Bytes}
    (h : d.IsAbout s name) (hpath : IsUnbroken s.path) : IsUnbroken d.render := by
  have hlocation : IsUnbroken d.location := by
    rw [location, h.file]
    split_ifs
    · exact hpath
    · exact isUnbroken_append.mpr
        ⟨isUnbroken_append.mpr ⟨hpath, by decide⟩, isUnbroken_intBytes _⟩
  exact isUnbroken_append.mpr ⟨isUnbroken_append.mpr ⟨hlocation, by decide⟩, h.message⟩

namespace Runner

variable {r : Runner}

/-- What a run finds in a script is about the script. -/
theorem isAbout_of_mem_ruleFindings {s : Script} {rule : Rule}
    (hrule : rule ∈ Registry.standard.rules) {d : Diagnostic} (h : d ∈ r.ruleFindings s rule) :
    d.IsAbout s rule.name := by
  unfold ruleFindings at h
  split_ifs at h
  · split at h
    · rename_i configured hconf
      rcases reports_of_configure hrule hconf s with ⟨-, hreports⟩ | ⟨-, hreports⟩
      · exact hreports.about d h
      · exact hreports.about d h
    · exact absurd h List.not_mem_nil
  · exact absurd h List.not_mem_nil

theorem isUnbroken_of_mem_flatMap_ruleFindings (hr : r.IsStandard) {s : Script}
    (hpath : IsUnbroken s.path) {d : Diagnostic} (h : d ∈ r.rules.flatMap (r.ruleFindings s)) :
    IsUnbroken d.render := by
  obtain ⟨rule, hrule, hd⟩ := List.mem_flatMap.mp h
  exact (isAbout_of_mem_ruleFindings (hr rule hrule) hd).isUnbroken_render hpath

theorem isUnbroken_of_mem_fileFindings (hr : r.IsStandard) {w : World} {path : Bytes}
    (hpath : IsUnbroken (Path.display w.cwd r.root (Path.absolute w.cwd path))) {d : Diagnostic}
    (h : d ∈ r.fileFindings w path) : IsUnbroken d.render := by
  unfold fileFindings at h
  split at h
  · next s hs =>
    rw [← path_of_readScript hs] at hpath
    exact isUnbroken_of_mem_flatMap_ruleFindings hr hpath h
  · exact absurd h List.not_mem_nil

/-- **The text report of a run has a line for each finding**, however the run goes. -/
theorem hasLines_runUnder (hr : r.IsStandard) {w : World} {paths : List Bytes}
    (hpaths : ∀ path ∈ paths,
      IsUnbroken (Path.display w.cwd r.root (Path.absolute w.cwd path)))
    {s : Schedule} (hs : r.Completes w s paths) :
    (r.runUnder w s paths).HasLines
      (ReportFormat.text.report false (r.runUnder w s paths).emitted {}).1.content := by
  refine hasLines_text_report (r.gives_runUnder_begun w hs) (r.passesOn_runUnder_begun w hs) ?_
  intro d hd
  obtain ⟨path, hpath, hd⟩ := List.mem_flatMap.mp hd
  exact isUnbroken_of_mem_fileFindings hr
    (hpaths path ((atPositions_sublist _ _).subset hpath)) hd

/-- The text report of a text that is in no file has a line for each finding. -/
theorem hasLines_checkSource (hr : r.IsStandard) {path : Bytes} (hpath : IsUnbroken path)
    (text : Text) :
    (r.checkSource path text).HasLines
      (ReportFormat.text.report false (r.checkSource path text).emitted {}).1.content :=
  hasLines_text_report (r.gives_checkScript true ⟨path, text⟩)
    (r.passesOn_checkScript ⟨path, text⟩)
    fun _ hd => isUnbroken_of_mem_flatMap_ruleFindings hr (s := ⟨path, text⟩) hpath hd

end Runner

/-! ### The check command -/

/-- What a check writes is the report of its outcome. -/
theorem sink_concludeCheck {o : CheckOptions} (hquiet : o.quiet = false) (htext : o.format = .text)
    (colours : Bool) (out : Outcome) (s : Sink) :
    (concludeCheck o colours out s).2.1
      = (ReportFormat.text.report (colours && !o.noColour) out.emitted s).1 := by
  unfold concludeCheck
  simp only [hquiet, htext, Bool.false_eq_true, if_false]
  split
  · next hreport => rw [hreport]
  · next hreport => rw [hreport]

/-- The text report of a check has a line for each finding. -/
theorem CheckPlan.hasLines_outcome {plan : CheckPlan} (hr : plan.runner.IsStandard) {w : World}
    (hfiles : ∀ files, plan.files = some files → ∀ path ∈ files,
      IsUnbroken (Path.display w.cwd plan.runner.root (Path.absolute w.cwd path)))
    (input : Input) :
    (plan.outcome w input).HasLines
      (ReportFormat.text.report false (plan.outcome w input).emitted {}).1.content := by
  have hfailed (e : RunError) : (Outcome.failed e).HasLines
      (ReportFormat.text.report false (Outcome.failed e).emitted {}).1.content :=
    hasLines_text_report (Outcome.gives_failed e) (Outcome.passesOn_nil rfl) (List.forall_mem_nil _)
  unfold outcome
  cases hf : plan.files with
  | some files =>
    exact Runner.hasLines_runUnder hr (hfiles files hf) (plan.runner.completes_plain w files)
  | none =>
    dsimp only
    cases input with
    | broken reason => exact hfailed _
    | data content =>
      rw [checkInput]
      cases decodeScript content with
      | error e => exact hfailed _
      | ok text => exact Runner.hasLines_checkSource hr (by decide) text

/-- **Findings have one line each.** Under every setting that a rule of the linter takes, and for
every script, each finding names the script and the rule, has a line of the script or none, and a
message without a line break. The four rules that look at a script as a whole report at most one
finding, on no line; the two that look at its lines report on strictly increasing lines. So, as long
as the shown paths hold no line break, the text of a run has exactly one line for each finding, in
order: for every schedule of a run over files, for a text that is in no file, and for what the check
command writes, which no settings stop. -/
theorem findings_have_one_line_each :
    (∀ rule ∈ Registry.standard.rules, ∀ e configured, rule.configure e = .ok configured →
      ∀ s : Script,
        (∀ d ∈ configured.check s, d.file = s.path ∧ d.rule = rule.name ∧
          0 ≤ d.line ∧ d.line ≤ s.lines.length ∧ 0x0A ∉ d.message ∧ 0x0D ∉ d.message) ∧
        (rule.name ∈ wholeScriptRules → (configured.check s).length ≤ 1 ∧
          ∀ d ∈ configured.check s, d.line = 0) ∧
        (rule.name ∈ lineRules → ((configured.check s).Pairwise fun d d' => d.line < d'.line) ∧
          ∀ d ∈ configured.check s, 1 ≤ d.line)) ∧
    (∀ r : Runner, r.IsStandard →
      (∀ (w : World) (paths : List Bytes),
        (∀ path ∈ paths, IsUnbroken (Path.display w.cwd r.root (Path.absolute w.cwd path))) →
        ∀ s, r.Completes w s paths → (r.runUnder w s paths).HasLines
          (ReportFormat.text.report false (r.runUnder w s paths).emitted {}).1.content) ∧
      ∀ path, IsUnbroken path → ∀ text, (r.checkSource path text).HasLines
        (ReportFormat.text.report false (r.checkSource path text).emitted {}).1.content) ∧
    ∀ (w : World) (c : Call) (arguments : List Bytes) (p : Parsed) (o : CheckOptions)
      (plan : CheckPlan) (log : List Bytes),
      Flag.parse checkFlags arguments = .ok p → CheckOptions.ofParsed p = .ok o →
      (prepareCheck .standard w o).run [] = (.ok plan, log) →
      o.quiet = false → o.format = .text → (c.colours = false ∨ o.noColour = true) →
      c.outputLimit = none →
      (∀ files, plan.files = some files → ∀ path ∈ files,
        IsUnbroken (Path.display w.cwd plan.runner.root (Path.absolute w.cwd path))) →
      (plan.outcome w c.input).crash? = none ∧
      (plan.outcome w c.input).HasLines (runCheck .standard w c arguments).stdout.content := by
  refine ⟨?_, fun r hr => ⟨fun w paths hpaths s hs => Runner.hasLines_runUnder hr hpaths hs,
    fun path hpath text => Runner.hasLines_checkSource hr hpath text⟩, ?_⟩
  · intro rule hrule e configured h s
    -- A rule is of one of the two kinds, so that the part about the other kind says nothing of it.
    have hapart : ∀ name ∈ wholeScriptRules, name ∉ lineRules := by decide
    have habout {ds : List Diagnostic} (h : ∀ d ∈ ds, d.IsAbout s rule.name) : ∀ d ∈ ds,
        d.file = s.path ∧ d.rule = rule.name ∧ 0 ≤ d.line ∧ d.line ≤ s.lines.length ∧
          0x0A ∉ d.message ∧ 0x0D ∉ d.message := by
      intro d hd
      obtain ⟨hfile, hrule, hnonneg, hle, hmessage⟩ := h d hd
      exact ⟨hfile, hrule, hnonneg, hle, hmessage⟩
    rcases reports_of_configure hrule h s with ⟨hname, hreports⟩ | ⟨hname, hreports⟩
    · exact ⟨habout hreports.about, fun _ => ⟨hreports.atMostOne, hreports.line⟩,
        fun hlines => absurd hlines (hapart _ hname)⟩
    · exact ⟨habout hreports.about, fun hwhole => absurd hname (hapart _ hwhole),
        fun _ => ⟨hreports.increasing, hreports.line⟩⟩
  · intro w c arguments p o plan log hp ho hplan hquiet htext hplain hlimit hfiles
    have hisPlan : o.IsPlan .standard w plan := isPlan_of_prepareCheck (congrArg Prod.fst hplan)
    have hstandard : plan.runner.IsStandard := (selectRules_eq_ok hisPlan.rules).2
    have hcolour : (c.colours && !o.noColour) = false := by
      rcases hplain with h | h
      · rw [h, Bool.false_and]
      · rw [h, Bool.not_true, Bool.and_false]
    have hwritten : (runCheck .standard w c arguments).stdout
        = (ReportFormat.text.report false (plan.outcome w c.input).emitted {}).1 := by
      have hsink := sink_concludeCheck hquiet htext c.colours (plan.outcome w c.input) {}
      rw [hcolour] at hsink
      simp only [runCheck, hp, ho, hplan, hlimit]
      exact hsink
    rw [hwritten]
    exact ⟨plan.crash?_outcome w c.input hisPlan.settings hisPlan.isDistinct,
      plan.hasLines_outcome hstandard hfiles c.input⟩

/-- Two functions of which one is not used and a mode in a letter case of its own, in a text that is
in no file; and an empty script on the standard input of a check with a single rule. -/
theorem findings_have_one_line_each_text :
    let r : Runner :=
      { config := { rules := [(instanceRuleName,
          { enabled := true, settings := some [(bytes "mode", .text (bytes "oFF"))] })] }
        rules := [RequireSingleInstance.rule, UnusedFunctions.rule] }
    let text := "#SingleInstance Force\nF(x) \x7b\r\nG() \x7b\rF (1)".toList
    let content :=
      (ReportFormat.text.report false (r.checkSource (bytes "a.ahk") text).emitted {}).1.content
    let arguments := [bytes "-r", bytes "require_warn_directive", bytes "-"]
    let p : Parsed :=
      { values := [(bytes "rules", bytes "require_warn_directive")], words := [bytes "-"] }
    let c : Call := { arguments := [], input := .data [] }
    content = bytes
      "a.ahk: #SingleInstance should use 'oFF'\na.ahk:3: function 'G' defined but not used\n" ∧
      (r.checkSource (bytes "a.ahk") text).HasLines content ∧
      ∃ plan log, (prepareCheck .standard ⟨.dir [], []⟩ p.options).run [] = (.ok plan, log) ∧
        (plan.outcome ⟨.dir [], []⟩ c.input).HasLines
          (runCheck .standard ⟨.dir [], []⟩ c arguments).stdout.content := by
  intro r text content arguments p c
  obtain ⟨-, hruns, hcheck⟩ := findings_have_one_line_each
  have hr : r.IsStandard := by simp [r, Runner.IsStandard, Registry.standard]
  refine ⟨by decide, (hruns r hr).2 (bytes "a.ahk") (by decide) text, ?_⟩
  have hp : Flag.parse checkFlags arguments = .ok p := by decide +kernel
  have hok : ((prepareCheck .standard ⟨.dir [], []⟩ p.options).run []).1.isOk = true := by
    unfold prepareCheck loadConfig Config.defaults selectRules
    rw [Registry.names_standard]
    decide +kernel
  cases hrun : (prepareCheck .standard ⟨.dir [], []⟩ p.options).run [] with
  | mk prepared log =>
    rw [hrun] at hok
    cases prepared with
    | error e => exact absurd hok Bool.false_ne_true
    | ok plan =>
      have hfiles := (isPlan_of_prepareCheck (congrArg Prod.fst hrun)).input (by decide)
      refine ⟨plan, log, rfl,
        (hcheck _ c arguments p p.options plan log hp rfl hrun rfl rfl (.inl rfl) rfl ?_).2⟩
      rw [hfiles]
      exact fun _ h => absurd h (by simp)

end ScriptLint
