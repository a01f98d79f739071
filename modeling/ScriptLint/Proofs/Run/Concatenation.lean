import ScriptLint.Proofs.Run.Schedule

/-!
# A run is the concatenation of its parts

Each file is checked on its own, and each rule on each file: what a run gives is the concatenation,
over the files and then over the rules in order, of what each of them contributes, and nothing that
happens to one file or rule shows in another. The one thing that stops a run short are settings at
which the program stops (`Runner.StopsOn`).
-/

namespace ScriptLint

namespace Runner

variable (r : Runner) (w : World)

/-! ### Uncancelled runs -/

theorem gives_run (paths : List Bytes) :
    (r.run w false paths).Gives (paths.flatMap (r.fileFindings w))
      (paths.flatMap (r.fileErrors w)) :=
  r.gives_runUnder w (uncancelled_plain _) (r.completes_plain w paths)

theorem passesOn_run (paths : List Bytes) :
    (r.run w false paths).PassesOn (paths.flatMap (r.fileFindings w)) :=
  r.passesOn_runUnder w (uncancelled_plain _) (r.completes_plain w paths)

/-- **A run has a result exactly if none of its scripts stops the program.** -/
theorem crash?_run_eq_none_iff (paths : List Bytes) :
    (r.run w false paths).crash? = none ↔
      ∀ path ∈ paths, ∀ s, readScript w r.root path = .ok s → ¬ r.StopsOn s := by
  rw [(r.gives_run w paths).crash?_eq_none_iff]
  exact r.forall_isFatal_fileErrors_iff w paths

/-- A run over one file is what comes of the script in it. -/
theorem run_singleton {path : Bytes} {s : Script} (h : readScript w r.root path = .ok s) :
    r.run w false [path] = .logged r.rulesLine ++ r.checkSource s.path s.text := by
  have hone : r.isParallel [path] = false := by simp [isParallel]
  have hcheck : r.checkPath w true path = r.checkScript true s := by rw [checkPath, h]
  rw [run, runUnder, hone]
  show .logged r.rulesLine ++ (r.checkPath w true path ++ {}) = _
  rw [Outcome.append_empty, hcheck]
  rfl

/-- **A run is the concatenation of what each rule gives on each file.** Unless the settings of a
rule that is on stop the program, a run has a result. Its findings are those of the rules, each
configured by its entry for the file at hand, and passed on in the same order; a file that cannot be
read gives one error and no findings, and so does a rule that cannot be configured, and neither
shows in what follows. So a run over some files and then others is one run after the other, and a
text in no file is checked like a file that holds it. -/
theorem run_is_concatenation (r : Runner) (w : World) :
    (∀ paths : List Bytes, (r.run w false paths).crash? = none ↔
      ∀ path ∈ paths, ∀ s, readScript w r.root path = .ok s → ¬ r.StopsOn s) ∧
    (∀ paths : List Bytes, (r.run w false paths).crash? = none →
      (r.run w false paths).diagnostics = paths.flatMap (r.fileFindings w) ∧
        (r.run w false paths).errors = paths.flatMap (r.fileErrors w) ∧
        (r.run w false paths).emitted = (r.run w false paths).diagnostics) ∧
    (∀ path e, readScript w r.root path = .error e →
      r.fileFindings w path = [] ∧ r.fileErrors w path = [.read e]) ∧
    (∀ path s, readScript w r.root path = .ok s →
      r.fileFindings w path = r.rules.flatMap (r.ruleFindings s) ∧
        r.fileErrors w path = r.rules.flatMap (r.ruleErrors s)) ∧
    (∀ s rule, (r.entry s rule).enabled = false →
      r.ruleFindings s rule = [] ∧ r.ruleErrors s rule = []) ∧
    (∀ s rule e, (r.entry s rule).enabled = true →
      rule.configure (r.entry s rule) = .error e →
        r.ruleFindings s rule = [] ∧ r.ruleErrors s rule = [.settings e]) ∧
    (∀ s rule configured, (r.entry s rule).enabled = true →
      rule.configure (r.entry s rule) = .ok configured →
        r.ruleFindings s rule = configured.check s ∧ r.ruleErrors s rule = []) ∧
    (∀ xs ys : List Bytes, (r.run w false (xs ++ ys)).crash? = none →
      (r.run w false xs).crash? = none ∧ (r.run w false ys).crash? = none ∧
        (r.run w false (xs ++ ys)).diagnostics
          = (r.run w false xs).diagnostics ++ (r.run w false ys).diagnostics ∧
        (r.run w false (xs ++ ys)).errors
          = (r.run w false xs).errors ++ (r.run w false ys).errors ∧
        (r.run w false (xs ++ ys)).emitted
          = (r.run w false xs).emitted ++ (r.run w false ys).emitted) ∧
    (∀ path s, readScript w r.root path = .ok s →
      (r.checkSource s.path s.text).crash? = (r.run w false [path]).crash? ∧
        (r.checkSource s.path s.text).diagnostics = (r.run w false [path]).diagnostics ∧
        (r.checkSource s.path s.text).errors = (r.run w false [path]).errors ∧
        (r.checkSource s.path s.text).emitted = (r.run w false [path]).emitted) := by
  refine ⟨r.crash?_run_eq_none_iff w, ?_, ?_, ?_, ?_, ?_, ?_, ?_, ?_⟩
  · intro paths h
    exact ⟨(r.gives_run w paths).diagnostics h, (r.gives_run w paths).errors h,
      ((r.passesOn_run w paths).all h).trans ((r.gives_run w paths).diagnostics h).symm⟩
  · intro path e h
    simp only [fileFindings, fileErrors, h, and_self]
  · intro path s h
    simp only [fileFindings, fileErrors, h, and_self]
  · intro s rule hoff
    simp only [ruleFindings, ruleErrors, hoff, Bool.false_eq_true, if_false, and_self]
  · intro s rule e hon he
    simp only [ruleFindings, ruleErrors, hon, he, if_true, and_self]
  · intro s rule configured hon hok
    simp only [ruleFindings, ruleErrors, hon, hok, if_true, and_self]
  · -- The parts of a run are lists over the files, so they fall apart where the files do.
    intro xs ys h
    have hparts := (r.crash?_run_eq_none_iff w (xs ++ ys)).mp h
    have hxs : (r.run w false xs).crash? = none := (r.crash?_run_eq_none_iff w xs).mpr
      fun path hpath => hparts path (List.mem_append_left ys hpath)
    have hys : (r.run w false ys).crash? = none := (r.crash?_run_eq_none_iff w ys).mpr
      fun path hpath => hparts path (List.mem_append_right xs hpath)
    refine ⟨hxs, hys, ?_, ?_, ?_⟩
    · rw [(r.gives_run w _).diagnostics h, (r.gives_run w _).diagnostics hxs,
        (r.gives_run w _).diagnostics hys, List.flatMap_append]
    · rw [(r.gives_run w _).errors h, (r.gives_run w _).errors hxs, (r.gives_run w _).errors hys,
        List.flatMap_append]
    · rw [(r.passesOn_run w _).all h, (r.passesOn_run w _).all hxs, (r.passesOn_run w _).all hys,
        List.flatMap_append]
  · intro path s h
    -- What a text gives does not depend on where it is read, and the line about the rules shows in
    -- the log only.
    obtain ⟨hcrash, hfindings, herrors, hemitted⟩ :=
      Outcome.logged_append r.rulesLine (r.checkSource s.path s.text)
    rw [r.run_singleton w h]
    exact ⟨hcrash.symm, hfindings.symm, herrors.symm, hemitted.symm⟩

/-- A run over a file with a finding, a missing file and a rule that is off. -/
theorem run_is_concatenation_mixed :
    let r : Runner :=
      { config := { rules := [([0x71], {})] }
        rules := [.always [0x71] [0x6D], .always [0x72] [0x6D]] }
    let w : World := ⟨.dir [([0x61], .file [])], []⟩
    let paths : List Bytes := [[0x2F, 0x62], [0x2F, 0x61]]
    (r.run w false paths).crash? = none ∧
      (r.run w false paths).diagnostics = paths.flatMap (r.fileFindings w) ∧
      (r.run w false paths).errors = paths.flatMap (r.fileErrors w) ∧
      (r.run w false paths).emitted = (r.run w false paths).diagnostics := by
  intro r w paths
  have h : (r.run w false paths).crash? = none := by decide
  exact ⟨h, (run_is_concatenation r w).2.1 paths h⟩

/-- A version that is no text stops the program, although another rule could still be checked. -/
theorem run_crashes_on_version_bytes :
    let settings : Settings := [(bytes "version", .text [0xFF])]
    let r : Runner :=
      { config := { rules := [(versionRuleName, { enabled := true, settings := some settings })] }
        rules := [RequireVersion.rule, TrailingNewline.rule] }
    let w : World := ⟨.dir [([0x61], .file [0x78])], []⟩
    (r.run w false [[0x2F, 0x61]]).crash?.isSome = true ∧
      (r.fileFindings w [0x2F, 0x61]).length = 1 := by
  decide

end Runner

end ScriptLint
