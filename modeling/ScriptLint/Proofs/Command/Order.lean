import ScriptLint.Proofs.Command.ExitCode
import ScriptLint.Proofs.Rule.Selection
import ScriptLint.Proofs.Run.Order

/-!
# The order of a report

A check finds the scripts below a directory and orders them by the paths that lead to them from the
root of the project. The run makes those paths again, from the root as it was given and from the
absolute path of each script. The two agree because a check always has a root
(`projectRoot_ne_nil`), and so the findings come in the order of the paths that they name
(`check_reports_in_order`).
-/

namespace ScriptLint

theorem projectRoot_ne_nil (w : World) (o : CheckOptions) : projectRoot w o ≠ [] := by
  unfold projectRoot
  split_ifs with hroot
  · exact hroot
  · exact List.cons_ne_nil _ _
  · exact Path.clean_ne_nil _

namespace CheckOptions

variable (w : World) (o : CheckOptions)

/-- The search for scripts under a configuration. -/
def searchUnder (c : Config) : Discovery.Search :=
  Discovery.searchOf w (scriptsBase o c (projectRoot w o)) (projectRoot w o) c.patterns c.ignored

variable {w o}

/-- The scripts that are found under a configuration are the results of its search. -/
theorem exists_of_scriptsUnder_eq_ok {c : Config} {files : List Bytes}
    (h : o.scriptsUnder w c = .ok files) :
    ∃ t, w.lookup (Path.render (o.searchUnder w c).base) = .ok t ∧
      files = ((o.searchUnder w c).results t).map
        fun rel => Path.render ((o.searchUnder w c).base ++ rel) :=
  Discovery.discover_eq_ok h

/-- What is found is shown under the path that it was ordered by. -/
theorem display_of_mem_searchUnder (hw : w.IsProper) {c : Config} {t : FileTree} (ht : t.IsProper)
    {rel : List Bytes} (hrel : rel ∈ (o.searchUnder w c).results t) :
    Path.display w.cwd (projectRoot w o)
        (Path.absolute w.cwd (Path.render ((o.searchUnder w c).base ++ rel)))
      = (o.searchUnder w c).display rel :=
  Discovery.display_of_mem_results hw (projectRoot_ne_nil w o) ht hrel

end CheckOptions

/-- A check that is prepared has a plan. -/
theorem isPlan_of_prepareCheck {g : Registry} {w : World} {o : CheckOptions} {plan : CheckPlan}
    (h : ((prepareCheck g w o).run []).1 = .ok plan) : o.IsPlan g w plan := by
  rcases answers_prepareCheck g w o with ⟨plan', hplan', hanswer⟩ | ⟨-, r, hanswer⟩
  · obtain ⟨log, hrun⟩ := hanswer []
    rw [hrun] at h
    obtain rfl := Except.ok.inj h
    exact hplan'
  · obtain ⟨log, hrun⟩ := hanswer []
    rw [hrun] at h
    exact absurd h (by simp)

/-- **A check reports in order.** The scripts that a check finds are shown under the very paths by
which they were ignored and ordered, and no two of them share one. So with any number of workers and
however the run goes, the files of its findings are in the order of these paths component by
component; what is found in one file stands together, in the order in which the rules were selected,
each of them once; and the settings stop none of these runs. -/
theorem check_reports_in_order {w : World} (hw : w.IsProper) {o : CheckOptions} {plan : CheckPlan}
    (hplan : ((prepareCheck .standard w o).run []).1 = .ok plan) {files : List Bytes}
    (hfiles : plan.files = some files) :
    let search := o.searchUnder w plan.runner.config
    ∃ t, w.lookup (Path.render search.base) = .ok t ∧
      files = (search.results t).map (fun rel => Path.render (search.base ++ rel)) ∧
      (search.results t).Pairwise (fun a b => Path.Precedes (search.display a) (search.display b)) ∧
      (∀ rel ∈ search.results t,
        Path.display w.cwd plan.runner.root
            (Path.absolute w.cwd (Path.render (search.base ++ rel))) = search.display rel ∧
        ∀ script, readScript w plan.runner.root (Path.render (search.base ++ rel)) = .ok script →
          script.path = search.display rel) ∧
      (plan.runner.rules.map (·.name)).Nodup ∧
      ∀ (jobs : Int) (s : Schedule), ({ plan.runner with jobs } : Runner).Completes w s files →
        (({ plan.runner with jobs } : Runner).runUnder w s files).crash? = none ∧
        InOrder (plan.runner.rules.map (·.name))
          (({ plan.runner with jobs } : Runner).runUnder w s files).diagnostics := by
  intro search
  have hplan := isPlan_of_prepareCheck hplan
  have hroot : plan.runner.root = projectRoot w o := congrArg (·.root) hplan.runner
  -- A check of the standard input has no files.
  have hinput : o.fromInput = false := by
    cases hinput : o.fromInput with
    | false => rfl
    | true => rw [hplan.input hinput] at hfiles; exact absurd hfiles (by simp)
  obtain ⟨files', hfiles', hfound⟩ := hplan.files hinput
  obtain rfl : files' = files := Option.some.inj (hfiles'.symm.trans hfiles)
  obtain ⟨t, hlookup, hpaths⟩ := CheckOptions.exists_of_scriptsUnder_eq_ok hfound
  have ht : t.IsProper := FileTree.isProper_of_lookup hw hlookup
  have hshown : ∀ rel ∈ search.results t,
      Path.display w.cwd plan.runner.root
        (Path.absolute w.cwd (Path.render (search.base ++ rel))) = search.display rel := by
    intro rel hrel
    rw [hroot]
    exact CheckOptions.display_of_mem_searchUnder hw ht hrel
  have hsorted : (search.results t).Pairwise
      (fun a b => Path.Precedes (search.display a) (search.display b)) :=
    Discovery.Search.results_pairwise (Path.locate_isClean hw.cwd _) ht
  have hstandard : plan.runner.IsStandard := (selectRules_eq_ok hplan.rules).2
  have hnames := nodup_of_selectRules hplan.rules
  refine ⟨t, hlookup, hpaths, hsorted, ?_, hnames, ?_⟩
  · intro rel hrel
    refine ⟨hshown rel hrel, fun script hread => ?_⟩
    rw [path_of_readScript hread, hshown rel hrel]
  · intro jobs s hs
    -- The number of workers is not looked at when the settings are checked.
    have hvalid : ({ plan.runner with jobs } : Runner).validate = .ok () := hplan.settings
    refine ⟨Runner.crash?_runUnder_eq_none w hvalid hplan.isDistinct hs, ?_⟩
    refine Runner.inOrder_runUnder (r := { plan.runner with jobs }) hstandard hnames ?_ hs
    rw [hpaths, List.pairwise_map]
    refine hsorted.imp_of_mem ?_
    intro a b ha hb hlt
    rwa [hshown a ha, hshown b hb]

/-- Two workers on a script in a directory and one beside it, whose name comes first byte by byte
and second component by component. -/
theorem check_reports_in_order_two_scripts :
    let w : World := ⟨.dir [(bytes "scripts", .dir [(bytes "a-b.ahk", .file [0x78]),
      (bytes "a", .dir [(bytes "x.ahk", .file [0x78])])])], []⟩
    let o : CheckOptions :=
      { rules := [bytes "trailing_newline,require_warn_directive"], ruleFile := [], root := [],
        scripts := [], config := [], format := .text, jobs := 2, noColour := false, quiet := false,
        verbose := false, fromInput := false }
    w.IsProper ∧ ∃ plan files, ((prepareCheck .standard w o).run []).1 = .ok plan ∧
      plan.files = some files ∧ InOrder (plan.runner.rules.map (·.name))
        (plan.runner.run w false files).diagnostics := by
  intro w o
  have hw : w.IsProper := by
    refine ⟨.dir _ (by decide) (by decide) ?_, List.forall_mem_nil _⟩
    refine List.forall_mem_singleton.mpr (.dir _ (by decide) (by decide) ?_)
    rw [List.forall_mem_cons, List.forall_mem_singleton]
    refine ⟨.file _, .dir _ (by decide) (by decide) ?_⟩
    exact List.forall_mem_singleton.mpr (.file _)
  have hok : ((prepareCheck .standard w o).run []).1.isOk = true := by
    unfold prepareCheck loadConfig Config.defaults
    rw [Registry.names_standard]
    decide +kernel
  cases hprepared : ((prepareCheck .standard w o).run []).1 with
  | error r =>
    rw [hprepared] at hok
    exact absurd hok Bool.false_ne_true
  | ok plan =>
    obtain ⟨files, hfiles, -⟩ := (isPlan_of_prepareCheck hprepared).files rfl
    obtain ⟨t, -, -, -, -, -, hrun⟩ := check_reports_in_order hw hprepared hfiles
    exact ⟨hw, plan, files, rfl, hfiles, (hrun _ _ (plan.runner.completes_plain w files)).2⟩

end ScriptLint
