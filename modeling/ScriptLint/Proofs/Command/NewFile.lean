import ScriptLint.Proofs.Command.ExitCode
import ScriptLint.Proofs.Command.Order
import ScriptLint.Proofs.NewFile

/-!
# A check beside a new file

What a check prints and the code it ends with come from what it finds in the scripts that can be
read and from whether there are others. So two worlds in which its plans come to the same
(`CheckOptions.SamePlans`) are told apart by neither (`runCheck_congr`). A file that is added to a
world leaves the plans alike if the configurations come to the same, and if the check has nothing to
do with the file otherwise (`CheckOptions.samePlans_addsFile`).
-/

namespace ScriptLint

/-! ### Outcomes that come to the same -/

namespace CheckPlan

/-- Whether plans in two worlds come to the same: the same scripts can be read, and in each of them
the same is found. -/
structure ActsAs (plan : CheckPlan) (w : World) (plan' : CheckPlan) (w' : World) : Prop where
  scripts : ∀ input, (plan'.scripts w' input).map Except.toOption
    = (plan.scripts w input).map Except.toOption
  findings : plan'.runner.findings = plan.runner.findings

variable {plan plan' : CheckPlan} {w w' : World}

theorem fails_iff (plan : CheckPlan) (w : World) (input : Input) :
    plan.Fails w input ↔ none ∈ (plan.scripts w input).map Except.toOption := by
  rw [List.mem_map]
  constructor
  · rintro ⟨e, he⟩
    exact ⟨.error e, he, rfl⟩
  · rintro ⟨x, hx, hnone⟩
    cases x with
    | error e => exact ⟨e, hx⟩
    | ok s => cases hnone

theorem ActsAs.diagnostics_eq {g : Registry} {o : CheckOptions} (h : plan.ActsAs w plan' w')
    (hplan : o.IsPlan g w plan) (hplan' : o.IsPlan g w' plan') (input : Input) :
    (plan'.outcome w' input).diagnostics = (plan.outcome w input).diagnostics := by
  -- A script that cannot be read adds nothing, so the others are all that counts.
  have hread (r : Runner) (xs : List (Except RunError Script)) :
      xs.flatMap r.findings
        = (xs.map Except.toOption).flatMap fun x => x.elim [] fun s => r.findings (.ok s) := by
    rw [List.flatMap_map]
    refine List.flatMap_congr fun x _ => ?_
    cases x <;> rfl
  rw [diagnostics_outcome w' input hplan'.settings hplan'.isDistinct,
    diagnostics_outcome w input hplan.settings hplan.isDistinct, hread, hread, h.scripts,
    h.findings]

theorem ActsAs.errors_eq_nil_iff {g : Registry} {o : CheckOptions} (h : plan.ActsAs w plan' w')
    (hplan : o.IsPlan g w plan) (hplan' : o.IsPlan g w' plan') (input : Input) :
    (plan'.outcome w' input).errors = [] ↔ (plan.outcome w input).errors = [] := by
  refine not_iff_not.mp ?_
  rw [← ne_eq, ← ne_eq, errors_outcome_ne_nil_iff w' input hplan'.settings hplan'.isDistinct,
    errors_outcome_ne_nil_iff w input hplan.settings hplan.isDistinct, fails_iff, fails_iff,
    h.scripts]

end CheckPlan

/-! ### Replies -/

/-- The code and the report are told by the findings and by whether anything went wrong. -/
theorem concludeCheck_congr (o : CheckOptions) (colours : Bool) {out out' : Outcome}
    (hfound : out'.diagnostics = out.diagnostics) (hemitted : out'.emitted = out.emitted)
    (herrors : out'.errors = [] ↔ out.errors = []) (s : Sink) :
    (concludeCheck o colours out' s).1 = (concludeCheck o colours out s).1 ∧
      (concludeCheck o colours out' s).2.1 = (concludeCheck o colours out s).2.1 := by
  have hempty : out'.errors.isEmpty = out.errors.isEmpty := by
    rw [Bool.eq_iff_iff, List.isEmpty_iff, List.isEmpty_iff, herrors]
  unfold concludeCheck
  simp only [hfound, hemitted, hempty]
  split_ifs
  · exact ⟨rfl, rfl⟩
  · cases o.format with
    | text =>
      obtain ⟨s', accepted⟩ := ReportFormat.text.report (colours && !o.noColour) out.emitted s
      cases accepted <;> exact ⟨rfl, rfl⟩
    | json =>
      obtain ⟨s', accepted⟩ := ReportFormat.json.report false out.diagnostics s
      cases accepted <;> exact ⟨rfl, rfl⟩

/-- Whether a check has a plan in both of two worlds or in neither, and its plans come to the
same. -/
structure CheckOptions.SamePlans (g : Registry) (w w' : World) (o : CheckOptions) : Prop where
  exists_iff : (∃ plan, o.IsPlan g w' plan) ↔ ∃ plan, o.IsPlan g w plan
  actsAs : ∀ {plan plan'}, o.IsPlan g w plan → o.IsPlan g w' plan' → plan.ActsAs w plan' w'

/-- **A check prints the same and ends with the same code in worlds where its plans come to the
same.** -/
theorem runCheck_congr {g : Registry} {w w' : World} {arguments : List Bytes}
    (hsame : ∀ p, Flag.parse checkFlags arguments = .ok p → ¬ p.Misused →
      p.options.SamePlans g w w') (c : Call) :
    (runCheck g w' c arguments).stdout = (runCheck g w c arguments).stdout ∧
      (runCheck g w' c arguments).code = (runCheck g w c arguments).code := by
  unfold runCheck
  obtain ⟨stop, hstop⟩ | ⟨p, hp⟩ := exists_error_or_ok (Flag.parse checkFlags arguments)
  · rw [hstop]
    cases stop <;> exact ⟨rfl, rfl⟩
  rw [hp]
  obtain ⟨r, hr⟩ | ⟨o, ho⟩ := exists_error_or_ok (CheckOptions.ofParsed p)
  · simp only [hr, and_self]
  have hmis := Parsed.not_misused_of_ofParsed ho
  obtain rfl : p.options = o :=
    Except.ok.inj ((Parsed.ofParsed_of_not_misused hmis).symm.trans ho)
  have hsame := hsame p hp hmis
  -- There is a plan in both worlds or in neither, so two of the four cases cannot be.
  rcases answers_prepareCheck g w p.options with ⟨plan, hplan, hanswer⟩ | ⟨hrefused, r, hanswer⟩
  · obtain ⟨log, hrun⟩ := hanswer []
    rcases answers_prepareCheck g w' p.options with ⟨plan', hplan', hanswer'⟩ | ⟨hrefused', -⟩
    · obtain ⟨log', hrun'⟩ := hanswer' []
      have hacts := hsame.actsAs hplan hplan'
      have hfound := hacts.diagnostics_eq hplan hplan' c.input
      have hemitted : (plan'.outcome w' c.input).emitted = (plan.outcome w c.input).emitted := by
        rw [CheckPlan.emitted_outcome w' c.input hplan'.settings hplan'.isDistinct,
          CheckPlan.emitted_outcome w c.input hplan.settings hplan.isDistinct, hfound]
      obtain ⟨hcode, hsink⟩ := concludeCheck_congr p.options c.colours hfound hemitted
        (hacts.errors_eq_nil_iff hplan hplan' c.input) { limit := c.outputLimit }
      simp only [ho, hrun, hrun']
      exact ⟨hsink, hcode⟩
    · obtain ⟨plan', hplan'⟩ := hsame.exists_iff.mpr ⟨plan, hplan⟩
      exact absurd hrefused' hplan'.not_unprepared
  · obtain ⟨log, hrun⟩ := hanswer []
    rcases answers_prepareCheck g w' p.options with ⟨plan', hplan', -⟩ | ⟨-, r', hanswer'⟩
    · obtain ⟨plan, hplan⟩ := hsame.exists_iff.mp ⟨plan', hplan'⟩
      exact absurd hrefused hplan.not_unprepared
    · obtain ⟨log', hrun'⟩ := hanswer' []
      simp only [ho, hrun, hrun', and_self]

/-- The code of a check, from the scripts that are found and what comes of them. -/
theorem code_runCheck_of_found {g : Registry} {w : World} {c : Call} {arguments : List Bytes}
    {p : Parsed} {plan : CheckPlan} {files : List Bytes} (hout : c.outputLimit = none)
    (hp : Flag.parse checkFlags arguments = .ok p) (hok : (CheckOptions.ofParsed p).isOk = true)
    (hinput : p.options.fromInput = false)
    (hplan : ((prepareCheck g w p.options).run []).1 = .ok plan)
    (hfound : p.options.scriptsUnder w plan.runner.config = .ok files) :
    (runCheck g w c arguments).code
      = exitCode (!(plan.runner.run w false files).diagnostics.isEmpty)
        (!(plan.runner.run w false files).errors.isEmpty) := by
  obtain ⟨r, hr⟩ | ⟨o, ho⟩ := exists_error_or_ok (CheckOptions.ofParsed p)
  · rw [hr] at hok
    cases hok
  obtain ⟨files', hfiles, hfound'⟩ := (isPlan_of_prepareCheck hplan).files hinput
  obtain rfl := Except.ok.inj (hfound.symm.trans hfound')
  rw [code_runCheck hout hp (Parsed.not_misused_of_ofParsed ho), hplan]
  simp only [CheckPlan.outcome, hfiles]

/-! ### What a check reads beside a new file -/

theorem readScript_eq_ok_iff {w : World} {root p : Bytes} {s : Script} :
    readScript w root p = .ok s ↔ ∃ data text, w.readFile p = .ok data ∧
      decodeScript data = .ok text ∧
      s = ⟨Path.display w.cwd root (Path.absolute w.cwd p), text⟩ := by
  unfold readScript
  cases w.readFile p with
  | error e => simp
  | ok data => cases hdecode : decodeScript data <;> simp [hdecode, eq_comm]

theorem Selection.readList_eq_ok_iff {w : World} {p : Bytes} {names : List Bytes} :
    readList w p = .ok names ↔ ∃ data, w.readFile p = .ok data ∧ parseList data = .ok names := by
  unfold readList
  cases w.readFile p with
  | error e => simp
  | ok data => simp [mapError_eq_ok_iff]

section Reading

variable {w w' : World} {place : List Bytes} {content p : Bytes}
  (h : w.AddsFile w' place content) (hw : w.IsProper)

include h hw

theorem readScript_addsFile (hp : Path.locate w.cwd p ≠ place) (root : Bytes) (s : Script) :
    readScript w' root p = .ok s ↔ readScript w root p = .ok s := by
  simp only [readScript_eq_ok_iff, h.readFile_eq_ok_iff hw hp, h.cwd]

/-- The same rules are selected, unless the new file is the rule file. -/
theorem selectRules_addsFile {g : Registry} {file : Bytes}
    (hfile : file ≠ [] → Path.locate w.cwd file ≠ place) (arguments : List Bytes)
    (rules : List Rule) :
    selectRules g w' file arguments = .ok rules ↔ selectRules g w file arguments = .ok rules := by
  unfold selectRules
  by_cases hnone : file = []
  · rw [if_pos hnone, if_pos hnone]
  · simp only [if_neg hnone, bind_eq_ok_iff, mapError_eq_ok_iff, Selection.readList_eq_ok_iff,
      h.readFile_eq_ok_iff hw (hfile hnone)]

end Reading

/-! ### Plans beside a new file -/

/-- Whether configurations come to the same for the rules of a registry. -/
structure Config.ActsAs (g : Registry) (c c' : Config) : Prop where
  scripts : c'.scripts = c.scripts
  patterns : c'.patterns = c.patterns
  ignored : c'.ignored = c.ignored
  sound : c'.validate g = .ok () ↔ c.validate g = .ok ()
  settings : ∀ r : Runner, (∀ rule ∈ r.rules, rule ∈ g.rules) →
    (({ r with config := c' } : Runner).validate = .ok () ↔
      ({ r with config := c } : Runner).validate = .ok ())
  findings : ∀ r : Runner, (∀ rule ∈ r.rules, rule ∈ g.rules) →
    ({ r with config := c' } : Runner).findings = ({ r with config := c } : Runner).findings

namespace CheckOptions

variable {g : Registry} {w w' : World} {o : CheckOptions}

/-- A check that has a configuration has a plan exactly if each part of it is in order. -/
theorem exists_isPlan_iff {c : Config} (hc : o.HasConfig g w c) :
    (∃ plan, o.IsPlan g w plan) ↔ c.validate g = .ok () ∧
      ∃ rules, selectRules g w o.ruleFile o.rules = .ok rules ∧
        (o.runner w c rules).validate = .ok () ∧
        (o.fromInput = false → ∃ files, o.scriptsUnder w c = .ok files) := by
  constructor
  · rintro ⟨plan, hplan⟩
    obtain rfl := hc.unique hplan.config
    refine ⟨hplan.sound, plan.runner.rules, hplan.rules, ?_, ?_⟩
    · rw [← hplan.runner]
      exact hplan.settings
    · intro hinput
      obtain ⟨files, -, hfiles⟩ := hplan.files hinput
      exact ⟨files, hfiles⟩
  · rintro ⟨hsound, rules, hrules, hsettings, hfiles⟩
    cases hinput : o.fromInput with
    | true =>
      exact ⟨⟨o.runner w c rules, none⟩, hc, hsound, hrules, rfl, hsettings, fun _ => rfl,
        by simp [hinput]⟩
    | false =>
      obtain ⟨files, hfiles⟩ := hfiles hinput
      exact ⟨⟨o.runner w c rules, some files⟩, hc, hsound, hrules, rfl, hsettings,
        by simp [hinput], fun _ => ⟨files, rfl, hfiles⟩⟩

/-- The scripts that are found are files. -/
theorem exists_file_of_mem_scriptsUnder (hw : w.IsProper) {c : Config} {files : List Bytes}
    (hfiles : o.scriptsUnder w c = .ok files) {path : Bytes} (hpath : path ∈ files) :
    ∃ content, w.tree.at? (Path.locate w.cwd path) = some (.file content) := by
  obtain ⟨t, hlookup, rfl⟩ := exists_of_scriptsUnder_eq_ok hfiles
  obtain ⟨rel, hrel, rfl⟩ := List.mem_map.mp hpath
  have ht := FileTree.isProper_of_lookup hw hlookup
  have hbase : Path.IsClean (o.searchUnder w c).base := Path.locate_isClean hw.cwd _
  have hplace := World.at?_of_lookup hw.cwd hlookup
  rw [Path.locate_render hbase] at hplace
  rw [Path.locate_render (hbase.append (Discovery.Search.isClean_of_mem_results ht hrel)),
    FileTree.at?_append, hplace]
  exact ((Discovery.Search.mem_results_iff ht rel).mp hrel).2.1

section Adding

variable {place : List Bytes} {content : Bytes} (h : w.AddsFile w' place content) (hw : w.IsProper)
  (hroot : projectRoot w' o = projectRoot w o)

include h hw

/-- The same scripts can be read, and they read the same. -/
theorem toOption_scripts_addsFile {plan plan' : CheckPlan} (hplan : o.IsPlan g w plan)
    (hfiles : plan'.files = plan.files) (hroots : plan'.runner.root = plan.runner.root)
    (input : Input) :
    (plan'.scripts w' input).map Except.toOption = (plan.scripts w input).map Except.toOption := by
  unfold CheckPlan.scripts
  rw [hfiles, hroots]
  cases hinput : o.fromInput with
  | true => rw [hplan.input hinput]
  | false =>
    obtain ⟨files, hfiles, hfound⟩ := hplan.files hinput
    rw [hfiles]
    dsimp only
    rw [List.map_map, List.map_map]
    refine List.map_congr_left fun path hpath => ?_
    -- What was found is something old, so it is not at the place of the new file.
    have helsewhere : Path.locate w.cwd path ≠ place := by
      intro hplace
      obtain ⟨found, hcontent⟩ := exists_file_of_mem_scriptsUnder hw hfound hpath
      rw [hplace, h.fresh] at hcontent
      cases hcontent
    refine toOption_eq_iff.mpr fun s => ?_
    rw [mapError_eq_ok_iff, mapError_eq_ok_iff, readScript_addsFile h hw helsewhere]

include hroot

theorem scriptsUnder_addsFile {c c' : Config} (hacts : c.ActsAs g c')
    (hstart : (o.searchUnder w c).base ≠ place) (htakes : ¬ (o.searchUnder w c).Takes place)
    (files : List Bytes) :
    o.scriptsUnder w' c' = .ok files ↔ o.scriptsUnder w c = .ok files := by
  have hbase : scriptsBase o c' = scriptsBase o c := by
    funext root
    rw [scriptsBase, scriptsBase, hacts.scripts]
  rw [scriptsUnder, scriptsUnder, hroot, hbase, hacts.patterns, hacts.ignored]
  refine Discovery.discover_addsFile h hw hstart ?_ files
  exact htakes

/-- **A file that a check has nothing to do with leaves its plans alike**: it does not change where
the root is and what the configuration comes to, it is not the rule file, and the search for scripts
neither starts at it nor takes it. -/
theorem samePlans_addsFile (hexists : (∃ c, o.HasConfig g w' c) ↔ ∃ c, o.HasConfig g w c)
    (hconfig : ∀ {c c'}, o.HasConfig g w c → o.HasConfig g w' c' → c.ActsAs g c')
    (hfile : o.ruleFile ≠ [] → Path.locate w.cwd o.ruleFile ≠ place)
    (hsearch : o.fromInput = false → ∀ c, o.HasConfig g w c →
      (o.searchUnder w c).base ≠ place ∧ ¬ (o.searchUnder w c).Takes place) :
    o.SamePlans g w w' := by
  have hselect (rules : List Rule) := selectRules_addsFile h hw hfile o.rules (g := g) rules
  have hscripts {c c' : Config} (hc : o.HasConfig g w c) (hc' : o.HasConfig g w' c')
      (hinput : o.fromInput = false) (files : List Bytes) :
      o.scriptsUnder w' c' = .ok files ↔ o.scriptsUnder w c = .ok files := by
    obtain ⟨hstart, htakes⟩ := hsearch hinput c hc
    exact scriptsUnder_addsFile h hw hroot (hconfig hc hc') hstart htakes files
  refine ⟨?_, ?_⟩
  · by_cases hsome : ∃ c, o.HasConfig g w c
    · obtain ⟨c', hc'⟩ := hexists.mpr hsome
      obtain ⟨c, hc⟩ := hsome
      rw [exists_isPlan_iff hc', exists_isPlan_iff hc]
      refine and_congr (hconfig hc hc').sound (exists_congr fun rules => ?_)
      rw [hselect]
      refine and_congr_right fun hrules => and_congr ?_ ?_
      · exact (hconfig hc hc').settings (o.runner w c rules) (selectRules_eq_ok hrules).2
      · exact forall_congr' fun hinput => exists_congr (hscripts hc hc' hinput)
    · exact iff_of_false (fun ⟨plan, hplan⟩ => hsome (hexists.mp ⟨_, hplan.config⟩))
        fun ⟨plan, hplan⟩ => hsome ⟨_, hplan.config⟩
  · -- Two plans are made of the same rules and the same files, and the configurations act alike.
    intro plan plan' hplan hplan'
    have hrules : plan'.runner.rules = plan.runner.rules :=
      Except.ok.inj (((hselect _).mpr hplan.rules).symm.trans hplan'.rules).symm
    have hfiles : plan'.files = plan.files := by
      cases hinput : o.fromInput with
      | true => rw [hplan.input hinput, hplan'.input hinput]
      | false =>
        obtain ⟨files, hfiles, hfound⟩ := hplan.files hinput
        obtain ⟨files', hfiles', hfound'⟩ := hplan'.files hinput
        rw [hscripts hplan.config hplan'.config hinput, hfound] at hfound'
        rw [hfiles, hfiles', Except.ok.inj hfound']
    have hroots : plan'.runner.root = plan.runner.root := by
      rw [hplan'.runner, hplan.runner]
      exact hroot
    refine ⟨toOption_scripts_addsFile h hw hplan hfiles hroots, ?_⟩
    have hfindings := (hconfig hplan.config hplan'.config).findings
      (o.runner w plan.runner.config plan.runner.rules) (selectRules_eq_ok hplan.rules).2
    rw [hplan'.runner, hplan.runner, hrules]
    exact hfindings

end Adding

end CheckOptions

end ScriptLint
