import ScriptLint.Proofs.Command.Options
import ScriptLint.Proofs.Discovery
import ScriptLint.Proofs.Except

/-!
# What a check is prepared from

A check is refused for one of several reasons, each of which has a case of its own in
`CheckOptions.Unprepared`; without any of them it comes down to one plan (`CheckOptions.IsPlan`).
`answers_prepareCheck` says that preparing a check gives the plan or a refusal accordingly, whatever
is in the log. The preparation reads two files at most, and of the others it sees the names only
(`prepareCheck_congr`); and options that ask for the same work come down to the same plan, the
number of workers apart (`prepareCheck_of_sameWork`).
-/

namespace ScriptLint

/-! ### Steps of the preparation -/

namespace Preparing

variable {α β ε : Type} {m : Preparing α} {f : α → Preparing β} {a : α} {b : Except Refusal β}

/-- A step of the preparation answers the same whatever stands in the log. -/
def Answers (m : Preparing α) (x : Except Refusal α) : Prop :=
  ∀ log, ∃ log', m.run log = (x, log')

theorem answers_pure (a : α) : Answers (pure a) (.ok a) := fun log => ⟨log, rfl⟩

theorem answers_note (line : Bytes) : Answers (note line) (.ok ()) :=
  fun log => ⟨log ++ [line], rfl⟩

theorem answers_lift_ok {x : Except ε α} (h : x = .ok a) (refuse : ε → Refusal) :
    Answers (lift refuse x) (.ok a) := by
  rw [h]
  exact fun log => ⟨log, rfl⟩

theorem answers_lift_error {x : Except ε α} {e : ε} (h : x = .error e) (refuse : ε → Refusal) :
    Answers (lift refuse x) (.error (refuse e)) := by
  rw [h]
  exact fun log => ⟨log, rfl⟩

/-- What follows a step that gives something. -/
theorem Answers.bind (hm : Answers m (.ok a)) (hf : Answers (f a) b) : Answers (m >>= f) b := by
  intro log
  obtain ⟨between, hm⟩ := hm log
  obtain ⟨log', hf⟩ := hf between
  refine ⟨log', ?_⟩
  show (ExceptT.bindCont f (m.run log).1).run (m.run log).2 = (b, log')
  rw [hm]
  exact hf

/-- Nothing follows a step that refuses. -/
theorem Answers.bind_error {r : Refusal} (hm : Answers m (.error r)) (f : α → Preparing β) :
    Answers (m >>= f) (.error r) := by
  intro log
  obtain ⟨log', hm⟩ := hm log
  refine ⟨log', ?_⟩
  show (ExceptT.bindCont f (m.run log).1).run (m.run log).2 = (.error r, log')
  rw [hm]
  rfl

theorem run_map (h : α → β) (m : Preparing α) (log : List Bytes) :
    (h <$> m).run log = ((m.run log).1.map h, (m.run log).2) := by
  rw [ExceptT.run_map]
  rfl

end Preparing

/-! ### Plans and refusals -/

namespace CheckOptions

variable (g : Registry) (w : World) (o : CheckOptions)

/-- Whether a configuration is the one to check under: the defaults, with the configuration file on
top of them if there is one. -/
def HasConfig (c : Config) : Prop :=
  (configPath w o = [] ∧ c = (Config.defaults g).merge none) ∨
    (configPath w o ≠ [] ∧ ∃ loaded, Config.load w (configPath w o) = .ok loaded ∧
      c = (Config.defaults g).merge (some loaded))

/-- The runner for a configuration and some rules. -/
def runner (c : Config) (rules : List Rule) : Runner where
  config := c
  rules := rules
  root := projectRoot w o
  jobs := if o.jobs = 0 then c.jobs else o.jobs

/-- The scripts that are found under a configuration. -/
def scriptsUnder (c : Config) : Except Discovery.Error (List Bytes) :=
  Discovery.discover w (scriptsBase o c (projectRoot w o)) (projectRoot w o) (some c.patterns)
    c.ignored

/-- Why a check with options that are understood does not come about. -/
inductive Unprepared : Prop where
  | config {e : Config.LoadError} (hpath : configPath w o ≠ [])
    (h : Config.load w (configPath w o) = .error e) : Unprepared
  | problem {c : Config} {p : Config.Problem} (hc : o.HasConfig g w c)
    (h : c.validate g = .error p) : Unprepared
  | selection {r : Refusal} (h : selectRules g w o.ruleFile o.rules = .error r) : Unprepared
  | settings {c : Config} {rules : List Rule} {e : ConfigureError} (hc : o.HasConfig g w c)
    (hrules : selectRules g w o.ruleFile o.rules = .ok rules)
    (h : (o.runner w c rules).validate = .error e) : Unprepared
  | discovery {c : Config} {e : Discovery.Error} (hinput : o.fromInput = false)
    (hc : o.HasConfig g w c) (h : o.scriptsUnder w c = .error e) : Unprepared

/-- The plan of a check: a configuration without problems, the selected rules, whose settings have
passed, and the scripts that are found, unless it is about the standard input. -/
structure IsPlan (plan : CheckPlan) : Prop where
  config : o.HasConfig g w plan.runner.config
  sound : plan.runner.config.validate g = .ok ()
  rules : selectRules g w o.ruleFile o.rules = .ok plan.runner.rules
  runner : plan.runner = o.runner w plan.runner.config plan.runner.rules
  settings : plan.runner.validate = .ok ()
  input : o.fromInput = true → plan.files = none
  files : o.fromInput = false →
    ∃ files, plan.files = some files ∧ o.scriptsUnder w plan.runner.config = .ok files

variable {g w o}

theorem HasConfig.unique {c c' : Config} (h : o.HasConfig g w c) (h' : o.HasConfig g w c') :
    c = c' := by
  rcases h with ⟨hnone, rfl⟩ | ⟨hsome, loaded, hload, rfl⟩
  · rcases h' with ⟨-, rfl⟩ | ⟨hsome, -⟩
    · rfl
    · exact absurd hnone hsome
  · rcases h' with ⟨hnone, -⟩ | ⟨-, loaded', hload', rfl⟩
    · exact absurd hnone hsome
    · rw [hload] at hload'
      rw [Except.ok.inj hload']

/-- A check that has a plan is refused for none of the reasons. -/
theorem IsPlan.not_unprepared {plan : CheckPlan} (hplan : o.IsPlan g w plan) :
    ¬ o.Unprepared g w := by
  intro h
  cases h with
  | config hpath h =>
    rcases hplan.config with ⟨hnone, -⟩ | ⟨-, loaded, hload, -⟩
    · exact hpath hnone
    · rw [hload] at h
      exact absurd h (by simp)
  | problem hc h =>
    rw [hc.unique hplan.config, hplan.sound] at h
    exact absurd h (by simp)
  | selection h =>
    rw [hplan.rules] at h
    exact absurd h (by simp)
  | settings hc hrules h =>
    rw [hplan.rules] at hrules
    rw [hc.unique hplan.config, ← Except.ok.inj hrules, ← hplan.runner, hplan.settings] at h
    exact absurd h (by simp)
  | discovery hinput hc h =>
    obtain ⟨files, -, hfiles⟩ := hplan.files hinput
    rw [hc.unique hplan.config, hfiles] at h
    exact absurd h (by simp)

end CheckOptions

/-! ### The answer of the preparation -/

section Answer

open Preparing CheckOptions

variable (g : Registry) (w : World) (o : CheckOptions)

theorem answers_loadFile :
    (∃ loaded, o.HasConfig g w ((Config.defaults g).merge loaded) ∧
      Answers (loadFile w o) (.ok loaded)) ∨
    (o.Unprepared g w ∧ ∃ r, Answers (loadFile w o) (.error r)) := by
  unfold loadFile
  by_cases hpath : configPath w o = []
  · rw [if_pos hpath]
    exact .inl ⟨none, .inl ⟨hpath, rfl⟩, (answers_note _).bind (answers_pure none)⟩
  · rw [if_neg hpath]
    obtain ⟨e, hload⟩ | ⟨loaded, hload⟩ := exists_error_or_ok (Config.load w (configPath w o))
    · have hlift := answers_lift_error hload Refusal.config
      exact .inr ⟨.config hpath hload, .config e, hlift.bind_error _⟩
    · have hlift := answers_lift_ok hload Refusal.config
      exact .inl ⟨some loaded, .inr ⟨hpath, loaded, hload, rfl⟩,
        hlift.bind ((answers_note _).bind (answers_pure (some loaded)))⟩

theorem answers_loadConfig :
    (∃ c, o.HasConfig g w c ∧ c.validate g = .ok () ∧
      Answers (loadConfig g w o) (.ok (c, projectRoot w o))) ∨
    (o.Unprepared g w ∧ ∃ r, Answers (loadConfig g w o) (.error r)) := by
  unfold loadConfig
  rcases answers_loadFile g w o with ⟨loaded, hc, hfile⟩ | ⟨hrefused, r, hfile⟩
  · obtain ⟨p, hsound⟩ | ⟨⟨⟩, hsound⟩ :=
      exists_error_or_ok (((Config.defaults g).merge loaded).validate g)
    · have hlift := answers_lift_error hsound Refusal.problem
      exact .inr ⟨.problem hc hsound, .problem p, hfile.bind (hlift.bind_error _)⟩
    · have hlift := answers_lift_ok hsound Refusal.problem
      exact .inl ⟨_, hc, hsound, hfile.bind (hlift.bind (answers_pure _))⟩
  · exact .inr ⟨hrefused, r, hfile.bind_error _⟩

/-- **A check comes down to a plan, or it is refused.** -/
theorem answers_prepareCheck :
    (∃ plan, o.IsPlan g w plan ∧ Answers (prepareCheck g w o) (.ok plan)) ∨
    (o.Unprepared g w ∧ ∃ r, Answers (prepareCheck g w o) (.error r)) := by
  unfold prepareCheck
  -- The steps in turn: one that refuses is the end, and one that gives something leads to the next.
  obtain ⟨c, hc, hsound, hconfig⟩ | ⟨hrefused, r, hconfig⟩ := answers_loadConfig g w o
  swap
  · exact .inr ⟨hrefused, r, hconfig.bind_error _⟩
  obtain ⟨r, hrules⟩ | ⟨rules, hrules⟩ := exists_error_or_ok (selectRules g w o.ruleFile o.rules)
  · have hselect := answers_lift_error hrules id
    exact .inr ⟨.selection hrules, r, hconfig.bind (hselect.bind_error _)⟩
  have hselect := answers_lift_ok hrules id
  obtain ⟨e, hvalid⟩ | ⟨⟨⟩, hvalid⟩ := exists_error_or_ok (o.runner w c rules).validate
  · have hsettings := answers_lift_error hvalid Refusal.settings
    exact .inr ⟨.settings hc hrules hvalid, .settings e,
      hconfig.bind (hselect.bind (hsettings.bind_error _))⟩
  have hsettings := answers_lift_ok hvalid Refusal.settings
  cases hinput : o.fromInput with
  | true =>
    refine .inl ⟨⟨o.runner w c rules, none⟩, ?_, ?_⟩
    · exact ⟨hc, hsound, hrules, rfl, hvalid, fun _ => rfl, by simp [hinput]⟩
    · exact hconfig.bind (hselect.bind (hsettings.bind (answers_pure _)))
  | false =>
    obtain ⟨e, hfiles⟩ | ⟨files, hfiles⟩ := exists_error_or_ok (o.scriptsUnder w c)
    · have hdiscover := answers_lift_error hfiles Refusal.discovery
      exact .inr ⟨.discovery hinput hc hfiles, .discovery e,
        hconfig.bind (hselect.bind (hsettings.bind (hdiscover.bind_error _)))⟩
    · have hdiscover := answers_lift_ok hfiles Refusal.discovery
      refine .inl ⟨⟨o.runner w c rules, some files⟩, ?_, ?_⟩
      · exact ⟨hc, hsound, hrules, rfl, hvalid, by simp [hinput], fun _ => ⟨files, rfl, hfiles⟩⟩
      · exact hconfig.bind (hselect.bind (hsettings.bind
          (hdiscover.bind ((answers_note _).bind (answers_pure _)))))

end Answer

/-! ### What the preparation reads -/

theorem Config.discoverFrom_blank (w : World) (reversed : List Bytes) :
    Config.discoverFrom w.blank reversed = Config.discoverFrom w reversed := by
  have hstep : ∀ dir,
      Config.discoverFrom.searchIn w.blank dir = Config.discoverFrom.searchIn w dir := by
    intro dir
    simp only [Config.discoverFrom.searchIn, World.exists?_blank, World.isDirectory_blank]
  induction reversed with
  | nil => rw [Config.discoverFrom, Config.discoverFrom, hstep]
  | cons c above ih => rw [Config.discoverFrom, Config.discoverFrom, hstep, ih]

theorem configPath_blank (w : World) (o : CheckOptions) :
    configPath w.blank o = configPath w o := by
  simp only [configPath, Config.discover?, Config.discoverFrom_blank, World.cwd_blank]

theorem projectRoot_blank (w : World) (o : CheckOptions) :
    projectRoot w.blank o = projectRoot w o := by
  simp only [projectRoot, configPath_blank, World.cwd_blank]

/-- Whether two worlds differ in the contents of scripts at most: all names are the same, and so are
the configuration file and the rule file. -/
structure SameButScripts (w w' : World) (o : CheckOptions) : Prop where
  names : w'.blank = w.blank
  config : w'.readFile (configPath w o) = w.readFile (configPath w o)
  ruleFile : w'.readFile o.ruleFile = w.readFile o.ruleFile

theorem SameButScripts.refl (w : World) (o : CheckOptions) : SameButScripts w w o :=
  ⟨rfl, rfl, rfl⟩

/-- **The preparation reads no script.** -/
theorem prepareCheck_congr {g : Registry} {w w' : World} {o : CheckOptions}
    (h : SameButScripts w w' o) : prepareCheck g w' o = prepareCheck g w o := by
  have hpath : configPath w' o = configPath w o := by
    rw [← configPath_blank w', h.names, configPath_blank]
  have hroot : projectRoot w' o = projectRoot w o := by
    rw [← projectRoot_blank w', h.names, projectRoot_blank]
  have hload : Config.load w' (configPath w o) = Config.load w (configPath w o) := by
    rw [Config.load, Config.load, h.config]
  have hselect : selectRules g w' o.ruleFile o.rules = selectRules g w o.ruleFile o.rules := by
    rw [selectRules, selectRules, Selection.readList, Selection.readList, h.ruleFile]
  have hdiscover : ∀ base root patterns ignored,
      Discovery.discover w' base root patterns ignored
        = Discovery.discover w base root patterns ignored := by
    intro base root patterns ignored
    rw [← Discovery.discover_blank w', h.names, Discovery.discover_blank]
  simp only [prepareCheck, loadConfig, loadFile, hpath, hroot, hload, hselect, hdiscover]

/-! ### What the preparation depends on -/

/-- The plan with another number of workers asked for. -/
def CheckPlan.withJobs (jobs : Int) (plan : CheckPlan) : CheckPlan :=
  { plan with
    runner := { plan.runner with jobs := if jobs = 0 then plan.runner.config.jobs else jobs } }

/-- The same work comes down to the same plan, the number of workers apart. -/
theorem prepareCheck_of_sameWork {g : Registry} {w : World} {o o' : CheckOptions}
    (h : o.SameWork o') :
    prepareCheck g w o' = CheckPlan.withJobs o'.jobs <$> prepareCheck g w o := by
  have hpath : configPath w o' = configPath w o := by simp only [configPath, h.config, h.root]
  have hroot : projectRoot w o' = projectRoot w o := by simp only [projectRoot, hpath, h.root]
  have hbase : scriptsBase o' = scriptsBase o := by
    funext c root
    simp only [scriptsBase, h.scripts]
  have hconfig : loadConfig g w o' = loadConfig g w o := by
    simp only [loadConfig, loadFile, hpath, hroot]
  unfold prepareCheck
  rw [hconfig, hbase, h.rules, h.ruleFile, h.fromInput, map_bind]
  refine bind_congr fun loaded => ?_
  obtain ⟨c, root⟩ := loaded
  rw [map_bind]
  refine bind_congr fun rules => ?_
  dsimp only
  rw [map_bind]
  -- The settings are checked without a look at the number of workers, so this step is the same.
  refine bind_congr fun _ => ?_
  cases o.fromInput with
  | true => rfl
  | false =>
    simp only [Bool.false_eq_true, if_false, map_bind]
    rfl

end ScriptLint
