import ScriptLint.Proofs.Rule.Standard
import ScriptLint.Proofs.Run.Cancellation

/-!
# Choosing other rules

The rules of a run do not influence one another. With fewer rules a run finds what the full run
finds by these rules, in the same order, and with the rules in another order each file gives the
same findings by each rule (`Runner.other_rules_find_alike`). The reason is that neither which files
are begun (`Runner.begun_withRules`) nor what a rule finds in a script depends on the other rules,
and that every finding names its rule. What rules share is the program: settings of one rule that
stop it take the findings of all others along (`Runner.rules_share_a_crash`).
-/

namespace ScriptLint

namespace Pool

variable {α : Type} {limit : Nat} {result result' : Nat → α}

/-- Whether two pools are at the same stages and cancelled alike. What their tasks store may
differ. -/
structure SameStages (p p' : Pool α) : Prop where
  stages : p'.stages = p.stages
  cancelled : p'.cancelled = p.cancelled

/-- No event looks at a result. -/
theorem SameStages.step {p p' : Pool α} (h : SameStages p p') (e : PoolEvent) :
    SameStages (p.step limit result e) (p'.step limit result' e) := by
  obtain ⟨hstages, hcancelled⟩ := h
  cases e with
  | start =>
    have hrunning : p'.running = p.running := by rw [running, running, hstages]
    by_cases hfree : p.running < limit
    · simp only [Pool.step, hrunning, hstages, if_pos hfree]
      cases p.stages.findIdx? (· = .waiting) with
      | some i => exact ⟨rfl, hcancelled⟩
      | none => exact ⟨hstages, hcancelled⟩
    · simp only [Pool.step, hrunning, if_neg hfree]
      exact ⟨hstages, hcancelled⟩
  | look i =>
    simp only [Pool.step, hstages, hcancelled]
    split_ifs
    · exact ⟨rfl, rfl⟩
    · exact ⟨rfl, rfl⟩
    · exact ⟨hstages, hcancelled⟩
  | finish i =>
    simp only [Pool.step, hstages]
    split_ifs
    · exact ⟨rfl, hcancelled⟩
    · exact ⟨hstages, hcancelled⟩
  | cancel => exact ⟨hstages, rfl⟩

theorem sameStages_run (limit n : Nat) (result result' : Nat → α) (events : List PoolEvent) :
    SameStages (run limit n result events) (run limit n result' events) := by
  have hfold : ∀ p p' : Pool α, SameStages p p' →
      SameStages (events.foldl (step limit result) p) (events.foldl (step limit result') p') := by
    induction events with
    | nil => exact fun p p' h => h
    | cons e events ih => exact fun p p' h => ih _ _ (h.step e)
  exact hfold _ _ ⟨rfl, rfl⟩

end Pool

/-! ### Findings by rule -/

/-- Whether findings are the same rule by rule, whatever the order of the rules. -/
structure SameByRule (ds ds' : List Diagnostic) : Prop where
  perm : ds'.Perm ds
  byRule : ∀ name, ds'.filter (fun d => d.rule = name) = ds.filter (fun d => d.rule = name)

/-- Whether two runs go on alike: by the same schedule, or both of them without being cancelled. -/
def Schedule.SameCourse (s s' : Schedule) : Prop := s' = s ∨ (s.Uncancelled ∧ s'.Uncancelled)

namespace Runner

variable (r : Runner) (w : World)

/-- The runner with other rules. -/
def withRules (rules : List Rule) : Runner := { r with rules }

/-- The runner with those of its rules whose names are chosen. -/
def withOnly (p : Bytes → Bool) : Runner := r.withRules (r.rules.filter fun rule => p rule.name)

/-! ### What does not depend on the rules -/

variable {s s' : Schedule} {paths : List Bytes} (rules : List Rule)

theorem completes_withRules (c : r.Completes w s paths) :
    (r.withRules rules).Completes w s paths := by
  intro hp
  have hover := c hp
  have hsame := Pool.sameStages_run (r.limit paths) paths.length
    (fun i => r.checkPath w false (paths.getD i []))
    (fun i => (r.withRules rules).checkPath w false (paths.getD i [])) s.events
  rw [Pool.isOver, pool] at hover ⊢
  rwa [← hsame.stages] at hover

/-- **Which files are begun does not depend on the rules.** -/
theorem begun_withRules : (r.withRules rules).begun w s paths = r.begun w s paths := by
  have hpool (events : List PoolEvent) (i : Nat) :
      ((r.withRules rules).pool w events paths).hasBegun i
        = (r.pool w events paths).hasBegun i := by
    have hsame := Pool.sameStages_run (r.limit paths) paths.length
      (fun i => r.checkPath w false (paths.getD i []))
      (fun i => (r.withRules rules).checkPath w false (paths.getD i [])) events
    exact congrArg (·[i]?.any Stage.isBegun) hsame.stages
  have hparallel : (r.withRules rules).isParallel paths = r.isParallel paths := rfl
  simp only [begun, hparallel, hpool]

/-- The same files are begun by runs that go on alike, whatever their rules. -/
theorem begun_of_sameCourse (c : r.Completes w s paths) (c' : r.Completes w s' paths)
    (h : s.SameCourse s') : (r.withRules rules).begun w s' paths = r.begun w s paths := by
  rw [begun_withRules]
  rcases h with rfl | ⟨hs, hs'⟩
  · rfl
  · rw [r.begun_of_uncancelled w hs c, r.begun_of_uncancelled w hs' c']

/-! ### Fewer rules -/

variable {r}

theorem fileFindings_withOnly (hr : r.IsStandard) (p : Bytes → Bool) (path : Bytes) :
    (r.withOnly p).fileFindings w path = (r.fileFindings w path).filter fun d => p d.rule := by
  have hroot : (r.withOnly p).root = r.root := rfl
  unfold fileFindings
  rw [hroot]
  cases readScript w r.root path with
  | ok script => exact (filter_flatMap_ruleFindings hr script p).symm
  | error e => rfl

theorem StopsOn.of_withOnly {p : Bytes → Bool} {script : Script}
    (h : (r.withOnly p).StopsOn script) : r.StopsOn script := by
  obtain ⟨rule, hrule, hstops⟩ := h
  exact ⟨rule, (List.mem_filter.mp hrule).1, hstops⟩

/-! ### Rules in another order -/

variable {w} {rules}

/-- The rules of a name are the same in either order, because they are copies of each other. -/
theorem filter_name_eq (hr : r.IsStandard) (hrules : rules.Perm r.rules) (name : Bytes) :
    rules.filter (fun rule => rule.name = name)
      = r.rules.filter (fun rule => rule.name = name) := by
  have hperm := hrules.filter fun rule => rule.name = name
  have hsame : ∀ a ∈ r.rules.filter (fun rule => rule.name = name),
      ∀ b ∈ r.rules.filter (fun rule => rule.name = name), b = a := by
    intro a ha b hb
    simp only [List.mem_filter, decide_eq_true_eq] at ha hb
    exact Registry.eq_of_name_eq (hr b hb.1) (hr a ha.1) (hb.2.trans ha.2.symm)
  generalize r.rules.filter (fun rule => rule.name = name) = named at hperm hsame
  cases named with
  | nil => exact List.perm_nil.mp hperm
  | cons rule others =>
    have hcopies := List.eq_replicate_of_mem (hsame rule (List.mem_cons_self ..))
    rw [hcopies] at hperm ⊢
    exact List.perm_replicate.mp hperm

theorem sameByRule_flatMap_ruleFindings (hr : r.IsStandard) (hrules : rules.Perm r.rules)
    (script : Script) :
    SameByRule (r.rules.flatMap (r.ruleFindings script))
      (rules.flatMap (r.ruleFindings script)) where
  perm := hrules.flatMap_right _
  byRule := by
    intro name
    have hr' : ∀ rule ∈ rules, rule ∈ Registry.standard.rules :=
      fun rule hrule => hr rule (hrules.mem_iff.mp hrule)
    rw [filter_flatMap_ruleFindings hr' script fun n => n = name,
      filter_flatMap_ruleFindings hr script fun n => n = name, filter_name_eq hr hrules]

/-- **Rules in another order find the same in each file**, each of them in its own order. -/
theorem sameByRule_fileFindings (hr : r.IsStandard) (hrules : rules.Perm r.rules) (path : Bytes) :
    SameByRule (r.fileFindings w path) ((r.withRules rules).fileFindings w path) := by
  have hroot : (r.withRules rules).root = r.root := rfl
  unfold fileFindings
  rw [hroot]
  cases readScript w r.root path with
  | ok script => exact sameByRule_flatMap_ruleFindings hr hrules script
  | error e => exact ⟨.nil, fun _ => rfl⟩

theorem stopsOn_withRules_iff (hrules : rules.Perm r.rules) (script : Script) :
    (r.withRules rules).StopsOn script ↔ r.StopsOn script :=
  exists_congr fun _ => and_congr_left fun _ => hrules.mem_iff

/-! ### Texts in no file -/

theorem gives_checkSource (r : Runner) (path : Bytes) (text : Text) :
    (r.checkSource path text).Gives (r.rules.flatMap (r.ruleFindings ⟨path, text⟩))
      (r.rules.flatMap (r.ruleErrors ⟨path, text⟩)) :=
  r.gives_checkScript true ⟨path, text⟩

theorem crash?_checkSource_eq_none_iff (r : Runner) (path : Bytes) (text : Text) :
    (r.checkSource path text).crash? = none ↔ ¬ r.StopsOn ⟨path, text⟩ := by
  rw [(r.gives_checkSource path text).crash?_eq_none_iff, ← exists_fatal_ruleErrors_iff]
  simp only [not_exists, not_and, Bool.not_eq_true]

/-! ### Choosing rules -/

/-- **The rules of a run do not influence one another.** A run has a result unless one of the
scripts that it begins stops the program, and then so does the run with some of its rules only,
which finds just what the full run finds by these rules, in the same order. With the rules in
another order the same files are checked, and each of them gives the same findings by each rule.
Both hold of runs that go on alike, with any number of workers, and of texts in no file. -/
theorem other_rules_find_alike (r : Runner) (hr : r.IsStandard) (w : World) :
    (∀ paths s, r.Completes w s paths →
      ((r.runUnder w s paths).crash? = none ↔
        ∀ path ∈ atPositions paths (r.begun w s paths), ∀ script,
          readScript w r.root path = .ok script → ¬ r.StopsOn script)) ∧
    (∀ p : Bytes → Bool,
      (∀ paths s s', r.Completes w s paths → r.Completes w s' paths → s.SameCourse s' →
        (r.runUnder w s paths).crash? = none →
          ((r.withOnly p).runUnder w s' paths).crash? = none ∧
          ((r.withOnly p).runUnder w s' paths).diagnostics
            = (r.runUnder w s paths).diagnostics.filter fun d => p d.rule) ∧
      ∀ path text, (r.checkSource path text).crash? = none →
        ((r.withOnly p).checkSource path text).crash? = none ∧
        ((r.withOnly p).checkSource path text).diagnostics
          = (r.checkSource path text).diagnostics.filter fun d => p d.rule) ∧
    ∀ rules, rules.Perm r.rules →
      (∀ paths s s', r.Completes w s paths → r.Completes w s' paths → s.SameCourse s' →
        (((r.withRules rules).runUnder w s' paths).crash? = none ↔
          (r.runUnder w s paths).crash? = none) ∧
        ((r.runUnder w s paths).crash? = none →
          (r.runUnder w s paths).diagnostics
            = (atPositions paths (r.begun w s paths)).flatMap (r.fileFindings w) ∧
          ((r.withRules rules).runUnder w s' paths).diagnostics
            = (atPositions paths (r.begun w s paths)).flatMap
              ((r.withRules rules).fileFindings w))) ∧
      (∀ path, SameByRule (r.fileFindings w path) ((r.withRules rules).fileFindings w path)) ∧
      ∀ path text,
        (((r.withRules rules).checkSource path text).crash? = none ↔
          (r.checkSource path text).crash? = none) ∧
        SameByRule (r.checkSource path text).diagnostics
          ((r.withRules rules).checkSource path text).diagnostics := by
  -- Which files are begun does not depend on the rules, so in each part the runs are over the same
  -- files and compared file by file.
  refine ⟨fun paths s c => r.crash?_runUnder_begun w c, fun p => ⟨?_, ?_⟩,
    fun rules hrules => ⟨?_, sameByRule_fileFindings hr hrules, ?_⟩⟩
  · intro paths s s' c c' hsame hgiven
    have hbegun : (r.withOnly p).begun w s' paths = r.begun w s paths :=
      r.begun_of_sameCourse w (r.rules.filter fun rule => p rule.name) c c' hsame
    have hcompletes : (r.withOnly p).Completes w s' paths := r.completes_withRules w _ c'
    have hgiven' : ((r.withOnly p).runUnder w s' paths).crash? = none := by
      rw [crash?_runUnder_begun _ w hcompletes, hbegun]
      rw [crash?_runUnder_begun _ w c] at hgiven
      exact fun path hpath script hscript hstops =>
        hgiven path hpath script hscript (StopsOn.of_withOnly hstops)
    refine ⟨hgiven', ?_⟩
    rw [(gives_runUnder_begun _ w hcompletes).diagnostics hgiven',
      (r.gives_runUnder_begun w c).diagnostics hgiven, hbegun, List.filter_flatMap]
    exact List.flatMap_congr fun path _ => fileFindings_withOnly w hr p path
  · intro path text hgiven
    have hgiven' : ((r.withOnly p).checkSource path text).crash? = none := by
      rw [crash?_checkSource_eq_none_iff] at hgiven ⊢
      exact fun hstops => hgiven (StopsOn.of_withOnly hstops)
    refine ⟨hgiven', ?_⟩
    rw [((r.withOnly p).gives_checkSource path text).diagnostics hgiven',
      (r.gives_checkSource path text).diagnostics hgiven]
    exact (filter_flatMap_ruleFindings hr ⟨path, text⟩ p).symm
  · intro paths s s' c c' hsame
    have hbegun := r.begun_of_sameCourse w rules c c' hsame
    have hcompletes : (r.withRules rules).Completes w s' paths := r.completes_withRules w rules c'
    have hboth : ((r.withRules rules).runUnder w s' paths).crash? = none ↔
        (r.runUnder w s paths).crash? = none := by
      rw [crash?_runUnder_begun _ w c, crash?_runUnder_begun _ w hcompletes, hbegun]
      exact forall₂_congr fun _ _ => forall₂_congr fun script _ =>
        not_congr (stopsOn_withRules_iff hrules script)
    refine ⟨hboth, fun hgiven => ⟨(r.gives_runUnder_begun w c).diagnostics hgiven, ?_⟩⟩
    rw [(gives_runUnder_begun _ w hcompletes).diagnostics (hboth.mpr hgiven), hbegun]
  · intro path text
    have hboth : ((r.withRules rules).checkSource path text).crash? = none ↔
        (r.checkSource path text).crash? = none := by
      rw [crash?_checkSource_eq_none_iff, crash?_checkSource_eq_none_iff,
        stopsOn_withRules_iff hrules]
    refine ⟨hboth, ?_⟩
    by_cases hgiven : (r.checkSource path text).crash? = none
    · rw [(r.gives_checkSource path text).diagnostics hgiven,
        ((r.withRules rules).gives_checkSource path text).diagnostics (hboth.mpr hgiven)]
      exact sameByRule_flatMap_ruleFindings hr hrules _
    · -- Without a result there are no findings in either order.
      rw [(Outcome.eq_nil_of_crash? hgiven).1,
        (Outcome.eq_nil_of_crash? fun h => hgiven (hboth.mp h)).1]
      exact ⟨.nil, fun _ => rfl⟩

/-- Two workers on two files, with the middle one of three rules and with all of them turned
round. -/
theorem other_rules_find_alike_two_files :
    let r : Runner :=
      { rules := [TrailingNewline.rule, RequireWarn.rule, RequireVersion.rule], jobs := 2 }
    let w : World := ⟨.dir [(bytes "a", .file (bytes "x")), (bytes "b", .file (bytes "#Warn"))], []⟩
    let paths := [bytes "/a", bytes "/b"]
    let s : Schedule := { events := [.start, .start, .look 1, .look 0, .finish 1, .finish 0] }
    let only : Bytes → Bool := fun name => name = RequireWarn.name
    r.IsStandard ∧ r.Completes w s paths ∧ (r.runUnder w s paths).crash? = none ∧
      ((r.withOnly only).runUnder w s paths).diagnostics
        = (r.runUnder w s paths).diagnostics.filter (fun d => only d.rule) ∧
      SameByRule (r.fileFindings w (bytes "/a"))
        ((r.withRules r.rules.reverse).fileFindings w (bytes "/a")) := by
  intro r w paths s only
  have hr : r.IsStandard := by
    intro rule hrule
    simp only [r, List.mem_cons, List.not_mem_nil, or_false] at hrule
    rcases hrule with rfl | rfl | rfl <;> simp [Registry.standard]
  have hc : r.Completes w s paths := fun _ => by decide
  have hgiven : (r.runUnder w s paths).crash? = none := by decide
  obtain ⟨-, hfewer, horder⟩ := other_rules_find_alike r hr w
  refine ⟨hr, hc, hgiven, ?_, ?_⟩
  · exact ((hfewer only).1 paths s s hc hc (.inl rfl) hgiven).2
  · exact (horder _ (List.reverse_perm r.rules)).2.1 _

/-- A version that is no text stops the program, and with it a rule that finds something when it is
chosen alone. -/
theorem rules_share_a_crash :
    let settings : Settings := [(bytes "version", .text [0xFF])]
    let r : Runner :=
      { config := { rules := [(versionRuleName, { enabled := true, settings := some settings })] }
        rules := [RequireVersion.rule, TrailingNewline.rule] }
    let w : World := ⟨.dir [(bytes "a", .file (bytes "x"))], []⟩
    let fewer := r.withOnly fun name => name = TrailingNewline.name
    (r.run w false [bytes "/a"]).crash?.isSome = true ∧
      (fewer.run w false [bytes "/a"]).crash? = none ∧
      (fewer.run w false [bytes "/a"]).diagnostics.length = 1 := by
  decide

end Runner

end ScriptLint
