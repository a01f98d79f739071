import ScriptLint.Proofs.Except
import ScriptLint.Proofs.Run.Outcome
import ScriptLint.Proofs.Script.Lines
import Mathlib.Data.List.Nodup

/-!
# What the rules of the linter do

The six rules of the linter, under whatever settings they take, perform one of six checks, two of
which have a parameter. `IsStandardCheck` has one case for each, and `isStandardCheck_of_configure`
says that configuring a rule leads to nothing else, so that a fact about all rules comes down to six
facts about checks:

- `IsStandardCheck.names`: every finding names the script and the rule.
- `IsStandardCheck.congr`: a script is seen through its lines and its end only.
-/

namespace ScriptLint

/-! ### Configuring a rule -/

/-- A fresh copy of a rule differs in its check at most. -/
theorem Rule.exists_clone_eq (rule : Rule) : ∃ check, rule.clone = { rule with check } := by
  unfold clone
  split
  · exact ⟨rule.check, rfl⟩
  · split
    · exact ⟨_, rfl⟩
    · exact ⟨rule.check, rfl⟩

/-- A rule under settings. -/
theorem Rule.configure_some (rule : Rule) {settings : Settings} (hne : settings ≠ [])
    (enabled : Bool) :
    rule.configure { enabled, settings := some settings } =
      rule.configurable.elim (.error (.noSettings rule.name)) fun c =>
        ((c.apply settings).mapError (.refused rule.name)).map fun check => { rule with check } := by
  obtain ⟨check, hclone⟩ := rule.exists_clone_eq
  obtain ⟨s, ss, rfl⟩ := List.exists_cons_of_ne_nil hne
  simp only [configure, hclone, applySettings?]
  cases rule.configurable with
  | none => rfl
  | some c =>
    simp only [Option.map_some, Option.elim_some]
    cases c.apply (s :: ss) with
    | error e => rfl
    | ok check => rfl

/-- An entry counts with its settings alone, and absent ones are empty. -/
theorem Rule.configure_getD (rule : Rule) (e : RuleEntry) (enabled : Bool) :
    rule.configure e = rule.configure { enabled, settings := some (e.settings.getD []) } := by
  obtain ⟨enabled', settings⟩ := e
  cases settings with
  | none => rfl
  | some settings => rfl

/-- **A rule is configured to itself, or to a check that its settings give.** -/
theorem Rule.configure_cases {rule configured : Rule} {e : RuleEntry}
    (h : rule.configure e = .ok configured) :
    configured = rule ∨ ∃ c settings check, rule.configurable = some c ∧
      c.apply settings = .ok check ∧ configured = { rule with check } := by
  obtain ⟨name, description, check, configurable⟩ := rule
  rw [configure_getD _ e true] at h
  cases hsettings : e.settings.getD [] with
  | nil =>
    rw [hsettings] at h
    exact .inl (Except.ok.inj h).symm
  | cons s ss =>
    rw [hsettings, configure_some _ (List.cons_ne_nil s ss)] at h
    cases configurable with
    | none => cases h
    | some c =>
      rw [Option.elim_some] at h
      cases happly : c.apply (s :: ss) with
      | error reason =>
        rw [happly] at h
        cases h
      | ok check' =>
        rw [happly] at h
        exact .inr ⟨c, s :: ss, check', rfl, happly, (Except.ok.inj h).symm⟩

/-! ### The checks of the linter -/

/-- The checks that the rules of the linter perform, each with the name of its rule. -/
inductive IsStandardCheck : Bytes → Check → Prop where
  | version (version : Text) : IsStandardCheck versionRuleName (RequireVersion.check version)
  | singleInstance (mode : Text) :
    IsStandardCheck instanceRuleName (RequireSingleInstance.check mode)
  | warn : IsStandardCheck RequireWarn.name RequireWarn.check
  | trailingNewline : IsStandardCheck TrailingNewline.name TrailingNewline.check
  | trailingWhitespace : IsStandardCheck TrailingWhitespace.name TrailingWhitespace.check
  | unusedFunctions : IsStandardCheck UnusedFunctions.name UnusedFunctions.check

/-- Settings of the version rule give its check for some version. -/
theorem RequireVersion.exists_of_apply {settings : Settings} {c : Check}
    (h : RequireVersion.apply settings = .ok c) : ∃ version, c = RequireVersion.check version := by
  obtain ⟨version, -, h⟩ := bind_eq_ok_iff.mp h
  split at h
  · exact ⟨_, (Except.ok.inj h).symm⟩
  · exact absurd h (by simp)

/-- Settings of the single-instance rule give its check for some mode. -/
theorem RequireSingleInstance.exists_of_apply {settings : Settings} {c : Check}
    (h : RequireSingleInstance.apply settings = .ok c) :
    ∃ mode, c = RequireSingleInstance.check mode := by
  unfold RequireSingleInstance.apply at h
  cases hmode : modeOf defaultMode settings with
  | error e => simp [hmode, Except.map] at h
  | ok mode =>
    rw [hmode] at h
    exact ⟨mode, (Except.ok.inj h).symm⟩

/-- **A rule of the linter performs one of the six checks**, whatever it is told. -/
theorem isStandardCheck_of_configure {rule configured : Rule} {e : RuleEntry}
    (hrule : rule ∈ Registry.standard.rules) (h : rule.configure e = .ok configured) :
    configured.name = rule.name ∧ IsStandardCheck rule.name configured.check := by
  have hplain {c : Configurable} (hnone : rule.configurable = none)
      (hsome : rule.configurable = some c) : False := by simp [hnone] at hsome
  simp only [Registry.standard, List.mem_cons, List.not_mem_nil, or_false] at hrule
  -- Without settings a rule is as it is registered; with settings it is one of the two that take
  -- some.
  rcases Rule.configure_cases h with rfl | ⟨c, settings, check, hc, happly, rfl⟩
  · refine ⟨rfl, ?_⟩
    rcases hrule with rfl | rfl | rfl | rfl | rfl | rfl
    · exact .version _
    · exact .singleInstance _
    · exact .warn
    · exact .trailingNewline
    · exact .trailingWhitespace
    · exact .unusedFunctions
  · refine ⟨rfl, ?_⟩
    rcases hrule with rfl | rfl | rfl | rfl | rfl | rfl
    · obtain rfl := Option.some.inj hc
      obtain ⟨version, rfl⟩ := RequireVersion.exists_of_apply happly
      exact .version version
    · obtain rfl := Option.some.inj hc
      obtain ⟨mode, rfl⟩ := RequireSingleInstance.exists_of_apply happly
      exact .singleInstance mode
    · exact (hplain rfl hc).elim
    · exact (hplain rfl hc).elim
    · exact (hplain rfl hc).elim
    · exact (hplain rfl hc).elim

/-! ### What findings name -/

/-- A list that is empty or holds one finding about a script as a whole. -/
theorem names_of_mem_ite {p : Prop} [Decidable p] {s : Script} {name message : Bytes}
    {d : Diagnostic} (h : d ∈ if p then [] else [Rule.fileLevel name message s]) :
    d.file = s.path ∧ d.rule = name := by
  split_ifs at h
  · exact absurd h List.not_mem_nil
  · rw [List.mem_singleton.mp h]
    exact ⟨rfl, rfl⟩

theorem TrailingWhitespace.exists_of_mem_findings {s : Script} {number : ℕ} {lines : List Text}
    {d : Diagnostic} (h : d ∈ findings s number lines) : ∃ k, d = finding s k := by
  induction lines generalizing number with
  | nil => exact absurd h List.not_mem_nil
  | cons line lines ih =>
    rw [findings] at h
    split_ifs at h
    · rcases List.mem_cons.mp h with rfl | h
      · exact ⟨number, rfl⟩
      · exact ih h
    · exact ih h

namespace IsStandardCheck

variable {name : Bytes} {check : Check}

/-- **Every finding names the script it is about and the rule that made it.** -/
theorem names (hcheck : IsStandardCheck name check) {s : Script} {d : Diagnostic}
    (h : d ∈ check s) : d.file = s.path ∧ d.rule = name := by
  cases hcheck with
  | version version => exact names_of_mem_ite h
  | singleInstance mode =>
    simp only [RequireSingleInstance.check] at h
    split at h
    · rw [List.mem_singleton.mp h]
      exact ⟨rfl, rfl⟩
    · exact names_of_mem_ite h
  | warn => exact names_of_mem_ite h
  | trailingNewline => exact names_of_mem_ite h
  | trailingWhitespace =>
    obtain ⟨k, rfl⟩ := TrailingWhitespace.exists_of_mem_findings h
    exact ⟨rfl, rfl⟩
  | unusedFunctions =>
    obtain ⟨definition, -, rfl⟩ := List.mem_map.mp h
    exact ⟨rfl, rfl⟩

end IsStandardCheck

/-! ### What rules see of a script -/

/-- Whether two scripts look the same to the rules: they have the same path and the same lines, and
the last line is ended in both or in none. -/
structure Script.LooksLike (s s' : Script) : Prop where
  path : s.path = s'.path
  lines : s.lines = s'.lines
  ends : endsLine s.text = endsLine s'.text

theorem Script.LooksLike.isEmpty_eq {s s' : Script} (h : s.LooksLike s') :
    s.text.isEmpty = s'.text.isEmpty := by
  rw [Bool.eq_iff_iff, List.isEmpty_iff, List.isEmpty_iff, ← splitLines_eq_nil_iff,
    ← splitLines_eq_nil_iff]
  exact iff_of_eq (congrArg (· = []) h.lines)

/-- **The rules see a script through its path, its lines and its end only.** -/
theorem IsStandardCheck.congr {name : Bytes} {check : Check} (hcheck : IsStandardCheck name check)
    {s s' : Script} (h : s.LooksLike s') : check s = check s' := by
  have hwhole (name message : Bytes) :
      Rule.fileLevel name message s = Rule.fileLevel name message s' := by
    rw [Rule.fileLevel, Rule.fileLevel, h.path]
  -- The path shows in findings only; all else that a check reads are the lines and the end.
  cases hcheck with
  | version version =>
    have hfirst : RequireVersion.firstLine s = RequireVersion.firstLine s' := by
      rw [RequireVersion.firstLine, RequireVersion.firstLine, h.lines]
    rw [RequireVersion.check, RequireVersion.check, hfirst, hwhole]
  | singleInstance mode => simp only [RequireSingleInstance.check, h.lines, hwhole]
  | warn => simp only [RequireWarn.check, h.lines, hwhole]
  | trailingNewline => simp only [TrailingNewline.check, h.isEmpty_eq, h.ends, hwhole]
  | trailingWhitespace =>
    have hfinding : TrailingWhitespace.finding s = TrailingWhitespace.finding s' := by
      funext k
      rw [TrailingWhitespace.finding, TrailingWhitespace.finding, h.path]
    have hfindings (number : ℕ) (lines : List Text) :
        TrailingWhitespace.findings s number lines
          = TrailingWhitespace.findings s' number lines := by
      induction lines generalizing number with
      | nil => rfl
      | cons line lines ih =>
        rw [TrailingWhitespace.findings, TrailingWhitespace.findings, hfinding, ih]
    rw [TrailingWhitespace.check, TrailingWhitespace.check, h.lines, hfindings]
  | unusedFunctions =>
    have hfinding : UnusedFunctions.finding s = UnusedFunctions.finding s' := by
      funext d
      rw [UnusedFunctions.finding, UnusedFunctions.finding, h.path]
    simp only [UnusedFunctions.check, h.lines, hfinding]

/-! ### Rules in a run -/

/-- A name belongs to one rule of the linter. -/
theorem Registry.eq_of_name_eq {a b : Rule} (ha : a ∈ standard.rules) (hb : b ∈ standard.rules)
    (h : a.name = b.name) : a = b := by
  have hdistinct : (standard.rules.map (·.name)).Nodup := by decide
  exact List.inj_on_of_nodup_map hdistinct ha hb h

namespace Runner

variable (r : Runner)

/-- Whether a runner applies rules of the linter only. -/
def IsStandard : Prop := ∀ rule ∈ r.rules, rule ∈ Registry.standard.rules

variable {r}

/-- What a rule finds in a script names the script and the rule. -/
theorem names_of_mem_ruleFindings {s : Script} {rule : Rule}
    (hrule : rule ∈ Registry.standard.rules) {d : Diagnostic} (h : d ∈ r.ruleFindings s rule) :
    d.file = s.path ∧ d.rule = rule.name := by
  unfold ruleFindings at h
  split_ifs at h
  · split at h
    · rename_i configured hconf
      exact (isStandardCheck_of_configure hrule hconf).2.names h
    · exact absurd h List.not_mem_nil
  · exact absurd h List.not_mem_nil

/-- **The findings that name some rules are the findings of these rules.** -/
theorem filter_flatMap_ruleFindings {rules : List Rule}
    (h : ∀ rule ∈ rules, rule ∈ Registry.standard.rules) (s : Script) (p : Bytes → Bool) :
    (rules.flatMap (r.ruleFindings s)).filter (fun d => p d.rule)
      = (rules.filter (fun rule => p rule.name)).flatMap (r.ruleFindings s) := by
  induction rules with
  | nil => rfl
  | cons rule rules ih =>
    rw [List.forall_mem_cons] at h
    have hnames (d : Diagnostic) (hd : d ∈ r.ruleFindings s rule) : d.rule = rule.name :=
      (names_of_mem_ruleFindings h.1 hd).2
    rw [List.flatMap_cons, List.filter_append, ih h.2]
    by_cases hp : p rule.name = true
    · have hall : (r.ruleFindings s rule).filter (fun d => p d.rule) = r.ruleFindings s rule :=
        List.filter_eq_self.mpr fun d hd => by rw [hnames d hd, hp]
      rw [hall, List.filter_cons, if_pos hp, List.flatMap_cons]
    · have hnone : (r.ruleFindings s rule).filter (fun d => p d.rule) = [] :=
        List.filter_eq_nil_iff.mpr fun d hd => by rwa [hnames d hd]
      rw [hnone, List.nil_append, List.filter_cons, if_neg hp]

/-- A list is determined by what several copies of it make up. -/
theorem eq_of_flatten_replicate_eq {α : Type} {k : ℕ} {as bs : List α}
    (h : (List.replicate (k + 1) as).flatten = (List.replicate (k + 1) bs).flatten) : as = bs := by
  have hlength : as.length = bs.length := by
    have htotal := congrArg List.length h
    simp only [List.length_flatten, List.map_replicate, List.sum_replicate_nat] at htotal
    exact Nat.eq_of_mul_eq_mul_left k.succ_pos htotal
  rw [List.replicate_succ, List.replicate_succ, List.flatten_cons, List.flatten_cons] at h
  exact List.append_inj_left h hlength

/-- **Two scripts are found alike exactly if every rule finds the same in both**: findings name
their rule, so those of one rule do not pass for those of another. -/
theorem IsStandard.flatMap_ruleFindings_eq_iff (hr : r.IsStandard) (s s' : Script) :
    r.rules.flatMap (r.ruleFindings s) = r.rules.flatMap (r.ruleFindings s') ↔
      ∀ rule ∈ r.rules, r.ruleFindings s rule = r.ruleFindings s' rule := by
  refine ⟨fun h rule hrule => ?_, List.flatMap_congr⟩
  have hfilter := congrArg (List.filter fun d => d.rule == rule.name) h
  rw [filter_flatMap_ruleFindings hr s (· == rule.name),
    filter_flatMap_ruleFindings hr s' (· == rule.name)] at hfilter
  -- A name belongs to one rule, so the rules of that name are this rule, once or several times.
  set named := r.rules.filter (fun x => x.name == rule.name)
  have hsame : named = List.replicate named.length rule := by
    refine List.eq_replicate_iff.mpr ⟨rfl, fun x hx => ?_⟩
    obtain ⟨hx, hname⟩ := List.mem_filter.mp hx
    exact Registry.eq_of_name_eq (hr x hx) (hr rule hrule) (beq_iff_eq.mp hname)
  have hmem : rule ∈ named := List.mem_filter.mpr ⟨hrule, beq_self_eq_true rule.name⟩
  have hpos : named.length ≠ 0 := (List.length_pos_of_mem hmem).ne'
  obtain ⟨k, hk⟩ := Nat.exists_eq_succ_of_ne_zero hpos
  rw [hsame, hk, List.flatMap_replicate, List.flatMap_replicate] at hfilter
  exact eq_of_flatten_replicate_eq hfilter

/-- The outcome of a script depends on what its rules find in it, each as it is configured for the
path of the script. -/
theorem checkScript_congr {streamed : Bool} {s s' : Script} (hpath : s.path = s'.path)
    (h : ∀ rule ∈ r.rules, ∀ configured, rule.configure (r.entry s rule) = .ok configured →
      configured.check s = configured.check s') :
    r.checkScript streamed s = r.checkScript streamed s' := by
  have hrules : r.rules.map (fun rule => checkRule streamed s rule (r.entry s rule))
      = r.rules.map (fun rule => checkRule streamed s' rule (r.entry s' rule)) := by
    apply List.map_congr_left
    intro rule hrule
    have hentry : r.entry s' rule = r.entry s rule := by rw [entry, entry, hpath]
    rw [hentry]
    by_cases hon : (r.entry s rule).enabled = true
    · rw [checkRule, checkRule, if_pos hon, if_pos hon]
      cases hconf : rule.configure (r.entry s rule) with
      | ok configured => simp only [h rule hrule configured hconf]
      | error e => rfl
    · rw [checkRule, checkRule, if_neg hon, if_neg hon]
  unfold checkScript checkRules
  rw [← hpath]
  simp only [entry, ← hpath] at hrules
  rw [hrules]

end Runner

end ScriptLint
