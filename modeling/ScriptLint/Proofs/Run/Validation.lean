import ScriptLint.Proofs.Config.Effective
import ScriptLint.Proofs.Except
import ScriptLint.Proofs.Run.Cancellation

/-!
# Settings that are checked beforehand

A runner checks the entries of its rules table by table, while a script is checked under the entries
that the tables give together. Each of these stands in one of the tables (`Config.get?_effective`),
so that once the settings have passed, no rule fails on any script
(`Runner.eq_cancelled_or_of_mem_errors_runUnder`). If they do not pass, one of the entries is at
fault (`Runner.exists_of_validate_eq_error`).
-/

namespace ScriptLint

/-! ### Effective entries -/

/-- **An effective entry stands in one of the tables**: in that of the configuration, or in that of
an override. -/
theorem Config.get?_effective {c : Config} (hc : ∀ o ∈ c.overrides, o.rules.IsDistinct)
    {path name : Bytes} {e : RuleEntry} (h : (c.effective path).get? name = some e) :
    c.rules.get? name = some e ∨ ∃ o ∈ c.overrides, o.rules.get? name = some e := by
  rw [Config.get?_effective_eq c hc, Config.told?, Option.or_eq_some_iff] at h
  rcases h with hoverride | ⟨-, htable⟩
  · obtain ⟨before, o, after, hsplit, -, hentry, -⟩ :=
      (Config.findSome?_told?_eq_some_iff hc).mp hoverride
    have ho : o ∈ c.overrides := by simp [hsplit]
    exact .inr ⟨o, ho, (Entries.get?_eq_some_iff (hc o ho)).mpr hentry⟩
  · exact .inl htable

namespace Runner

variable (r : Runner) (w : World)

/-! ### The check of the settings -/

/-- The settings pass exactly if every selected rule takes each of its entries that is on. -/
theorem validate_eq_ok_iff :
    r.validate = .ok () ↔ ∀ rule ∈ r.rules, ∀ table ∈ r.tables, ∀ e,
      table.get? rule.name = some e → e.enabled = true →
        ∃ configured, rule.configure e = .ok configured := by
  simp only [validate, forM_eq_ok_iff]
  refine forall₂_congr fun rule _ => forall₂_congr fun table _ => ?_
  cases table.get? rule.name with
  | none => simp
  | some e =>
    cases hon : e.enabled with
    | false => simp [hon]
    | true => cases hconf : rule.configure e <;> simp [hon, hconf]

variable {r}

/-- Settings that do not pass fail on an entry that is on: the error is that of configuring a
selected rule by it. -/
theorem exists_of_validate_eq_error {e : ConfigureError} (h : r.validate = .error e) :
    ∃ rule ∈ r.rules, ∃ table ∈ r.tables, ∃ entry, table.get? rule.name = some entry ∧
      entry.enabled = true ∧ rule.configure entry = .error e := by
  obtain ⟨rule, hrule, h⟩ := exists_of_forM_eq_error h
  obtain ⟨table, htable, h⟩ := exists_of_forM_eq_error h
  refine ⟨rule, hrule, table, htable, ?_⟩
  cases hget : table.get? rule.name with
  | none => simp [hget] at h
  | some entry =>
    refine ⟨entry, rfl, ?_⟩
    simp only [hget] at h
    split_ifs at h with hon
    cases hconf : rule.configure entry with
    | ok configured => simp [hconf] at h
    | error reason =>
      simp only [hconf] at h
      exact ⟨hon, congrArg Except.error (Except.error.inj h)⟩

/-- Once the settings have passed, a rule that is on can be configured for every script. -/
theorem exists_configure_entry (hvalid : r.validate = .ok ())
    (hdistinct : ∀ o ∈ r.config.overrides, o.rules.IsDistinct) {rule : Rule}
    (hrule : rule ∈ r.rules) (s : Script) (hon : (r.entry s rule).enabled = true) :
    ∃ configured, rule.configure (r.entry s rule) = .ok configured := by
  cases hentry : (r.config.effective s.path).get? rule.name with
  | none =>
    rw [entry, hentry]
    exact ⟨rule, rfl⟩
  | some e =>
    have he : r.entry s rule = e := by rw [entry, hentry, Option.getD_some]
    rw [he] at hon ⊢
    rw [validate_eq_ok_iff] at hvalid
    rcases Config.get?_effective hdistinct hentry with htop | ⟨o, ho, hover⟩
    · exact hvalid rule hrule _ (List.mem_cons_self ..) e htop hon
    · have htable : o.rules ∈ r.tables := List.mem_cons_of_mem _ (List.mem_map_of_mem ho)
      exact hvalid rule hrule _ htable e hover hon

theorem flatMap_ruleErrors_eq_nil (hvalid : r.validate = .ok ())
    (hdistinct : ∀ o ∈ r.config.overrides, o.rules.IsDistinct) (s : Script) :
    r.rules.flatMap (r.ruleErrors s) = [] := by
  rw [List.flatMap_eq_nil_iff]
  intro rule hrule
  rw [List.eq_nil_iff_forall_not_mem]
  intro e he
  obtain ⟨hon, reason, hreason, -⟩ := r.mem_ruleErrors_iff.mp he
  obtain ⟨configured, hconf⟩ := exists_configure_entry hvalid hdistinct hrule s hon
  rw [hconf] at hreason
  exact absurd hreason (by simp)

/-- Once the settings have passed, all that goes wrong with a file is that it cannot be read. -/
theorem mem_fileErrors_iff (hvalid : r.validate = .ok ())
    (hdistinct : ∀ o ∈ r.config.overrides, o.rules.IsDistinct) (path : Bytes) (e : RunError) :
    e ∈ r.fileErrors w path ↔
      ∃ reason, readScript w r.root path = .error reason ∧ e = .read reason := by
  cases hread : readScript w r.root path with
  | error reason =>
    rw [fileErrors, hread, List.mem_singleton]
    simp
  | ok s =>
    rw [fileErrors, hread]
    simp [flatMap_ruleErrors_eq_nil hvalid hdistinct s]

/-- Once the settings have passed, a run stops on no script. -/
theorem crash?_runUnder_eq_none (hvalid : r.validate = .ok ())
    (hdistinct : ∀ o ∈ r.config.overrides, o.rules.IsDistinct) {s : Schedule} {paths : List Bytes}
    (c : r.Completes w s paths) : (r.runUnder w s paths).crash? = none := by
  rw [r.crash?_runUnder_begun w c]
  rintro path - script - ⟨rule, hrule, hon, e, hfails, -⟩
  obtain ⟨configured, hconf⟩ := exists_configure_entry hvalid hdistinct hrule script hon
  exact absurd (hconf.symm.trans hfails) (by simp)

/-- **Settings that have passed never fail later**: what goes wrong in a run is that a file cannot
be read, or the cancellation. -/
theorem eq_cancelled_or_of_mem_errors_runUnder (hvalid : r.validate = .ok ())
    (hdistinct : ∀ o ∈ r.config.overrides, o.rules.IsDistinct) {s : Schedule} {paths : List Bytes}
    (c : r.Completes w s paths) {e : RunError} (h : e ∈ (r.runUnder w s paths).errors) :
    e = .cancelled ∨
      ∃ path ∈ paths, ∃ reason, readScript w r.root path = .error reason ∧ e = .read reason := by
  rw [(r.gives_runUnder_begun w c).errors (crash?_runUnder_eq_none w hvalid hdistinct c),
    List.mem_append, List.mem_flatMap] at h
  rcases h with ⟨path, hpath, he⟩ | h
  · exact .inr ⟨path, mem_of_mem_atPositions hpath,
      (mem_fileErrors_iff w hvalid hdistinct path e).mp he⟩
  · split_ifs at h
    · exact absurd h List.not_mem_nil
    · exact .inl (List.mem_singleton.mp h)

/-- **The check of the settings decides for every file.** Once they have passed, no rule fails on
any text under any path, so that every error of a run is that a file cannot be read or decoded, or
that the run is cancelled. And if they do not pass, some selected rule refuses an entry that is on,
be it of the configuration itself or of an override. No override lists a rule twice, which holds of
every configuration that is loaded (`Config.isDistinct_of_load`). -/
theorem validate_decides_for_every_file (r : Runner)
    (hdistinct : ∀ o ∈ r.config.overrides, o.rules.IsDistinct) :
    (r.validate = .ok () →
      (∀ streamed path text,
        (checkRules streamed ⟨path, text⟩ r.rules (r.config.effective path)).crash? = none ∧
        (checkRules streamed ⟨path, text⟩ r.rules (r.config.effective path)).errors = []) ∧
      ∀ w s paths, r.Completes w s paths →
        (r.runUnder w s paths).crash? = none ∧
        ∀ e ∈ (r.runUnder w s paths).errors, e = .cancelled ∨ ∃ path ∈ paths, ∃ reason,
          readScript w r.root path = .error reason ∧ e = .read reason) ∧
    ∀ e, r.validate = .error e → ∃ rule ∈ r.rules, ∃ entry,
      (r.config.rules.get? rule.name = some entry ∨
        ∃ o ∈ r.config.overrides, o.rules.get? rule.name = some entry) ∧
      entry.enabled = true ∧ rule.configure entry = .error e := by
  constructor
  · intro hvalid
    refine ⟨?_, fun w s paths c => ⟨crash?_runUnder_eq_none w hvalid hdistinct c,
      fun e he => eq_cancelled_or_of_mem_errors_runUnder w hvalid hdistinct c he⟩⟩
    intro streamed path text
    have hrules := r.gives_checkRules streamed ⟨path, text⟩
    rw [flatMap_ruleErrors_eq_nil hvalid hdistinct] at hrules
    have hnone := hrules.crash?_eq_none_iff.mpr (List.forall_mem_nil _)
    exact ⟨hnone, hrules.errors hnone⟩
  · intro e h
    obtain ⟨rule, hrule, table, htable, entry, hget, hon, hconf⟩ := exists_of_validate_eq_error h
    refine ⟨rule, hrule, entry, ?_, hon, hconf⟩
    rcases List.mem_cons.mp htable with rfl | htable
    · exact .inl hget
    · obtain ⟨o, ho, rfl⟩ := List.mem_map.mp htable
      exact .inr ⟨o, ho, hget⟩

/-- A version that is off in the configuration, with settings that would be refused, and on with
others in an override. -/
theorem validate_decides_for_every_file_reenabled :
    let refused : Settings := [(bytes "version", .text [])]
    let accepted : Settings := [(bytes "version", .text (bytes "v2.1"))]
    let r : Runner :=
      { config :=
          { rules := [(versionRuleName, { enabled := false, settings := some refused })]
            overrides := [{ files := [bytes "*"]
                            rules := [(versionRuleName,
                              { enabled := true, settings := some accepted })] }] }
        rules := [RequireVersion.rule, TrailingNewline.rule] }
    (∀ o ∈ r.config.overrides, o.rules.IsDistinct) ∧ r.validate = .ok () ∧
      ∀ path text,
        (checkRules true ⟨path, text⟩ r.rules (r.config.effective path)).crash? = none ∧
        (checkRules true ⟨path, text⟩ r.rules (r.config.effective path)).errors = [] := by
  intro refused accepted r
  have hdistinct : ∀ o ∈ r.config.overrides, o.rules.IsDistinct := by decide
  have hvalid : r.validate = .ok () := rfl
  exact ⟨hdistinct, hvalid, ((validate_decides_for_every_file r hdistinct).1 hvalid).1 true⟩

end Runner

end ScriptLint
