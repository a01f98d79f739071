import ScriptLint.Config.Load
import ScriptLint.Config.Render
import ScriptLint.Proofs.Entries
import ScriptLint.Proofs.Rule.Selection
import ScriptLint.Proofs.Rule.Standard

/-!
# The defaults, spelled out

The configuration that is written for a new project spells out what holds without it. It is read
back as it is (`Config.decode_render_fullDefaults`), and laid over the defaults it leaves every rule
as it is registered (`Config.isNeutral_fullDefaults`), because the default settings of a rule give
the rule itself (`Rule.configure_defaults`).
-/

namespace ScriptLint

open Yaml

/-! ### What is written -/

/-- Entries that stand in the order of their keys are written in it. -/
theorem Yaml.Tree.sortedMapping_of_pairwise {entries : List (Value × Tree × Tree)}
    (h : entries.Pairwise fun a b => (!Tree.keyLess b.1 a.1) = true) :
    Tree.sortedMapping entries = .mapping (entries.map (·.2)) := by
  rw [Tree.sortedMapping, List.mergeSort_of_pairwise h]

theorem Registry.all_standard : Registry.standard.all = Registry.standard.rules := by
  rw [Registry.all, Registry.names_standard]
  rfl

namespace Config

/-- A mapping whose keys are strings. -/
def textMapping (entries : List (Bytes × Tree)) : Tree :=
  .mapping (entries.map fun e => (.string e.1, e.2))

/-- The rules of the linter as they are written: on, or with the settings they have anyway. -/
def defaultRulesTree : Tree :=
  textMapping
    [(RequireVersion.rule.name, textMapping [(bytes "version", .string (bytes "v2"))]),
     (RequireSingleInstance.rule.name, textMapping [(bytes "mode", .string (bytes "Force"))]),
     (RequireWarn.rule.name, .plain "true".toList),
     (TrailingNewline.rule.name, .plain "true".toList),
     (TrailingWhitespace.rule.name, .plain "true".toList),
     (UnusedFunctions.rule.name, .plain "true".toList)]

theorem toTree_single (key value : Bytes) :
    ({ enabled := true, settings := some [(key, .text value)] } : RuleEntry).toTree
      = textMapping [(key, .string value)] :=
  Tree.sortedMapping_of_pairwise (List.pairwise_singleton _ _)

theorem rulesTree_fullDefaults : rulesTree (fullDefaults .standard).rules = defaultRulesTree := by
  rw [fullDefaults, Registry.all_standard, rulesTree, Tree.ofEntries,
    Tree.sortedMapping_of_pairwise (by decide), defaultRulesTree, ← toTree_single,
    ← toTree_single]
  rfl

theorem toTree_fullDefaults :
    (fullDefaults .standard).toTree = textMapping
      [(bytes "scripts", .string defaultScripts),
       (bytes "include", .sequence (defaultPatterns.map .string)),
       (bytes "rules", defaultRulesTree)] := by
  have hrules : (fullDefaults .standard).rules ≠ [] := by
    rw [fullDefaults, Registry.all_standard]
    exact List.cons_ne_nil _ _
  unfold toTree
  rw [rulesTree_fullDefaults]
  simp only [decide_eq_true hrules]
  rfl

/-! ### What is read -/

/-- The text of a value, if it is one. -/
def textOf? : Value → Option Bytes
  | .text s => some s
  | _ => none

theorem eq_of_textOf? {v : Value} {s : Bytes} (h : textOf? v = some s) : v = .text s := by
  cases v with
  | text t => exact congrArg Value.text (Option.some.inj h)
  | _ => cases h

/-- The entry of a rule as data that can be compared: settings that are no texts are left out. -/
structure EntryView where
  name : Bytes
  enabled : Bool
  settings : Option (List (Bytes × Option Bytes))
deriving DecidableEq

/-- What a configuration says, as data that can be compared. -/
structure View where
  scripts : Bytes
  patterns : List Bytes
  ignored : List Bytes
  jobs : Int
  rules : List EntryView
  overrides : Nat
deriving DecidableEq

/-- The view of an entry. -/
def EntryView.of (e : Bytes × RuleEntry) : EntryView where
  name := e.1
  enabled := e.2.enabled
  settings := e.2.settings.map (·.map fun s => (s.1, textOf? s.2))

/-- The view of a configuration. -/
def view (c : Config) : View where
  scripts := c.scripts
  patterns := c.patterns
  ignored := c.ignored
  jobs := c.jobs
  rules := c.rules.map .of
  overrides := c.overrides.length

/-- Lists with the same images are the same where the images tell the members of one of them. -/
theorem eq_of_map_eq_map {α β : Type} {f : α → β} {as bs : List α} (h : as.map f = bs.map f)
    (hf : ∀ b ∈ bs, ∀ a, f a = f b → a = b) : as = bs := by
  induction bs generalizing as with
  | nil => exact List.map_eq_nil_iff.mp h
  | cons b bs ih =>
    obtain ⟨a, rest, rfl, hab, hrest⟩ := List.map_eq_cons_iff.mp h
    rw [List.forall_mem_cons] at hf
    rw [hf.1 a hab, ih hrest hf.2]

/-- Whether a configuration has no overrides and no settings but texts. -/
structure IsPlain (c : Config) : Prop where
  settings : ∀ e ∈ c.rules, ∀ settings ∈ e.2.settings, ∀ s ∈ settings, (textOf? s.2).isSome = true
  overrides : c.overrides = []

/-- A plain configuration is told by its view. -/
theorem IsPlain.eq_of_view {c c' : Config} (hc : c.IsPlain) (h : c'.view = c.view) : c' = c := by
  have hsetting {s s' : Bytes × Value} (hs : (textOf? s.2).isSome = true)
      (hsame : (s'.1, textOf? s'.2) = (s.1, textOf? s.2)) : s' = s := by
    obtain ⟨hkey, hvalue⟩ := Prod.mk.inj hsame
    obtain ⟨t, ht⟩ := Option.isSome_iff_exists.mp hs
    rw [ht] at hvalue
    exact Prod.ext hkey ((eq_of_textOf? hvalue).trans (eq_of_textOf? ht).symm)
  have hrules : c'.rules = c.rules := by
    refine eq_of_map_eq_map (congrArg View.rules h) ?_
    rintro ⟨name, enabled, settings⟩ he ⟨name', enabled', settings'⟩ hsame
    obtain ⟨hname, henabled, hsettings⟩ := EntryView.mk.inj hsame
    dsimp only at hname henabled hsettings
    subst hname henabled
    cases settings with
    | none =>
      rw [Option.map_eq_none_iff.mp hsettings]
    | some ss =>
      obtain ⟨ss', rfl, hss⟩ := Option.map_eq_some_iff.mp hsettings
      rw [eq_of_map_eq_map hss fun s hs s' => hsetting (hc.settings _ he ss rfl s hs)]
  have hoverrides : c'.overrides = c.overrides := by
    rw [hc.overrides]
    refine List.eq_nil_of_length_eq_zero ((congrArg View.overrides h).trans ?_)
    rw [view, hc.overrides]
    rfl
  obtain ⟨scripts, patterns, ignored, jobs, rules, overrides⟩ := c'
  obtain ⟨hscripts, hpatterns, hignored, hjobs, -, -⟩ := View.mk.inj h
  dsimp only at hscripts hpatterns hignored hjobs hrules hoverrides
  rw [hscripts, hpatterns, hignored, hjobs, hrules, hoverrides]

theorem view_decode :
    (decode (fullDefaults .standard).render).toOption.map view
      = some (fullDefaults .standard).view := by
  rw [render, toTree_fullDefaults, fullDefaults, Registry.all_standard]
  decide +kernel

/-- **The defaults are read back as they are written.** -/
theorem decode_render_fullDefaults :
    decode (fullDefaults .standard).render = .ok (fullDefaults .standard) := by
  have hplain : (fullDefaults .standard).IsPlain := by
    refine ⟨?_, rfl⟩
    rw [fullDefaults, Registry.all_standard]
    decide
  have hview := view_decode
  cases hread : decode (fullDefaults .standard).render with
  | error e =>
    rw [hread] at hview
    cases hview
  | ok c =>
    rw [hread] at hview
    rw [hplain.eq_of_view (Option.some.inj hview)]

end Config

/-! ### What it changes -/

/-- A rule whose default settings give its own check is configured to itself by them. -/
theorem Rule.configure_of_apply {rule : Rule} {c : Configurable}
    (hc : rule.configurable = some c) (hne : c.defaults ≠ [])
    (happly : c.apply c.defaults = .ok rule.check) :
    rule.configure { enabled := true, settings := some c.defaults } = .ok rule := by
  obtain ⟨name, description, check, configurable⟩ := rule
  obtain rfl : configurable = some c := hc
  rw [Rule.configure_some _ hne, Option.elim_some, happly]
  rfl

theorem RequireVersion.apply_defaults :
    apply [(bytes "version", .text (Utf8.encode defaultVersion))]
      = .ok (check defaultVersion) := by
  have htrim : trimBytes (Utf8.encode defaultVersion) = Utf8.encode defaultVersion := by
    decide
  have hne : Utf8.encode defaultVersion ≠ [] := by decide
  have hdecode : Utf8.decode? (Utf8.encode defaultVersion) = some defaultVersion := by
    decide
  simp only [apply, versionOf, if_true, htrim, if_neg hne, bind, Except.bind, hdecode]
  rfl

theorem RequireSingleInstance.apply_defaults :
    apply [(bytes "mode", .text (Utf8.encode defaultMode))] = .ok (check defaultMode) := by
  have hmode : mode? (Utf8.encode defaultMode) = some defaultMode := by decide
  simp only [apply, modeOf, if_true, hmode, Except.map]

/-- **The default settings of a rule give the rule itself.** -/
theorem Rule.configure_defaults {rule : Rule} (h : rule ∈ Registry.standard.rules) :
    rule.configure { enabled := true, settings := rule.configurable.map (·.defaults) }
      = .ok rule := by
  simp only [Registry.standard, List.mem_cons, List.not_mem_nil, or_false] at h
  rcases h with rfl | rfl | rfl | rfl | rfl | rfl
  · exact Rule.configure_of_apply rfl (List.cons_ne_nil _ _) RequireVersion.apply_defaults
  · exact Rule.configure_of_apply rfl (List.cons_ne_nil _ _) RequireSingleInstance.apply_defaults
  all_goals rfl

namespace Config

/-- Whether every rule of the linter is on and stays as it is registered, for all files. -/
structure IsNeutral (c : Config) : Prop where
  rules : ∀ rule ∈ Registry.standard.rules, ∃ e, c.rules.get? rule.name = some e ∧
    e.enabled = true ∧ rule.configure e = .ok rule
  overrides : c.overrides = []

theorem isDistinct_map_standard (f : Rule → RuleEntry) :
    Entries.IsDistinct (Registry.standard.rules.map fun rule => (rule.name, f rule)) := by
  rw [Entries.IsDistinct, List.map_map]
  show (Registry.standard.rules.map (·.name)).Nodup
  decide

theorem get?_map_standard (f : Rule → RuleEntry) {rule : Rule}
    (h : rule ∈ Registry.standard.rules) :
    Entries.get? (Registry.standard.rules.map fun rule => (rule.name, f rule)) rule.name
      = some (f rule) :=
  (Entries.get?_eq_some_iff (isDistinct_map_standard f)).mpr
    (List.mem_map_of_mem (f := fun rule : Rule => (rule.name, f rule)) h)

theorem rules_defaults : (defaults .standard).rules
    = Registry.standard.rules.map fun rule => (rule.name, { enabled := true }) := by
  rw [defaults, Registry.names_standard, List.map_map]
  rfl

theorem rules_fullDefaults : (fullDefaults .standard).rules
    = Registry.standard.rules.map fun rule =>
      (rule.name, { enabled := true, settings := rule.configurable.map (·.defaults) }) := by
  rw [fullDefaults, Registry.all_standard]

theorem isNeutral_defaults : ((defaults .standard).merge none).IsNeutral where
  rules := by
    intro rule hrule
    refine ⟨{ enabled := true }, ?_, rfl, rfl⟩
    show (defaults .standard).rules.get? rule.name = _
    rw [rules_defaults, get?_map_standard _ hrule]
  overrides := rfl

/-- **The defaults that are spelled out change no rule.** -/
theorem isNeutral_fullDefaults :
    ((defaults .standard).merge (some (fullDefaults .standard))).IsNeutral where
  rules := by
    intro rule hrule
    refine ⟨_, ?_, rfl, Rule.configure_defaults hrule⟩
    show ((defaults .standard).rules.overlay (fullDefaults .standard).rules).get? rule.name = _
    rw [rules_fullDefaults, Entries.get?_overlay _ (isDistinct_map_standard _),
      get?_map_standard _ hrule]
    rfl
  overrides := rfl

/-- A configuration without overrides and with known rules only has no problems. -/
theorem validate_eq_ok {c : Config} (hoverrides : c.overrides = [])
    (hknown : ∀ name ∈ c.rules.map (·.1), name ∈ Registry.standard.rules.map (·.name))
    (hjobs : 0 ≤ c.jobs) : c.validate .standard = .ok () := by
  have hfind : ∀ name ∈ Registry.standard.rules.map (·.name),
      (Registry.standard.find? name).isNone = false := by decide
  have hunknown : c.unknownRules .standard = [] := by
    have hnone : (c.rules.map (·.1)).filter
        (fun name => (Registry.standard.find? name).isNone) = [] := by
      rw [List.filter_eq_nil_iff]
      intro name hname
      rw [hfind name (hknown name hname)]
      exact Bool.false_ne_true
    rw [unknownRules, hoverrides, List.flatMap_nil, List.append_nil, hnone, sortBytes,
      List.mergeSort_nil]
  rw [validate, hoverrides, hunknown]
  simp only [ne_eq, not_true_eq_false, if_false, if_neg (Int.not_lt.mpr hjobs)]
  rfl

theorem validate_fullDefaults : (fullDefaults .standard).validate .standard = .ok () := by
  refine validate_eq_ok rfl ?_ (Int.le_refl 0)
  rw [rules_fullDefaults]
  decide

theorem validate_merge_none : ((defaults .standard).merge none).validate .standard = .ok () := by
  refine validate_eq_ok rfl ?_ (Int.le_refl 0)
  show ∀ name ∈ (defaults .standard).rules.map (·.1), _
  rw [rules_defaults]
  decide

theorem validate_merge_fullDefaults :
    ((defaults .standard).merge (some (fullDefaults .standard))).validate .standard = .ok () := by
  refine validate_eq_ok rfl ?_ (Int.le_refl 0)
  show ∀ name ∈ ((defaults .standard).rules.overlay (fullDefaults .standard).rules).map (·.1), _
  rw [rules_defaults, rules_fullDefaults]
  decide

end Config

end ScriptLint
