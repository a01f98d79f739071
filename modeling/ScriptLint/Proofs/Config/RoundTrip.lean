import ScriptLint.Proofs.Config.Defaults
import ScriptLint.Proofs.Config.ReadingBack
import ScriptLint.Proofs.Rule.Settings

/-!
# Writing and reading configurations

A configuration that was loaded is written and loaded again (`Config.load_render`). The second one
says what the first one said, for every file, and it configures every rule alike, provided that the
text is read as the tree it was written from and that no two keys are written alike. Without its
conditions this does not hold (`Config.not_load_render`).
-/

namespace ScriptLint

open Yaml

/-! ### The rules for a file -/

theorem rel_or {β β' : Type} {R : β → β' → Prop} {a b : Option β} {a' b' : Option β'}
    (ha : Option.Rel R a a') (hb : Option.Rel R b b') : Option.Rel R (a.or b) (a'.or b') := by
  cases ha with
  | none => exact hb
  | some h => exact .some h

/-- The first answers of lists that answer alike one by one. -/
theorem rel_findSome? {α α' β β' : Type} {R : β → β' → Prop} {f : α → Option β}
    {f' : α' → Option β'} {as : List α} {as' : List α'}
    (h : List.Forall₂ (fun a a' => Option.Rel R (f a) (f' a')) as as') :
    Option.Rel R (as.findSome? f) (as'.findSome? f') := by
  have hcons {γ δ : Type} (f : γ → Option δ) (a : γ) (as : List γ) :
      (a :: as).findSome? f = (f a).or (as.findSome? f) := by
    rw [List.findSome?_cons]
    cases f a with
    | none => rfl
    | some b => rfl
  induction h with
  | nil => exact .none
  | cons ha _ ih =>
    rw [hcons, hcons]
    exact rel_or ha ih

namespace Config

variable {c c' : Config} {file name : Bytes}

/-- Configurations that say the same tell the rules the same for every file. -/
theorem ReadsBack.effective (h : c.ReadsBack c') (hc : c.IsDistinct) (hc' : c'.IsDistinct)
    (file name : Bytes) :
    Option.Rel RuleEntry.ReadsBack ((c.effective file).get? name)
      ((c'.effective file).get? name) := by
  have hrules : Option.Rel RuleEntry.ReadsBack (c.rules.get? name) (c'.rules.get? name) :=
    Entries.Alike.get? (h .rules) hc.rules name
  have hoverrides : Option.Rel RuleEntry.ReadsBack
      (c.overrides.reverse.findSome? (·.told? file name))
      (c'.overrides.reverse.findSome? (·.told? file name)) := by
    refine rel_findSome? (List.forall₂_reverse_iff.mpr ?_)
    refine ((List.forall₂_and_left _ _).mpr ⟨hc.overrides, h .overrides⟩).imp fun o o' ho => ?_
    have hfiles : o'.files = o.files := ho.2 .files
    rw [Override.told?, Override.told?, hfiles]
    split_ifs
    · exact Entries.Alike.get? (ho.2 .rules) ho.1 name
    · exact .none
  rw [get?_effective_eq c hc.overrides, get?_effective_eq c' hc'.overrides, told?, told?]
  exact rel_or hoverrides hrules

theorem IsSound.effective (h : c.IsSound) (file : Bytes) : ∀ e ∈ c.effective file, e.2.IsSound := by
  unfold Config.effective
  obtain ⟨-, hrules, hoverrides⟩ := h
  generalize c.rules = rules at hrules ⊢
  generalize c.overrides = overrides at hoverrides ⊢
  induction overrides generalizing rules with
  | nil => exact hrules
  | cons o os ih =>
    rw [List.forall_mem_cons] at hoverrides
    rw [List.foldl_cons]
    refine ih _ ?_ hoverrides.2
    split_ifs
    · exact Entries.forall_mem_overlay hrules hoverrides.1
    · exact hrules

end Config

/-! ### The rules that are configured -/

/-- Whether a rule is configured alike by two entries: accepted as the same rule, and refused for
the same reason, in one of the orders in which the first entry's settings can be listed. -/
structure Rule.ConfiguredAlike (rule : Rule) (e e' : RuleEntry) : Prop where
  accepted : ∀ configured, rule.configure e = .ok configured ↔ rule.configure e' = .ok configured
  refused : ∃ settings : Settings, (e.settings.getD []).Perm settings ∧
    Agree ConfigureError.Same (rule.configure { e with settings := some settings })
      (rule.configure e')

/-- **What is read back configures a rule as before.** -/
theorem RuleEntry.ReadsBack.configuredAlike {e e' : RuleEntry} (h : e.ReadsBack e')
    (hsound : e.IsSound) (hfaithful : e.IsFaithful) {rule : Rule}
    (hrule : rule ∈ Registry.standard.rules) : rule.ConfiguredAlike e e' := by
  have hregular : ∀ c ∈ rule.configurable, c.IsRegular :=
    fun c hc => Registry.isRegular_standard hrule hc
  obtain ⟨ordered, hperm, hsettings⟩ := h.settings hfaithful.written
  have hdistinct : Entries.IsDistinct (e.settings.getD []) := by
    cases hsome : e.settings with
    | none => exact Entries.isDistinct_nil
    | some settings => exact (hsound settings hsome).isDistinct
  have hsame : Settings.SameInOrder ordered (e'.settings.getD []) := by
    refine ((List.forall₂_and_left _ _).mpr ⟨fun s hs => ?_, hsettings⟩).imp
      fun s s' hs => ⟨hs.2.1, hs.2.2 hs.1⟩
    exact hfaithful.settings s (hperm.mem_iff.mpr hs)
  have hagree := Rule.agree_configure hregular hsame e.enabled e.enabled
  rw [← Rule.configure_getD rule e' e.enabled] at hagree
  refine ⟨fun configured => ?_, ordered, hperm, hagree⟩
  rw [← hagree.ok_iff, rule.configure_getD e e.enabled]
  constructor
  · exact Rule.configure_perm hregular hdistinct hperm e.enabled
  · exact Rule.configure_perm hregular (hdistinct.perm hperm) hperm.symm e.enabled

/-! ### Writing and reading -/

namespace Config

/-- The test for a text that is read as the tree it was written from. -/
def isReadAs (text : Bytes) (tree : Tree) : Bool :=
  (Document.parse? text).toOption.any (·.any fun d => tree.agrees d.root)

theorem exists_of_isReadAs {text : Bytes} {tree : Tree} (h : isReadAs text tree = true) :
    ∃ d, Document.parse? text = .ok (some d) ∧ tree.agrees d.root = true := by
  simp only [isReadAs, Option.any_eq_true] at h
  obtain ⟨_, hparse, d, rfl, htree⟩ := h
  exact ⟨d, ((toOption_eq_iff (x := .ok (some d))).mp hparse (some d)).mpr rfl, htree⟩

/-- A configuration file in the current directory is loaded as what it describes. -/
theorem load_fileName {data : Bytes} {c : Config} (h : (decode data).toOption = some c) :
    load ⟨.dir [(fileName, .file data)], []⟩ fileName = .ok c := by
  have hread : World.readFile ⟨.dir [(fileName, .file data)], []⟩ fileName = .ok data := rfl
  have hok := ((toOption_eq_iff (x := .ok c)).mp h c).mpr rfl
  simp only [load, hread, hok]

/-- A configuration within bounds is read back from the text that is written for it. -/
theorem exists_decode_render {c : Config} (hsound : c.IsSound) (hkeys : c.toTree.KeysApart)
    {d : Document} (hparse : Document.parse? c.render = .ok (some d))
    (htree : c.toTree.agrees d.root = true) :
    ∃ c', decode c.render = .ok c' ∧ c.ReadsBack c' := by
  have hdepth : d.root.IsWithin (d.size + 1) := Document.isWithin_of_parse? hparse
  have hfuel : d.size < Decoding.depthBound d :=
    Nat.lt_of_lt_of_le (Nat.lt_succ_self _) (Nat.le_mul_of_pos_right _ (Nat.succ_pos _))
  have hgives := Decoding.gives_tick.bind fun _ _ =>
    Decoding.gives_configOf hfuel hsound hkeys htree hdepth
  obtain ⟨_, hok, c', rfl, hread⟩ := hgives.exists_apart
  refine ⟨c', ?_, hread⟩
  simp only [decode, hparse]
  rw [hok]
  rfl

/-- **A loaded configuration is written and loaded again**, with the same rules for every file. The
text is taken to be read as the tree that it was written from. -/
theorem load_render {w w' : World} {path path' : Bytes} {c : Config} {d : Document}
    (hload : load w path = .ok c) (hkeys : c.toTree.KeysApart)
    (hparse : Document.parse? c.render = .ok (some d)) (htree : c.toTree.agrees d.root = true)
    (hfile : w'.readFile path' = .ok c.render) :
    ∃ c', load w' path' = .ok c' ∧ c.ReadsBack c' ∧ ∀ file,
      (∀ name, Option.Rel RuleEntry.ReadsBack
        ((c.effective file).get? name) ((c'.effective file).get? name)) ∧
      ∀ rule ∈ Registry.standard.rules, ∀ e ∈ (c.effective file).get? rule.name, e.IsFaithful →
        ∃ e', (c'.effective file).get? rule.name = some e' ∧ rule.ConfiguredAlike e e' := by
  have hsound := isSound_of_load hload
  obtain ⟨c', hdecode, hread⟩ := exists_decode_render hsound hkeys hparse htree
  have hload' : load w' path' = .ok c' := by simp only [load, hfile, hdecode]
  have heffective := hread.effective (isDistinct_of_load hload) (isDistinct_of_load hload')
  refine ⟨c', hload', hread, fun file => ⟨heffective file, fun rule hrule e he hfaithful => ?_⟩⟩
  have hrel := heffective file rule.name
  have hentry := hsound.effective file _ (Entries.mem_of_get?_eq_some he)
  rw [he] at hrel
  cases hget : (c'.effective file).get? rule.name with
  | none =>
    rw [hget] at hrel
    cases hrel
  | some e' =>
    rw [hget] at hrel
    cases hrel with
    | some hrel => exact ⟨e', rfl, hrel.configuredAlike hentry hfaithful hrule⟩

/-- A file with an override that asks for a version. -/
theorem load_render_override :
    let text := bytes ("jobs: 2\nrules:\n  require_warn: false\noverrides:\n- files: ['*.ahk']\n"
      ++ "  rules:\n    require_ahk_version: \x7bversion: v1.1\x7d\n")
    let file := bytes "a.ahk"
    ∃ c d, load ⟨.dir [(fileName, .file text)], []⟩ fileName = .ok c ∧ c.toTree.KeysApart ∧
      Document.parse? c.render = .ok (some d) ∧ c.toTree.agrees d.root = true ∧
      World.readFile ⟨.dir [(fileName, .file c.render)], []⟩ fileName = .ok c.render ∧
      ∃ c', load ⟨.dir [(fileName, .file c.render)], []⟩ fileName = .ok c' ∧ c.ReadsBack c' ∧
        ∃ e e', (c.effective file).get? RequireVersion.rule.name = some e ∧
          (c'.effective file).get? RequireVersion.rule.name = some e' ∧
          RequireVersion.rule.ConfiguredAlike e e' := by
  intro text file
  have hchecks : (decode text).toOption.any (fun c =>
      c.toTree.keysApart && isReadAs c.render c.toTree &&
        ((c.effective file).get? RequireVersion.rule.name).any fun e =>
          e.enabled && (e.settings.getD []).all (·.2.isUtf8Text)) = true := by
    decide +kernel
  simp only [Option.any_eq_true, Bool.and_eq_true, List.all_eq_true] at hchecks
  obtain ⟨c, hdecode, ⟨hkeys, hreadAs⟩, e, he, henabled, htexts⟩ := hchecks
  obtain ⟨d, hparse, htree⟩ := exists_of_isReadAs hreadAs
  have hload := load_fileName hdecode
  have hkeys := Tree.keysApart_iff.mp hkeys
  have hfile : World.readFile ⟨.dir [(fileName, .file c.render)], []⟩ fileName = .ok c.render := rfl
  have hfaithful : e.IsFaithful := by
    refine ⟨.inl henabled, fun s hs => ?_⟩
    obtain ⟨t, ht, -⟩ := Value.exists_of_isUtf8Text (htexts s hs)
    rw [ht]
    exact .text
  obtain ⟨c', hload', hread, hrules⟩ := load_render hload hkeys hparse htree hfile
  obtain ⟨e', he', halike⟩ := (hrules file).2 RequireVersion.rule (by simp [Registry.standard]) e he
    hfaithful
  exact ⟨c, d, hload, hkeys, hparse, htree, hfile, c', hload', hread, e, e', he, he', halike⟩

/-! ### What writing loses

What is written for a value may look like another value, and two keys that are written alike make a
text that is not loaded. -/

/-- The text of a configuration with one entry, at the rule for single instances. -/
def textOfEntry (entry : String) : Bytes :=
  bytes ("rules:\n  require_single_instance:" ++ entry)

/-- Entries with settings that come back as others. A whole number loses its point, a rule that is
off loses its settings, and an offset of 25 hours makes no timestamp. A mapping of other keys
becomes one of strings when all its keys are strings, and a mapping of strings one of other keys
when a key is no text. -/
def changingEntries : List String :=
  ["\n    mode: 2.0\n", " !!null\n    enabled: false\n    settings:\n      mode: Off\n",
    "\n    mode: 2001-01-01T00:00:00+24:60\n", "\n    mode:\n      !!binary YQ==: 1\n",
    "\n    mode:\n      <<:\n        !!binary /w==: 1\n"]

/-- An entry with two keys that are written alike. -/
def twinEntry : String := "\n    mode:\n      ~: a\n      'null': b\n"

/-- An entry with a key that is written as the sign that asks for a merge. -/
def mergeEntry : String := "\n    '<<': a\n"

/-- Whether a configuration is loaded from a text, and written as one that is read as the tree it
was written from. -/
structure IsWrittenFor (c : Config) (text : Bytes) : Prop where
  loaded : load ⟨.dir [(fileName, .file text)], []⟩ fileName = .ok c
  parsed : ∃ d, Document.parse? c.render = .ok (some d) ∧ c.toTree.agrees d.root = true

theorem exists_isWrittenFor {text : Bytes} {test : Config → Bool}
    (h : ((decode text).toOption.any fun c => isReadAs c.render c.toTree && test c) = true) :
    ∃ c : Config, c.IsWrittenFor text ∧ test c = true := by
  simp only [Option.any_eq_true, Bool.and_eq_true] at h
  obtain ⟨c, hdecode, hparse, htest⟩ := h
  exact ⟨c, ⟨load_fileName hdecode, exists_of_isReadAs hparse⟩, htest⟩

theorem not_load_of_isNone {text : Bytes} (h : (decode text).toOption.isNone = true) (c : Config) :
    load ⟨.dir [(fileName, .file text)], []⟩ fileName ≠ .ok c := by
  have hread : World.readFile ⟨.dir [(fileName, .file text)], []⟩ fileName = .ok text := rfl
  intro hload
  simp only [load, hread] at hload
  cases hdecode : decode text with
  | ok c =>
    rw [hdecode] at h
    cases h
  | error e =>
    rw [hdecode] at hload
    cases hload

/-- The kinds of the settings of a rule, if it has an entry. -/
def settingKinds? (c : Config) (name : Bytes) : Option (List Bytes) :=
  (c.rules.get? name).map fun e => (e.settings.getD []).map (·.2.kindName)

theorem exists_changed {entry : String} (h : entry ∈ changingEntries) :
    ∃ c c' : Config, c.IsWrittenFor (textOfEntry entry) ∧
      load ⟨.dir [(fileName, .file c.render)], []⟩ fileName = .ok c' ∧
      ∃ e e', c.rules.get? instanceRuleName = some e ∧ c'.rules.get? instanceRuleName = some e' ∧
        ¬ Value.Same (.map (e.settings.getD [])) (.map (e'.settings.getD [])) := by
  have hchange : ∀ entry ∈ changingEntries, ((decode (textOfEntry entry)).toOption.any fun c =>
      isReadAs c.render c.toTree && (decode c.render).toOption.any fun c' =>
        (c.settingKinds? instanceRuleName).any fun kinds =>
          (c'.settingKinds? instanceRuleName).any fun kinds' => !kinds.isPerm kinds') = true := by
    simp only [changingEntries, List.forall_mem_cons]
    refine ⟨?_, ?_, ?_, ?_, ?_, List.forall_mem_nil _⟩
    all_goals decide +kernel
  obtain ⟨c, hwritten, htest⟩ := exists_isWrittenFor (hchange entry h)
  simp only [settingKinds?, Option.any_eq_true, Option.map_eq_some_iff] at htest
  obtain ⟨c', hdecode', _, ⟨e, he, rfl⟩, _, ⟨e', he', rfl⟩, hkinds⟩ := htest
  refine ⟨c, c', hwritten, load_fileName hdecode', e, e', he, he', fun hsame => ?_⟩
  -- Settings that are the same have the same kinds, in some order.
  rw [List.isPerm_iff.mpr hsame.perm_kindName] at hkinds
  cases hkinds

theorem exists_not_loaded_merge :
    ∃ c : Config, c.IsWrittenFor (textOfEntry mergeEntry) ∧
      ∀ c', load ⟨.dir [(fileName, .file c.render)], []⟩ fileName ≠ .ok c' := by
  have hclash : ((decode (textOfEntry mergeEntry)).toOption.any fun c =>
      isReadAs c.render c.toTree && (decode c.render).toOption.isNone) = true := by
    decide +kernel
  obtain ⟨c, hwritten, hnone⟩ := exists_isWrittenFor hclash
  exact ⟨c, hwritten, not_load_of_isNone hnone⟩

/-! Entries are sorted when they are written, and sorting is not evaluated by the kernel. So the
configuration with two keys is taken apart, and its tree is computed from its parts. -/

/-- A configuration with one setting, a mapping from null and a string to strings. -/
def withTable (name key text a b : Bytes) : Config where
  rules := [(name, ⟨true, some [(key, .table [(.null, .text a), (.text text, .text b)])]⟩)]

/-- The parts of a configuration of this form. -/
def table? : Config → Option (Bytes × Bytes × Bytes × Bytes × Bytes)
  | ⟨[], [], [], 0,
      [(name, ⟨true, some [(key, .table [(.null, .text a), (.text text, .text b)])]⟩)], []⟩ =>
    some (name, key, text, a, b)
  | _ => none

theorem eq_of_table? {name key text a b : Bytes} (h : c.table? = some (name, key, text, a, b)) :
    c = withTable name key text a b := by
  unfold table? at h
  split at h
  · cases h
    rfl
  · cases h

/-- Null stands before the string, so that the entries are written in their order. -/
theorem toTree_withTable (name key text a b : Bytes) :
    (withTable name key text a b).toTree = textMapping [(bytes "rules", textMapping [(name,
      textMapping [(key,
        .mapping [(.plain "null".toList, .string a), (.string text, .string b)])])])] := by
  have htable : Tree.ofValue (.table [(.null, .text a), (.text text, .text b)])
      = .mapping [(.plain "null".toList, .string a), (.string text, .string b)] := by
    simp only [Tree.ofValue, Tree.ofTable]
    exact Tree.sortedMapping_of_pairwise (List.pairwise_pair.mpr rfl)
  have hsettings : Tree.ofValue (.map [(key, .table [(.null, .text a), (.text text, .text b)])])
      = textMapping [(key, Tree.ofValue (.table [(.null, .text a), (.text text, .text b)]))] := by
    rw [Tree.ofValue]
    exact Tree.sortedMapping_of_pairwise (List.pairwise_singleton _ _)
  have hrules : rulesTree (withTable name key text a b).rules = textMapping [(name,
      Tree.ofValue (.map [(key, .table [(.null, .text a), (.text text, .text b)])]))] :=
    Tree.sortedMapping_of_pairwise (List.pairwise_singleton _ _)
  rw [← htable, ← hsettings, ← hrules]
  rfl

theorem exists_not_loaded_twin :
    ∃ c : Config, c.IsWrittenFor (textOfEntry twinEntry) ∧
      ∀ c', load ⟨.dir [(fileName, .file c.render)], []⟩ fileName ≠ .ok c' := by
  have hparts : (decode (textOfEntry twinEntry)).toOption.bind table?
      = some (instanceRuleName, bytes "mode", bytes "null", bytes "a", bytes "b") := by
    decide +kernel
  obtain ⟨c, hdecode, hc⟩ := Option.bind_eq_some_iff.mp hparts
  have htree := congrArg toTree (eq_of_table? hc)
  rw [toTree_withTable] at htree
  refine ⟨c, ⟨load_fileName hdecode, exists_of_isReadAs ?_⟩, not_load_of_isNone ?_⟩
  · rw [render, htree]
    decide +kernel
  · rw [render, htree]
    decide +kernel

/-- **Some settings do not come back**, and some texts are not loaded again. -/
theorem not_load_render :
    (∀ entry ∈ changingEntries, ∃ c c' : Config, c.IsWrittenFor (textOfEntry entry) ∧
      load ⟨.dir [(fileName, .file c.render)], []⟩ fileName = .ok c' ∧
      ∃ e e', c.rules.get? instanceRuleName = some e ∧ c'.rules.get? instanceRuleName = some e' ∧
        ¬ Value.Same (.map (e.settings.getD [])) (.map (e'.settings.getD []))) ∧
    (∀ entry ∈ [mergeEntry, twinEntry], ∃ c : Config, c.IsWrittenFor (textOfEntry entry) ∧
      ∀ c', load ⟨.dir [(fileName, .file c.render)], []⟩ fileName ≠ .ok c') := by
  refine ⟨fun entry h => exists_changed h, fun entry h => ?_⟩
  rcases List.mem_pair.mp h with rfl | rfl
  · exact exists_not_loaded_merge
  · exact exists_not_loaded_twin

end Config

end ScriptLint
