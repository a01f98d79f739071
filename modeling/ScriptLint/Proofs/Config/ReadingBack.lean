import ScriptLint.Config.Render
import ScriptLint.Proofs.Config.Soundness
import ScriptLint.Proofs.Config.ValueReading

/-!
# Reading back configurations

The nodes that a configuration is written as are decoded part by part: texts, settings, the entries
of rules, overrides, and at last the configuration itself (`Decoding.gives_configOf`). What comes
back says the same as what was written (`Config.ReadsBack`), save for the settings of rules that are
off, which are not written, and for values that are not faithful.
-/

namespace ScriptLint

open Yaml

/-! ### What is read back -/

/-- Whether settings say what others said: under the same names, the same values where these are
faithful. -/
def Settings.ReadsBack (settings settings' : Settings) : Prop :=
  Entries.Alike (fun v v' => v.IsFaithful → v.Same v') settings settings'

/-- Whether an entry says what another one said. The settings of a rule that is off are not
written. -/
structure RuleEntry.ReadsBack (e e' : RuleEntry) : Prop where
  enabled : e'.enabled = e.enabled
  settings : e.enabled = true ∨ e.settings.getD [] = [] →
    Settings.ReadsBack (e.settings.getD []) (e'.settings.getD [])

/-- Whether an entry comes back as it was: its settings are written, and they are faithful. -/
structure RuleEntry.IsFaithful (e : RuleEntry) : Prop where
  written : e.enabled = true ∨ e.settings.getD [] = []
  settings : ∀ s ∈ e.settings.getD [], s.2.IsFaithful

/-- An entry is written as a boolean, or as its settings when it is on and has some. -/
theorem RuleEntry.toTree_cases (e : RuleEntry) :
    (e.toTree = .ofValue (.bool e.enabled) ∧ (e.enabled = true → e.settings.getD [] = [])) ∨
      (e.enabled = true ∧ ∃ settings, e.settings = some settings ∧
        e.toTree = .ofValue (.map settings)) := by
  obtain ⟨enabled, settings⟩ := e
  cases enabled with
  | false => exact .inl ⟨rfl, fun h => absurd h Bool.false_ne_true⟩
  | true =>
    cases settings with
    | none => exact .inl ⟨rfl, fun _ => rfl⟩
    | some settings =>
      cases settings with
      | nil => exact .inl ⟨rfl, fun _ => rfl⟩
      | cons s ss => exact .inr ⟨rfl, s :: ss, rfl, rfl⟩

/-! ### Fields -/

namespace Override

/-- The fields of an override. -/
inductive Field where
  | files
  | rules
deriving DecidableEq

/-- The name under which a field is written. -/
def Field.name : Field → Bytes
  | .files => bytes "files"
  | .rules => bytes "rules"

/-- What is written for a field. -/
def Field.tree (o : Override) : Field → Tree
  | .files => textsTree o.files
  | .rules => rulesTree o.rules

/-- Whether a field says what it said in another override. -/
def Field.ReadsBack (f : Field) (o o' : Override) : Prop :=
  match f with
  | .files => o'.files = o.files
  | .rules => Entries.Alike RuleEntry.ReadsBack o.rules o'.rules

/-- Whether an override says what another one said. -/
def ReadsBack (o o' : Override) : Prop := ∀ f : Field, f.ReadsBack o o'

/-- Both fields of an override are written. -/
theorem toTree_eq (o : Override) :
    o.toTree = .mapping ([Field.files, .rules].map fun f => (.string f.name, f.tree o)) := rfl

end Override

namespace Config

/-- The fields of a configuration. -/
inductive Field where
  | scripts
  | patterns
  | ignored
  | jobs
  | rules
  | overrides
deriving DecidableEq

/-- The name under which a field is written. -/
def Field.name : Field → Bytes
  | .scripts => bytes "scripts"
  | .patterns => bytes "include"
  | .ignored => bytes "ignore"
  | .jobs => bytes "jobs"
  | .rules => bytes "rules"
  | .overrides => bytes "overrides"

/-- What is written for a field. -/
def Field.tree (c : Config) : Field → Tree
  | .scripts => .string c.scripts
  | .patterns => textsTree c.patterns
  | .ignored => textsTree c.ignored
  | .jobs => .ofValue (.int c.jobs)
  | .rules => rulesTree c.rules
  | .overrides => .sequence (c.overrides.map (·.toTree))

/-- Whether a field says something. -/
def Field.isSaid (c : Config) : Field → Bool
  | .scripts => c.scripts ≠ []
  | .patterns => c.patterns ≠ []
  | .ignored => c.ignored ≠ []
  | .jobs => c.jobs ≠ 0
  | .rules => c.rules ≠ []
  | .overrides => c.overrides ≠ []

/-- Whether a field says what it said in another configuration. -/
def Field.ReadsBack (f : Field) (c c' : Config) : Prop :=
  match f with
  | .scripts => c'.scripts = c.scripts
  | .patterns => c'.patterns = c.patterns
  | .ignored => c'.ignored = c.ignored
  | .jobs => c'.jobs = c.jobs
  | .rules => Entries.Alike RuleEntry.ReadsBack c.rules c'.rules
  | .overrides => List.Forall₂ Override.ReadsBack c.overrides c'.overrides

/-- Whether a configuration says what another one said. -/
def ReadsBack (c c' : Config) : Prop := ∀ f : Field, f.ReadsBack c c'

/-- The fields that are written. -/
def fields (c : Config) : List Field :=
  [Field.scripts, .patterns, .ignored, .jobs, .rules, .overrides].filter (·.isSaid c)

theorem toTree_eq (c : Config) :
    c.toTree = .mapping (c.fields.map fun f => (.string f.name, f.tree c)) := by
  have hcons (f : Field) (fs : List Field) : (f :: fs).filter (·.isSaid c)
      = (if f.isSaid c then [f] else []) ++ fs.filter (·.isSaid c) := by
    rw [List.filter_cons]
    split_ifs
    · rfl
    · rfl
  simp only [fields, hcons, List.filter_nil, List.append_nil, List.map_append,
    apply_ite (List.map _), List.map_cons, List.map_nil]
  simp only [toTree, Tree.record, List.map_append, apply_ite (List.map _), List.map_cons,
    List.map_nil, List.append_assoc]
  rfl

/-- A field that says nothing is that of the empty configuration. -/
theorem Field.readsBack_of_not_isSaid {f : Field} {c c' : Config} (hf : f.isSaid c = false)
    (h : f.ReadsBack {} c') : f.ReadsBack c c' := by
  cases f with
  | scripts => exact h.trans (of_decide_eq_false hf |> not_not.mp).symm
  | patterns => exact h.trans (of_decide_eq_false hf |> not_not.mp).symm
  | ignored => exact h.trans (of_decide_eq_false hf |> not_not.mp).symm
  | jobs => exact h.trans (of_decide_eq_false hf |> not_not.mp).symm
  | rules =>
    rw [ReadsBack, not_not.mp (of_decide_eq_false hf)]
    exact h
  | overrides =>
    rw [ReadsBack, not_not.mp (of_decide_eq_false hf)]
    exact h

end Config

namespace Decoding

variable {d : Document} {k : ℕ} {n : Node}

/-! ### Lists and mappings -/

theorem gives_textsOf {texts : List Bytes} (hn : (textsTree texts).agrees n = true) :
    Gives (fun o => o = some texts) (listOf d .texts (textOf d) n) := by
  obtain ⟨nodes, line, rfl, hagrees⟩ := Tree.agrees_sequence hn
  rw [List.forall₂_map_left_iff] at hagrees
  refine (gives_listOf (T := Eq) (fun s n h => ?_) hagrees _ _).mono ?_
  · exact (gives_textOf (Tree.isText_of_agrees h)).mono fun o ho => ⟨s, ho, rfl⟩
  · rintro _ ⟨as, rfl, has⟩
    rw [List.forall₂_eq_eq_eq] at has
    rw [has]

/-- **Named parts are read back under their names**, one by one. -/
theorem gives_entriesOf {α β : Type} {R : α → β → Prop} {tree : α → Tree} {es : Entries α}
    {wanted : Shape} {null : Option (Entries β)}
    {put : Entries β → Entry Bytes → Decoding (Entries β)}
    (hapart : Tree.KeysApart
      (Tree.sortedMapping (es.map fun e => (.text e.1, Tree.string e.1, tree e.2))))
    (hn : (Tree.sortedMapping (es.map fun e => (.text e.1, Tree.string e.1, tree e.2))).agrees n
      = true)
    (hdepth : n.IsWithin k)
    (hput : ∀ a e out, a ∈ es → (tree a.2).KeysApart → (tree a.2).agrees e.value = true →
      e.value.IsWithin k → Gives (fun out' => ∃ b, R a.2 b ∧ out' = out.set e.key b) (put out e)) :
    Gives (fun o => ∃ es', o = some es' ∧ es.Alike R es') (mappingOf d wanted null [] put n) := by
  obtain ⟨sorted, hperm, hsorted⟩ := Tree.exists_sortedMapping_map
    (fun e : Bytes × α => (Value.text e.1, Tree.string e.1, tree e.2)) es
  rw [hsorted] at hapart hn
  have htrees : ∀ e ∈ sorted, (tree e.2).KeysApart := by
    cases hapart with
    | mapping _ _ values => exact fun e he => values _ (List.mem_map_of_mem he)
  -- The entries that are done are listed in order behind the names of the tree.
  refine (gives_mappingOf (J := List.Forall₂ fun e e' => e'.1 = e.1 ∧ R e.2 e'.2) hapart hn
    (hdepth.mono (Nat.le_succ k)) ?_ .nil).mono ?_
  · intro done a e out hinitial hagrees hvalue hkey _ _ hdone hout
    have hmem : a ∈ sorted := hinitial.subset (List.mem_append_right _ (List.mem_singleton.mpr rfl))
    refine (hput a e out (hperm.mem_iff.mpr hmem) (htrees a hmem) hagrees hvalue).mono ?_
    rintro _ ⟨b, hb, rfl⟩
    have hnew : ∀ o ∈ out, o.1 ≠ e.key :=
      forall_of_forall₂ hout hdone fun j o hj hne => by rwa [hj.1, hkey]
    rw [Entries.set_eq_append hnew]
    exact List.rel_append hout (.cons ⟨hkey, hb⟩ .nil)
  · rintro _ ⟨es', rfl, hes'⟩
    exact ⟨es', rfl, sorted, hperm, hes'⟩

/-- **A record is read back field by field.** What a field says is compared by `R`; a field that
is not written stays as it is in `base`. -/
theorem gives_recordOf {F σ : Type} [DecidableEq F] {R : F → σ → σ → Prop} {name : F → Bytes}
    {tree : F → Tree} {fields : List F} {base s : σ} {wanted : Shape} {null : Option σ}
    {put : σ → Entry Bytes → Decoding σ}
    (hapart : Tree.KeysApart (.mapping (fields.map fun f => (.string (name f), tree f))))
    (hn : (Tree.mapping (fields.map fun f => (.string (name f), tree f))).agrees n = true)
    (hdepth : n.IsWithin (k + 1)) (hbase : ∀ f, R f base base)
    (hput : ∀ f e out, (tree f).KeysApart → (tree f).agrees e.value = true → e.value.IsWithin k →
      e.key = name f → e.isRepeated = false →
      Gives (fun out' => R f s out' ∧ ∀ g, g ≠ f → ∀ t, R g t out → R g t out')
        (put out e)) :
    Gives (fun o => ∃ s', o = some s' ∧ ∀ f, R f (if f ∈ fields then s else base) s')
      (mappingOf d wanted null base put n) := by
  have htrees : ∀ f ∈ fields, (tree f).KeysApart := by
    cases hapart with
    | mapping _ _ values => exact fun f hf => values _ (List.mem_map_of_mem hf)
  refine gives_mappingOf (J := fun done out => ∀ f, R f (if f ∈ done then s else base) out)
    hapart hn hdepth ?_ fun f => by rw [if_neg List.not_mem_nil]; exact hbase f
  intro done f e out hinitial hagrees hvalue hkey _ hrepeated _ hout
  have hmem : f ∈ fields := hinitial.subset (List.mem_append_right _ (List.mem_singleton.mpr rfl))
  refine (hput f e out (htrees f hmem) hagrees hvalue hkey hrepeated).mono ?_
  rintro out' ⟨hread, hothers⟩ g
  -- The field that was set is told, and no other field has changed.
  by_cases hg : g = f
  · subst hg
    rwa [if_pos (List.mem_append_right _ (List.mem_singleton.mpr rfl))]
  · have hiff : g ∈ done ++ [f] ↔ g ∈ done := by simp [hg]
    rw [if_congr hiff rfl rfl]
    exact hothers g hg _ (hout g)

/-! ### Rules -/

theorem gives_settingsOf (hk : k < depthBound d) {settings : Settings}
    (hsound : Settings.IsSound settings) (hapart : (Tree.ofValue (.map settings)).KeysApart)
    (hn : (Tree.ofValue (.map settings)).agrees n = true) (hdepth : n.IsWithin k) :
    Gives (fun o => ∃ settings', o = some settings' ∧ settings.ReadsBack settings')
      (settingsOf d n) := by
  rw [Tree.ofValue, Tree.ofMap_eq] at hapart hn
  refine gives_entriesOf (R := fun v v' => v.IsFaithful → v.Same v') hapart hn hdepth ?_
  intro a e out ha hvalueApart hagrees hvalue
  refine (gives_anyValue d hk a.2 e.value (hsound.values a ha) hvalueApart hagrees hvalue).bind ?_
  rintro _ ⟨v', rfl, hsame⟩
  exact gives_pure ⟨v', hsame, rfl⟩

theorem gives_ruleEntryOf (hk : k < depthBound d) {e : RuleEntry} (hsound : e.IsSound)
    (hapart : e.toTree.KeysApart) (hn : e.toTree.agrees n = true) (hdepth : n.IsWithin k) :
    Gives (fun o => ∃ e', o = some e' ∧ e.ReadsBack e') (ruleEntryOf d n) := by
  have hnotNull : Tag.bool ≠ Tag.null ∧ Tag.map ≠ Tag.null := by decide
  rcases e.toTree_cases with ⟨htree, hnone⟩ | ⟨henabled, settings, hsettings, htree⟩
  · -- A boolean.
    obtain ⟨enabled, settings⟩ := e
    dsimp only at hnone htree
    rw [htree, Tree.ofValue] at hn
    obtain ⟨line, rfl⟩ := Tree.agrees_scalar hn
    obtain ⟨t, hnode, hvalue⟩ : ∃ t,
        Node.ofScalar [] (if enabled then "true" else "false").toList .plain line
          = .scalar Tag.bool t line ∧ scalarValue Tag.bool t = pure (Tag.bool, .bool enabled) := by
      cases enabled with
      | false => exact ⟨_, rfl, rfl⟩
      | true => exact ⟨_, rfl, rfl⟩
    rw [hnode]
    have hscalar : Gives (fun o => o = some enabled)
        (scalarOf d .bool asBool? (.scalar Tag.bool t line)) :=
      gives_scalarOf hvalue (by simp) rfl
    obtain ⟨_, hok, rfl⟩ := hscalar.exists_apart
    refine Gives.visit rfl ?_
    rw [if_neg (show ¬ d.tagOf (.scalar Tag.bool t line) = Tag.null from hnotNull.1)]
    dsimp only
    rw [hok]
    refine gives_pure ⟨_, rfl, rfl, fun h => ?_⟩
    rw [show settings.getD [] = [] from h.elim hnone id]
    exact Entries.alike_nil
  · -- A mapping of settings.
    rw [htree] at hapart hn
    obtain ⟨_, hok, settings', rfl, hread⟩ :=
      (gives_settingsOf hk (hsound settings hsettings) hapart hn hdepth).exists_apart
    obtain ⟨sorted, -, hmapping⟩ := Tree.exists_ofValue_map settings
    rw [hmapping] at hn
    obtain ⟨nodes, line, rfl, -⟩ := Tree.agrees_mapping hn
    refine Gives.visit rfl ?_
    rw [if_neg (show ¬ d.tagOf (.mapping Tag.map nodes line) = Tag.null from hnotNull.2)]
    dsimp only
    rw [hok]
    refine gives_pure ⟨_, rfl, henabled.symm, fun _ => ?_⟩
    rw [hsettings]
    exact hread

theorem gives_rulesOf (hk : k < depthBound d) {rules : Entries RuleEntry}
    (hsound : ∀ e ∈ rules, e.2.IsSound) (hapart : (rulesTree rules).KeysApart)
    (hn : (rulesTree rules).agrees n = true) (hdepth : n.IsWithin k) :
    Gives (fun o => ∃ rules', o = some rules' ∧ rules.Alike RuleEntry.ReadsBack rules')
      (rulesOf d n) := by
  rw [rulesTree, Tree.ofEntries, List.map_map] at hapart hn
  refine gives_entriesOf hapart hn hdepth ?_
  intro a e out ha hentryApart hagrees hvalue
  refine (gives_ruleEntryOf hk (hsound a ha) hentryApart hagrees hvalue).bind ?_
  rintro _ ⟨e', rfl, hread⟩
  exact gives_pure ⟨e', hread, rfl⟩

/-! ### Overrides and configurations -/

theorem gives_overrideOf (hk : k < depthBound d) {o : Override}
    (hsound : ∀ e ∈ o.rules, e.2.IsSound)
    (hapart : o.toTree.KeysApart) (hn : o.toTree.agrees n = true) (hdepth : n.IsWithin k) :
    Gives (fun x => ∃ o', x = some o' ∧ o.ReadsBack o') (overrideOf d n) := by
  rw [Override.toTree_eq] at hapart hn
  refine (gives_recordOf (R := Override.Field.ReadsBack) (s := o) hapart hn
    (hdepth.mono (Nat.le_succ k)) ?_ ?_).mono ?_
  · intro f
    cases f with
    | files => rfl
    | rules => exact Entries.alike_nil
  · rintro f ⟨name, key, value, isRepeated, isOwn⟩ out hvalueApart hagrees hvalue rfl rfl
    cases f with
    | files =>
      refine (gives_textsOf hagrees).bind ?_
      rintro _ rfl
      refine gives_pure ⟨rfl, fun g hg t hout => ?_⟩
      cases g with
      | files => exact absurd rfl hg
      | rules => exact hout
    | rules =>
      refine (gives_rulesOf hk hsound hvalueApart hagrees hvalue).bind ?_
      rintro _ ⟨rules', rfl, hrules⟩
      refine gives_pure ⟨hrules, fun g hg t hout => ?_⟩
      cases g with
      | files => exact hout
      | rules => exact absurd rfl hg
  · rintro _ ⟨o', rfl, ho'⟩
    refine ⟨o', rfl, fun f => ?_⟩
    have hwritten : f ∈ [Override.Field.files, .rules] := by cases f <;> decide
    have hf := ho' f
    rwa [if_pos hwritten] at hf

theorem gives_overridesOf (hk : k < depthBound d) {overrides : List Override}
    (hsound : ∀ o ∈ overrides, ∀ e ∈ o.rules, e.2.IsSound)
    (hapart : (Tree.sequence (overrides.map (·.toTree))).KeysApart)
    (hn : (Tree.sequence (overrides.map (·.toTree))).agrees n = true) (hdepth : n.IsWithin k) :
    Gives (fun x => ∃ os', x = some os' ∧ List.Forall₂ Override.ReadsBack overrides os')
      (listOf d .overrides (overrideOf d) n) := by
  obtain ⟨nodes, line, rfl, hagrees⟩ := Tree.agrees_sequence hn
  rw [List.forall₂_map_left_iff] at hagrees
  have hwithin : ∀ n ∈ nodes, n.IsWithin k := by
    cases hdepth.mono (Nat.le_succ k) with
    | sequence h => exact h
  have htrees : ∀ o ∈ overrides, o.toTree.KeysApart := by
    cases hapart with
    | sequence h => exact fun o ho => h _ (List.mem_map_of_mem ho)
  have hnodes := (List.forall₂_and_left _ _).mpr
    ⟨fun o ho => And.intro (hsound o ho) (htrees o ho), forall₂_and hagrees hwithin⟩
  refine gives_listOf ?_ hnodes Tag.seq line
  rintro o n ⟨⟨hsound, hapart⟩, hn, hdepth⟩
  exact gives_overrideOf hk hsound hapart hn hdepth

theorem gives_jobs {jobs : ℤ} (hjobs : -(intLimit : ℤ) ≤ jobs ∧ jobs < intLimit)
    (hn : (Tree.ofValue (.int jobs)).agrees n = true) :
    Gives (fun o => o = some jobs) (scalarOf d .int asInt? n) := by
  have hsound : (Value.int jobs).IsSoundScalar := by
    refine ⟨.int hjobs.1 ?_, rfl⟩
    have hpositive : 0 < intLimit := by decide
    omega
  obtain ⟨tag, t, line, v, rfl, -, hread⟩ := Value.exists_isReadBy hsound hn
  have hvalue := hread.reads
  rw [hread.faithful .int] at hvalue
  refine gives_scalarOf hvalue (by simp) ?_
  rw [asInt?, if_pos]
  rw [Value.maxInt]
  omega

/-- **A configuration is read back from its node.** -/
theorem gives_configOf (hk : k < depthBound d) {c : Config} (hsound : c.IsSound)
    (hapart : c.toTree.KeysApart) (hn : c.toTree.agrees n = true) (hdepth : n.IsWithin (k + 1)) :
    Gives (fun o => ∃ c', o = some c' ∧ c.ReadsBack c') (configOf d n) := by
  rw [Config.toTree_eq] at hapart hn
  refine (gives_recordOf (R := Config.Field.ReadsBack) (s := c) hapart hn hdepth ?_ ?_).mono ?_
  · intro f
    cases f with
    | rules => exact Entries.alike_nil
    | overrides => exact .nil
    | _ => rfl
  · -- A field sets its own part and leaves the others alone.
    rintro f ⟨name, key, value, isRepeated, isOwn⟩ out hvalueApart hagrees hvalue rfl rfl
    cases f with
    | scripts =>
      refine (gives_textOf (Tree.isText_of_agrees hagrees)).bind ?_
      rintro _ rfl
      refine gives_pure ⟨rfl, fun g hg t hout => ?_⟩
      cases g with
      | scripts => exact absurd rfl hg
      | _ => exact hout
    | patterns =>
      refine (gives_textsOf hagrees).bind ?_
      rintro _ rfl
      refine gives_pure ⟨rfl, fun g hg t hout => ?_⟩
      cases g with
      | patterns => exact absurd rfl hg
      | _ => exact hout
    | ignored =>
      refine (gives_textsOf hagrees).bind ?_
      rintro _ rfl
      refine gives_pure ⟨rfl, fun g hg t hout => ?_⟩
      cases g with
      | ignored => exact absurd rfl hg
      | _ => exact hout
    | jobs =>
      refine (gives_jobs hsound.jobs hagrees).bind ?_
      rintro _ rfl
      refine gives_pure ⟨rfl, fun g hg t hout => ?_⟩
      cases g with
      | jobs => exact absurd rfl hg
      | _ => exact hout
    | rules =>
      refine (gives_rulesOf hk hsound.rules hvalueApart hagrees hvalue).bind ?_
      rintro _ ⟨rules', rfl, hrules⟩
      refine gives_pure ⟨hrules, fun g hg t hout => ?_⟩
      cases g with
      | rules => exact absurd rfl hg
      | _ => exact hout
    | overrides =>
      refine (gives_overridesOf hk hsound.overrides hvalueApart hagrees hvalue).bind ?_
      rintro _ ⟨overrides', rfl, hoverrides⟩
      refine gives_pure ⟨hoverrides, fun g hg t hout => ?_⟩
      cases g with
      | overrides => exact absurd rfl hg
      | _ => exact hout
  · rintro _ ⟨c', rfl, hc'⟩
    refine ⟨c', rfl, fun f => ?_⟩
    have hf := hc' f
    split_ifs at hf with hwritten
    · exact hf
    · refine Config.Field.readsBack_of_not_isSaid ?_ hf
      have hall : f ∈ [Config.Field.scripts, .patterns, .ignored, .jobs, .rules, .overrides] := by
        cases f <;> decide
      rw [Config.fields, List.mem_filter, not_and] at hwritten
      exact Bool.eq_false_iff.mpr (hwritten hall)

end Decoding

end ScriptLint
