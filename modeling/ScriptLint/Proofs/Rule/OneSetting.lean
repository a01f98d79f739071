import ScriptLint.Proofs.Except
import ScriptLint.Rule.RequireSingleInstance

/-!
# Rules with one setting

The two rules of the linter that can be configured take their settings in the same way. They have
one setting each, read a mapping entry by entry, and refuse it at the first entry that has another
name or a value that cannot be used (`OneSetting.valueOf_eq_error_iff`); the value that is left
makes the check. `OneSetting` says so once, and `RequireVersion.apply_eq` and
`RequireSingleInstance.apply_eq` say it of the two rules.
-/

namespace ScriptLint

/-- How a rule takes its one setting: the name of the rule, the name of the setting and the value
that it has unless it is told, what is read from a value, and the check that it makes. -/
structure OneSetting (α : Type) where
  rule : Bytes
  name : Bytes
  start : α
  read : Value → Except SettingsError α
  finish : α → Except SettingsError Check

namespace OneSetting

variable {α : Type}

/-- The value that an entry gives. -/
def step (o : OneSetting α) (s : Bytes × Value) : Except SettingsError α :=
  if s.1 = o.name then o.read s.2 else .error (.unknownSetting o.rule s.1)

/-- The value that settings give, when it has been `a` so far. -/
def valueOf (o : OneSetting α) (a : α) : Settings → Except SettingsError α
  | [] => .ok a
  | s :: rest => o.step s >>= fun a => o.valueOf a rest

/-- The check that settings give. -/
def apply (o : OneSetting α) (settings : Settings) : Except SettingsError Check :=
  o.valueOf o.start settings >>= o.finish

/-- Why an entry is refused, if it is. -/
def fault? (o : OneSetting α) (s : Bytes × Value) : Option SettingsError :=
  match o.step s with
  | .ok _ => none
  | .error e => some e

variable {o : OneSetting α}

theorem fault?_eq_some_iff {s : Bytes × Value} {e : SettingsError} :
    o.fault? s = some e ↔ o.step s = .error e := by
  unfold fault?
  cases o.step s with
  | ok a => simp
  | error e' => simp

theorem fault?_eq_none_iff {s : Bytes × Value} : o.fault? s = none ↔ ∃ a, o.step s = .ok a := by
  unfold fault?
  cases o.step s with
  | ok a => simp
  | error e => simp

/-- What is wrong with an entry: its name, or its value. -/
theorem fault?_cases {s : Bytes × Value} {e : SettingsError} (h : o.fault? s = some e) :
    s.1 ≠ o.name ∧ e = .unknownSetting o.rule s.1 ∨ s.1 = o.name ∧ o.read s.2 = .error e := by
  rw [fault?_eq_some_iff, step] at h
  split_ifs at h with hname
  · exact .inr ⟨hname, h⟩
  · exact .inl ⟨hname, (Except.error.inj h).symm⟩

theorem name_of_fault?_eq_none {s : Bytes × Value} (h : o.fault? s = none) : s.1 = o.name := by
  obtain ⟨a, ha⟩ := fault?_eq_none_iff.mp h
  unfold step at ha
  split_ifs at ha with hname
  exact hname

/-- **Settings are refused exactly for the first entry at fault.** -/
theorem valueOf_eq_error_iff {a : α} {settings : Settings} {e : SettingsError} :
    o.valueOf a settings = .error e ↔ settings.findSome? o.fault? = some e := by
  induction settings generalizing a with
  | nil => exact iff_of_false (fun h => nomatch h) fun h => nomatch h
  | cons s rest ih =>
    rw [List.findSome?_cons, valueOf]
    cases hfault : o.fault? s with
    | some e' =>
      rw [fault?_eq_some_iff.mp hfault]
      show (Except.error e' : Except SettingsError α) = .error e ↔ some e' = some e
      rw [Except.error.injEq, Option.some.injEq]
    | none =>
      obtain ⟨a', ha'⟩ := fault?_eq_none_iff.mp hfault
      rw [ha']
      exact ih

/-- Where no entry is at fault, there is no name but that of the setting. -/
theorem name_of_valueOf_eq_ok {a a' : α} {settings : Settings} (h : o.valueOf a settings = .ok a') :
    ∀ s ∈ settings, s.1 = o.name := by
  have hfaultless : settings.findSome? o.fault? = none := by
    rw [Option.eq_none_iff_forall_ne_some]
    intro e he
    rw [valueOf_eq_error_iff.mpr he] at h
    cases h
  exact fun s hs => name_of_fault?_eq_none (List.findSome?_eq_none_iff.mp hfaultless s hs)

/-- Whether only the making of a check stops the program, and what is said of a value is never what
is said of a name. -/
structure IsPlain (o : OneSetting α) : Prop where
  read : ∀ v e, o.read v = .error e → e.isFatal = false ∧
    ∀ key, e.message ≠ (SettingsError.unknownSetting o.rule key).message
  finish : ∀ a e, o.finish a = .error e → e.isFatal = true

theorem IsPlain.isFatal_of_fault (ho : o.IsPlain) {s : Bytes × Value} {e : SettingsError}
    (h : o.fault? s = some e) : e.isFatal = false := by
  rcases fault?_cases h with ⟨-, rfl⟩ | ⟨-, hread⟩
  · rfl
  · exact (ho.read _ _ hread).1

/-- What entries are refused for does not stop the program. -/
theorem IsPlain.isFatal_of_valueOf (ho : o.IsPlain) {a : α} {settings : Settings}
    {e : SettingsError} (h : o.valueOf a settings = .error e) : e.isFatal = false := by
  obtain ⟨s, -, hs⟩ := List.exists_of_findSome?_eq_some (valueOf_eq_error_iff.mp h)
  exact ho.isFatal_of_fault hs

theorem apply_of_fault {settings : Settings} {e : SettingsError}
    (h : settings.findSome? o.fault? = some e) : o.apply settings = .error e := by
  rw [apply, valueOf_eq_error_iff.mpr h]
  rfl

end OneSetting

/-! ### The two rules -/

/-- Behind the name of the rule, what is said of a value does not start as what is said of a
name. -/
theorem SettingsError.message_ne_unknownSetting {e : SettingsError} {rule words shown : Bytes}
    (h : e.message = rule ++ words ++ shown) (hlength : 3 ≤ words.length)
    (hwords : words.take 3 ≠ bytes ": u") (key : Bytes) :
    e.message ≠ (SettingsError.unknownSetting rule key).message := by
  have hunknown : (bytes ": unknown setting ").take 3 = bytes ": u" := by decide
  have hlonger : 3 ≤ (bytes ": unknown setting ").length := by decide
  intro hsame
  rw [h, message, List.append_assoc, List.append_assoc] at hsame
  have hfront := congrArg (List.take 3) (List.append_cancel_left hsame)
  rw [List.take_append_of_le_length hlength, List.take_append_of_le_length hlonger,
    hunknown] at hfront
  exact hwords hfront

namespace RequireVersion

/-- The version that a value gives. -/
def readVersion : Value → Except SettingsError Bytes
  | .text s => if trimBytes s = [] then .error (.badVersion (.text s)) else .ok (trimBytes s)
  | value => .error (.badVersion value)

/-- The check for a version. -/
def checkFor (version : Bytes) : Except SettingsError Check :=
  match Utf8.decode? version with
  | some t => .ok (check t)
  | none => .error (.versionNotUtf8 version)

/-- How the rule takes its version. -/
def setting : OneSetting Bytes where
  rule := versionRuleName
  name := bytes "version"
  start := Utf8.encode defaultVersion
  read := readVersion
  finish := checkFor

theorem versionOf_eq (version : Bytes) (settings : Settings) :
    versionOf version settings = setting.valueOf version settings := by
  induction settings generalizing version with
  | nil => rfl
  | cons s rest ih =>
    obtain ⟨key, value⟩ := s
    unfold versionOf OneSetting.valueOf OneSetting.step
    show _ = (if key = bytes "version" then readVersion value
      else .error (.unknownSetting versionRuleName key)) >>= fun version =>
        setting.valueOf version rest
    split_ifs
    · cases value with
      | text s =>
        unfold readVersion
        dsimp only
        split_ifs
        · rfl
        · exact ih _
      | _ => rfl
    · rfl

theorem apply_eq : apply = setting.apply := by
  funext settings
  rw [apply, versionOf_eq]
  refine congrArg _ (funext fun version => ?_)
  show _ = checkFor version
  rw [checkFor]
  cases Utf8.decode? version with
  | none => rfl
  | some t => rfl

theorem isPlain_setting : setting.IsPlain where
  read v e h := by
    have hbad : e = .badVersion v := by
      cases v with
      | text s =>
        have h' : (if trimBytes s = [] then .error (.badVersion (.text s)) else .ok (trimBytes s))
          = (.error e : Except SettingsError Bytes) := h
        split_ifs at h'
        exact (Except.error.inj h').symm
      | _ => exact (Except.error.inj h).symm
    subst hbad
    exact ⟨rfl, SettingsError.message_ne_unknownSetting (e := .badVersion v) rfl
      (by decide) (by decide)⟩
  finish version e h := by
    have h' : checkFor version = .error e := h
    unfold checkFor at h'
    split at h'
    · cases h'
    · obtain rfl := Except.error.inj h'
      rfl

end RequireVersion

namespace RequireSingleInstance

/-- The mode that a value gives. -/
def readMode : Value → Except SettingsError Text
  | .text s =>
    match mode? s with
    | some mode => .ok mode
    | none => .error (.unknownMode s)
  | value => .error (.modeNotText value)

/-- How the rule takes its mode. -/
def setting : OneSetting Text where
  rule := instanceRuleName
  name := bytes "mode"
  start := defaultMode
  read := readMode
  finish mode := .ok (check mode)

theorem modeOf_eq (mode : Text) (settings : Settings) :
    modeOf mode settings = setting.valueOf mode settings := by
  induction settings generalizing mode with
  | nil => rfl
  | cons s rest ih =>
    obtain ⟨key, value⟩ := s
    unfold modeOf OneSetting.valueOf OneSetting.step
    show _ = (if key = bytes "mode" then readMode value
      else .error (.unknownSetting instanceRuleName key)) >>= fun mode => setting.valueOf mode rest
    split_ifs
    · cases value with
      | text s =>
        unfold readMode
        dsimp only
        cases mode? s with
        | none => rfl
        | some m => exact ih m
      | _ => rfl
    · rfl

theorem apply_eq : apply = setting.apply := by
  funext settings
  rw [apply, modeOf_eq, OneSetting.apply]
  show _ = setting.valueOf defaultMode settings >>= setting.finish
  cases setting.valueOf defaultMode settings with
  | error e => rfl
  | ok mode => rfl

theorem isPlain_setting : setting.IsPlain where
  read v e h := by
    have hbad : (∃ s, e = .unknownMode s) ∨ e = .modeNotText v := by
      cases v with
      | text s =>
        have h' : (match mode? s with | some mode => .ok mode | none => .error (.unknownMode s))
          = (.error e : Except SettingsError Text) := h
        split at h'
        · cases h'
        · exact .inl ⟨s, (Except.error.inj h').symm⟩
      | _ => exact .inr (Except.error.inj h).symm
    rcases hbad with ⟨s, rfl⟩ | rfl
    · exact ⟨rfl, SettingsError.message_ne_unknownSetting (e := .unknownMode s) rfl
        (by decide) (by decide)⟩
    · exact ⟨rfl, SettingsError.message_ne_unknownSetting (e := .modeNotText v) rfl
        (by decide) (by decide)⟩
  finish _ _ h := nomatch h

end RequireSingleInstance

end ScriptLint
