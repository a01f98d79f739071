import ScriptLint.Proofs.Run.Schedule
import ScriptLint.Run.Streaming

/-!
# Passing findings on

A run that passes its findings on does what its outcome says: it passes on the findings that the
outcome lists, one after the other and nothing between them, and is left with the outcome's result,
or with the message of what stops the program (`Runner.stream_eq`). This holds whatever takes the
findings, for it answers nothing, and for every schedule, whether the findings are passed on from
inside the loops or when all files are done. A run that is not cancelled has the same outcome under
every schedule (`Runner.runUnder_eq_run`).
-/

namespace ScriptLint

/-! ### Results of several outcomes -/

namespace Outcome

/-- Outcomes in order have the results one after another, if all of them have one. -/
theorem result_join (os : List Outcome) :
    (join os).result
      = (os.mapM Outcome.result).map fun results => results.foldr RunResult.append {} := by
  induction os with
  | nil => rfl
  | cons o os ih =>
    have hjoin : join (o :: os) = o ++ join os := rfl
    rw [hjoin, List.mapM_cons]
    cases ho : o.result with
    | error message =>
      rw [append_of_error ho, ho]
      rfl
    | ok first =>
      rw [append_of_ok ho, ih]
      cases os.mapM Outcome.result <;> rfl

/-- A result with all its findings passed on. -/
def ofResult (r : RunResult) : Outcome := { emitted := r.diagnostics, result := .ok r }

theorem join_ofResult (results : List RunResult) :
    join (results.map ofResult) = ofResult (results.foldr RunResult.append {}) := by
  induction results with
  | nil => rfl
  | cons r results ih => exact congrArg (ofResult r ++ ·) ih

theorem withAllEmitted_of_ok {o : Outcome} {r : RunResult} (h : o.result = .ok r) :
    o.withAllEmitted = ofResult r := by
  rw [withAllEmitted, diagnostics, h]
  rfl

end Outcome

/-! ### Outcomes as programs -/

variable {m : Type → Type} [Monad m]

/-- The program that an outcome tells: it passes findings on, and is left with a result or
stopped. -/
def Outcome.passOn (o : Outcome) (emit : Emit m) : ExceptT Bytes m RunResult := do
  liftM (m := m) (o.emitted.forM emit)
  ofExcept o.result

variable [LawfulMonad m]

namespace Outcome

theorem passOn_of_silent {o : Outcome} (h : o.emitted = []) (emit : Emit m) :
    o.passOn emit = ofExcept o.result := by
  rw [passOn, h, List.forM_eq_forM, List.forM_nil, liftM_pure, pure_bind]

theorem passOn_append (a b : Outcome) (emit : Emit m) :
    (a ++ b).passOn emit = do
      let first ← a.passOn emit
      let rest ← b.passOn emit
      return first ++ rest := by
  cases ha : a.result with
  | error message =>
    rw [append_of_error ha]
    simp only [passOn, ha, ofExcept, bind_assoc, ExceptT.bind_throw]
  | ok first =>
    rw [append_of_ok ha]
    simp only [passOn, ha, ofExcept, List.forM_eq_forM, List.forM_append, liftM_bind, bind_assoc,
      pure_bind]
    cases b.result with
    | error message => simp only [Except.map, ExceptT.bind_throw]
    | ok second => simp only [Except.map, pure_bind]

/-- Lines for the log do not matter to what is passed on. -/
theorem passOn_logged (line : Bytes) (o : Outcome) (emit : Emit m) :
    (logged line ++ o).passOn emit = do
      let result ← o.passOn emit
      return { log := [line] } ++ result := by
  rw [passOn_append, passOn_of_silent rfl]
  exact pure_bind _ _

end Outcome

/-- **A loop that adds up outcomes**: it does what their concatenation says. -/
theorem forIn_passOn {α : Type} (emit : Emit m)
    {body : α → RunResult → ExceptT Bytes m (ForInStep RunResult)} (f : α → Outcome)
    (hbody : ∀ a result, body a result = do
      let more ← (f a).passOn emit
      return .yield (result ++ more))
    (as : List α) (result : RunResult) :
    forIn as result body = do
      let more ← (Outcome.join (as.map f)).passOn emit
      return result ++ more := by
  induction as generalizing result with
  | nil =>
    have hnone : (Outcome.join ([] : List Outcome)).passOn emit = pure {} :=
      Outcome.passOn_of_silent rfl emit
    rw [List.forIn_nil, List.map_nil, hnone, pure_bind, RunResult.append_empty]
  | cons a as ih =>
    have hjoin : Outcome.join ((a :: as).map f) = f a ++ Outcome.join (as.map f) := rfl
    rw [List.forIn_cons, hbody, hjoin, Outcome.passOn_append]
    simp only [bind_assoc, pure_bind, ih, RunResult.append_assoc]

/-- A loop over findings that passes each of them on and keeps it. -/
theorem forIn_emit (emit : Emit m) (ds : List Diagnostic) (result : RunResult) :
    (forIn ds result fun d (result : RunResult) => do
      emit d
      return .yield (result ++ ({ diagnostics := [d] } : RunResult)) : ExceptT Bytes m _) = do
      let more ← (Outcome.ofResult { diagnostics := ds }).passOn emit
      return result ++ more := by
  have hfound : ((ds.map fun d => ({ diagnostics := [d] } : RunResult)).foldr RunResult.append {})
      = { diagnostics := ds } := by
    induction ds with
    | nil => rfl
    | cons d ds ih => exact congrArg (RunResult.append { diagnostics := [d] }) ih
  have hjoin := Outcome.join_ofResult (ds.map fun d => { diagnostics := [d] })
  rw [hfound, List.map_map] at hjoin
  rw [← hjoin]
  refine forIn_passOn emit _ (fun d result => ?_) ds result
  simp only [Function.comp_apply, Outcome.ofResult, Outcome.passOn, List.forM_eq_forM,
    List.forM_cons, List.forM_nil, bind_assoc, pure_bind, ofExcept, bind_pure_unit]

/-- A loop over findings that passes each of them on and keeps nothing. -/
theorem forIn_unit_emit (emit : Emit m) (ds : List Diagnostic) :
    (forIn ds PUnit.unit fun d _ => do
      emit d
      return .yield PUnit.unit : ExceptT Bytes m _) = liftM (m := m) (ds.forM emit) := by
  induction ds with
  | nil =>
    rw [List.forM_eq_forM, List.forM_nil, liftM_pure]
    rfl
  | cons d ds ih =>
    rw [List.forIn_cons, bind_assoc, List.forM_eq_forM, List.forM_cons, liftM_bind]
    simp only [pure_bind, ih]
    rfl

/-! ### Scripts and files -/

/-- The rules on a script pass on and leave what their outcome says. -/
theorem streamRules_eq (emit : Emit m) (s : Script) (rules : List Rule)
    (effective : Entries RuleEntry) :
    streamRules emit s rules effective = (checkRules true s rules effective).passOn emit := by
  unfold streamRules checkRules
  dsimp only
  rw [forIn_passOn emit
    (fun r => checkRule true s r ((effective.get? r.name).getD RuleEntry.implicit)) ?_ rules {}]
  · simp only [RunResult.empty_append, bind_pure]
  · intro rule result
    unfold checkRule
    by_cases hon : ((effective.get? rule.name).getD RuleEntry.implicit).enabled = true
    · rw [hon, if_neg (by decide), if_pos rfl]
      cases rule.configure ((effective.get? rule.name).getD RuleEntry.implicit) with
      | error e =>
        dsimp only
        rw [Outcome.passOn_of_silent rfl]
        cases hfatal : e.isFatal <;>
          simp [Outcome.failed, RunError.isFatal, RunError.message, hfatal, ofExcept]
      | ok rule =>
        dsimp only
        rw [forIn_emit, bind_assoc]
        simp only [pure_bind]
        rfl
    · rw [Bool.not_eq_true] at hon
      rw [hon, if_pos (by decide), if_neg Bool.false_ne_true, Outcome.passOn_of_silent rfl]
      simp [ofExcept]

namespace Runner

section Stream

variable (r : Runner) (w : World) (emit : Emit m)

theorem streamScript_eq (s : Script) :
    r.streamScript emit s = (r.checkScript true s).passOn emit := by
  rw [streamScript, streamRules_eq]
  exact (Outcome.passOn_logged _ _ emit).symm

theorem streamPath_eq (path : Bytes) :
    r.streamPath w emit path = (r.checkPath w true path).passOn emit := by
  unfold streamPath checkPath
  cases readScript w r.root path with
  | error e => exact (Outcome.passOn_of_silent (o := .failed (.read e)) rfl emit).symm
  | ok s => exact r.streamScript_eq emit s

theorem streamSource_eq (path : Bytes) (text : Text) :
    r.streamSource emit path text = (r.checkSource path text).passOn emit :=
  r.streamScript_eq emit ⟨path, text⟩

/-! ### Runs -/

theorem streamInOrder_eq (cancelAfter : Option Nat) (paths : List Bytes) :
    r.streamInOrder w emit cancelAfter paths
      = (r.runInOrder w cancelAfter paths).passOn emit := by
  induction paths generalizing cancelAfter with
  | nil =>
    rw [streamInOrder, runInOrder, Outcome.passOn_of_silent rfl]
    rfl
  | cons path paths ih =>
    match cancelAfter with
    | some 0 =>
      rw [streamInOrder, runInOrder, Outcome.passOn_of_silent rfl]
      rfl
    | some (k + 1) =>
      rw [streamInOrder, runInOrder, Outcome.passOn_append, r.streamPath_eq w emit path, ih]
      all_goals exact fun h => nomatch h
    | none =>
      rw [streamInOrder, runInOrder, Outcome.passOn_append, r.streamPath_eq w emit path, ih]
      all_goals exact fun h => nomatch h

/-- Several workers pass on what they have found once they are done, file by file. -/
theorem streamTogether_eq (events : List PoolEvent) (paths : List Bytes) :
    r.streamTogether w emit events paths = (r.runTogether w events paths).passOn emit := by
  have hloop : ∀ file result : RunResult, (do
      forIn file.diagnostics PUnit.unit fun d _ => do
        emit d
        return .yield PUnit.unit
      return ForInStep.yield (result ++ file) : ExceptT Bytes m _) = do
      let more ← (Outcome.ofResult file).passOn emit
      return .yield (result ++ more) := by
    intro file result
    rw [forIn_unit_emit, Outcome.passOn, bind_assoc]
    simp only [Outcome.ofResult, ofExcept, pure_bind]
  have hjoin := Outcome.result_join (r.pool w events paths).results
  unfold streamTogether runTogether
  dsimp only
  generalize Outcome.join (r.pool w events paths).results = joined at hjoin ⊢
  cases hfiles : (r.pool w events paths).results.mapM Outcome.result with
  | error message =>
    rw [hfiles] at hjoin
    have hstopped : joined.withAllEmitted.result = .error message := hjoin
    have hsilent : joined.withAllEmitted.emitted = [] := by
      show joined.diagnostics = []
      rw [Outcome.diagnostics, hjoin]
      rfl
    rw [Outcome.append_of_error hstopped, Outcome.passOn_of_silent hsilent, hstopped]
    simp only [ofExcept, ExceptT.bind_throw]
  | ok files =>
    rw [hfiles] at hjoin
    rw [Outcome.withAllEmitted_of_ok hjoin, Outcome.passOn_append, ← Outcome.join_ofResult]
    simp only [ofExcept, pure_bind]
    rw [forIn_passOn emit Outcome.ofResult hloop]
    cases (r.pool w events paths).gaveUp with
    | false =>
      have hrest : ({} : Outcome).passOn emit = pure {} := Outcome.passOn_of_silent rfl emit
      simp only [Bool.false_eq_true, if_false, hrest, bind_assoc, pure_bind,
        RunResult.empty_append, RunResult.append_empty]
    | true =>
      have hrest : (Outcome.failed .cancelled).passOn emit = pure (.failed .cancelled) :=
        Outcome.passOn_of_silent rfl emit
      simp only [if_true, hrest, bind_assoc, pure_bind, RunResult.empty_append]

/-- **A run does what its outcome says**: it passes on the findings that the outcome lists, and is
left with its result, or stopped. -/
theorem stream_eq (s : Schedule) (paths : List Bytes) :
    r.stream w emit s paths = (r.runUnder w s paths).passOn emit := by
  unfold stream runUnder
  dsimp only
  rw [Outcome.passOn_logged]
  by_cases hp : r.isParallel paths = true
  · simp only [if_pos hp, streamTogether_eq]
  · simp only [if_neg hp, streamInOrder_eq]

end Stream

/-! ### Uncancelled runs -/

section Uncancelled

variable (r : Runner) (w : World) {s : Schedule} {paths : List Bytes}

/-- The whole outcome of a run is the same under every schedule that is not cancelled and comes to
its end. -/
theorem runUnder_eq_run (h : s.Uncancelled) (c : r.Completes w s paths) :
    r.runUnder w s paths = r.run w false paths := by
  rw [run, r.runUnder_eq_checkAll w h c,
    r.runUnder_eq_checkAll w (uncancelled_plain _) (r.completes_plain w paths)]

end Uncancelled

end Runner

/-! ### The log -/

/-- The line of the log about a script that is checked. -/
def Script.logLine (s : Script) : Bytes := bytes "file: " ++ s.path

namespace Outcome

/-- Whether the log of an outcome that has a result has some lines. -/
def Logs (o : Outcome) (lines : List Bytes) : Prop := ∀ r, o.result = .ok r → r.log = lines

theorem Logs.log {o : Outcome} {lines : List Bytes} (h : o.Logs lines) (hnone : o.crash? = none) :
    o.log = lines := by
  obtain ⟨r, hr⟩ := (crash?_eq_none_iff o).mp hnone
  rw [Outcome.log, hr]
  exact h r hr

theorem Logs.append {a b : Outcome} {lines lines' : List Bytes} (ha : a.Logs lines)
    (hb : b.Logs lines') : (a ++ b).Logs (lines ++ lines') := by
  intro r hr
  obtain ⟨first, second, hfirst, hsecond, rfl⟩ := result_append_eq_ok_iff.mp hr
  rw [← ha first hfirst, ← hb second hsecond]
  rfl

theorem logs_of_result {o : Outcome} {ds : List Diagnostic} {es : List RunError}
    {lines : List Bytes} (h : o.result = .ok ⟨ds, es, lines⟩) : o.Logs lines := by
  intro r hr
  obtain rfl := Except.ok.inj (h.symm.trans hr)
  rfl

theorem logs_logged (line : Bytes) : (logged line).Logs [line] := logs_of_result rfl

theorem logs_failed (e : RunError) : (failed e).Logs [] := by
  intro r hr
  cases he : e.isFatal with
  | true => simp [failed, he] at hr
  | false =>
    obtain rfl : RunResult.failed e = r := by simpa [failed, he] using hr
    rfl

theorem logs_join {α : Type} {as : List α} {f : α → Outcome} {lines : α → List Bytes}
    (h : ∀ a ∈ as, (f a).Logs (lines a)) : (join (as.map f)).Logs (as.flatMap lines) := by
  induction as with
  | nil => exact logs_of_result rfl
  | cons a as ih =>
    rw [List.forall_mem_cons] at h
    exact h.1.append (ih h.2)

end Outcome

/-- Checking by a rule logs nothing. -/
theorem logs_checkRule (streamed : Bool) (s : Script) (r : Rule) (e : RuleEntry) :
    (checkRule streamed s r e).Logs [] := by
  unfold checkRule
  by_cases hon : e.enabled = true
  · rw [if_pos hon]
    cases r.configure e with
    | ok configured => exact Outcome.logs_of_result rfl
    | error reason => exact Outcome.logs_failed (.settings reason)
  · rw [if_neg hon]
    exact Outcome.logs_of_result rfl

namespace Runner

variable (r : Runner) (w : World)

theorem logs_checkScript (streamed : Bool) (s : Script) :
    (r.checkScript streamed s).Logs [s.logLine] := by
  have hrules : (checkRules streamed s r.rules (r.config.effective s.path)).Logs
      (r.rules.flatMap fun _ => []) :=
    Outcome.logs_join fun rule _ => logs_checkRule streamed s rule _
  rw [List.flatMap_eq_nil_iff.mpr fun _ _ => rfl] at hrules
  exact (Outcome.logs_logged _).append hrules

theorem logs_checkPath (streamed : Bool) (path : Bytes) :
    (r.checkPath w streamed path).Logs
      ((readScript w r.root path).toOption.map Script.logLine).toList := by
  unfold checkPath
  cases readScript w r.root path with
  | error e => exact Outcome.logs_failed (.read e)
  | ok s => exact r.logs_checkScript streamed s

theorem logs_checkAll (parallel : Bool) (paths : List Bytes) :
    (r.checkAll w parallel paths).Logs
      (paths.filterMap fun path => (readScript w r.root path).toOption.map Script.logLine) := by
  rw [List.filterMap_eq_flatMap_toList]
  unfold checkAll
  split_ifs
  · have hfiles := Outcome.logs_join fun path (_ : path ∈ paths) => r.logs_checkPath w false path
    exact hfiles
  · rw [runInOrder_none]
    exact Outcome.logs_join fun path _ => r.logs_checkPath w true path

/-- The log of a run that is not cancelled: a line about the rules, and then one for each script
that can be read, in order. -/
theorem logs_run (paths : List Bytes) :
    (r.run w false paths).Logs (r.rulesLine ::
      paths.filterMap fun path => (readScript w r.root path).toOption.map Script.logLine) := by
  rw [run, r.runUnder_eq_checkAll w (uncancelled_plain _) (r.completes_plain w paths)]
  exact (Outcome.logs_logged r.rulesLine).append (r.logs_checkAll w _ paths)

end Runner

end ScriptLint
