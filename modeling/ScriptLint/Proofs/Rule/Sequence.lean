import ScriptLint.Proofs.Rule.Object
import ScriptLint.Rule.Sequence

/-!
# Stopping early

A rule that hands its findings over one by one leaves its loops as soon as no more are wanted, at
whichever of them it is. So it does the same as going through the list of its findings
(`StandardObject.handTo_eq`), and that for a consumer of any kind, which may keep a state, fail or
write. What this comes to is seen from the calls of a consumer with a state: they are the findings
up to the first one after which no more are wanted (`StandardObject.takes_calls`), which is a prefix
of known length (`stopping_takes_the_first`).
-/

namespace ScriptLint

/-! ### Loops that are left -/

/-- Numbers that start at one are those that start at zero, moved up. -/
theorem filterMap_zipIdx_one {α β : Type} (f : α × ℕ → Option β) (as : List α) :
    (as.zipIdx 1).filterMap f = as.zipIdx.filterMap fun a => f (a.1, a.2 + 1) := by
  rw [List.zipIdx_succ, List.filterMap_map]
  rfl

section Loops

variable {m : Type → Type} [Monad m] {α β : Type}

theorem handOver_cons (d : Diagnostic) (ds : List Diagnostic) (receive : Consumer m) :
    handOver (d :: ds) receive
      = receive d >>= fun wanted => if wanted then handOver ds receive else pure () := rfl

theorem handOver_singleton (d : Diagnostic) (receive : Consumer m) :
    handOver [d] receive = receive d >>= fun _ => pure () := by
  rw [handOver_cons]
  refine congrArg _ (funext fun wanted => ?_)
  cases wanted <;> rfl

variable [LawfulMonad m]

section

-- A loop ends with whether it was left, and what follows it sees that.
variable {body : α → Option Unit × Unit → m (ForInStep (Option Unit × Unit))}
  {next : Option Unit × Unit → m Unit} (hleft : next (some (), ()) = pure ())

include hleft

/-- **A loop that hands over at most one finding at each step**, and that is left as soon as no more
are wanted, hands over the list of these findings. -/
theorem forIn_handOver (f : α → Option Diagnostic) (receive : Consumer m)
    (hend : next (none, ()) = pure ())
    (hbody : ∀ a, body a (none, ()) = match f a with
      | none => pure (.yield (none, ()))
      | some d => receive d >>= fun wanted =>
        if wanted then pure (.yield (none, ())) else pure (.done (some (), ())))
    (as : List α) : forIn as (none, ()) body >>= next = handOver (as.filterMap f) receive := by
  induction as with
  | nil =>
    rw [List.forIn_nil, pure_bind, hend]
    rfl
  | cons a as ih =>
    rw [List.forIn_cons, hbody, List.filterMap_cons]
    cases f a with
    | none =>
      dsimp only
      rw [pure_bind]
      exact ih
    | some d =>
      dsimp only
      rw [handOver_cons, bind_assoc, bind_assoc]
      -- Whether more is wanted decides both the loop and the list.
      refine congrArg _ (funext fun wanted => ?_)
      cases wanted with
      | true =>
        rw [if_pos rfl, if_pos rfl, pure_bind]
        exact ih
      | false =>
        rw [if_neg Bool.false_ne_true, if_neg Bool.false_ne_true, pure_bind, pure_bind, hleft]

/-- A loop that is left at the first element for which there is something to do. -/
theorem forIn_findSome? (f : α → Option β) (act : β → m Unit) {last : m Unit}
    (hend : next (none, ()) = last)
    (hbody : ∀ a, body a (none, ()) = match f a with
      | none => pure (.yield (none, ()))
      | some b => act b >>= fun _ => pure (.done (some (), ())))
    (as : List α) :
    forIn as (none, ()) body >>= next = (as.findSome? f).elim last act := by
  induction as with
  | nil =>
    rw [List.forIn_nil, pure_bind, hend]
    rfl
  | cons a as ih =>
    rw [List.forIn_cons, hbody, List.findSome?_cons]
    cases f a with
    | none =>
      dsimp only
      rw [pure_bind]
      exact ih
    | some b =>
      dsimp only
      simp only [bind_assoc, pure_bind, hleft, bind_pure_unit, Option.elim_some]

end

/-- A loop that adds what it makes of its elements, and does nothing else. -/
theorem forIn_filterMap (f : α → Option β) {body : α → List β → m (ForInStep (List β))}
    (hbody : ∀ a bs, body a bs = match f a with
      | none => pure (.yield bs)
      | some b => pure (.yield (bs ++ [b])))
    (as : List α) (bs : List β) :
    forIn as bs body = pure (bs ++ as.filterMap f) := by
  induction as generalizing bs with
  | nil => rw [List.forIn_nil, List.filterMap_nil, List.append_nil]
  | cons a as ih =>
    rw [List.forIn_cons, hbody, List.filterMap_cons]
    cases f a with
    | none =>
      dsimp only
      rw [pure_bind]
      exact ih bs
    | some b =>
      dsimp only
      rw [pure_bind]
      dsimp only
      rw [ih, List.append_assoc, List.singleton_append]

end Loops

/-! ### The rules -/

section Rules

variable {m : Type → Type} [Monad m] [LawfulMonad m] (s : Script) (receive : Consumer m)

omit [LawfulMonad m] in
theorem RequireVersion.handTo_eq (fields : Fields) :
    handTo fields s receive = handOver (object.check fields s) receive := by
  show _ = handOver (check (fields.pattern.getD defaultVersion) s) receive
  rw [handTo, check]
  split_ifs
  · rfl
  · rw [handOver_singleton]

theorem RequireSingleInstance.handTo_eq (fields : Fields) :
    handTo fields s receive = handOver (object.check fields s) receive := by
  show _ = handOver (fields.check s) receive
  let finding : Diagnostic := Rule.fileLevel instanceRuleName
    (bytes "#SingleInstance should use '" ++ Utf8.encode fields.modeName ++ bytes "'") s
  refine (forIn_findSome? rfl (fun line => afterDirective? (trim line))
    (fun rest => handOver (if names fields.pattern rest then [] else [finding]) receive) rfl
    (fun line => ?_) s.lines).trans ?_
  · cases afterDirective? (trim line) with
    | none => rfl
    | some rest =>
      dsimp only
      cases names fields.pattern rest with
      | true =>
        show _ = pure () >>= _
        rw [pure_bind]
        rfl
      | false =>
        show _ = handOver [finding] receive >>= _
        rw [handOver_singleton, bind_assoc]
        simp only [pure_bind]
        rfl
  · unfold Fields.check
    cases s.lines.findSome? fun line => afterDirective? (trim line) with
    | none => exact (handOver_singleton _ _).symm
    | some rest => rfl

theorem RequireWarn.handTo_eq : handTo s receive = handOver (check s) receive := by
  let first (line : Text) : Option Unit := if isDirective (trim line) then some () else none
  have hany : (s.lines.any fun line => isDirective (trim line))
      = (s.lines.findSome? first).isSome := by
    rw [List.isSome_findSome?]
    refine congrArg s.lines.any (funext fun line => ?_)
    cases h : isDirective (trim line) <;> simp [first, h]
  refine (forIn_findSome? rfl first (fun _ => pure ()) rfl (fun line => ?_) s.lines).trans ?_
  · unfold first
    cases isDirective (trim line) with
    | true =>
      show _ = pure () >>= _
      rw [pure_bind]
      rfl
    | false => rfl
  · rw [check, hany]
    cases s.lines.findSome? first with
    | none => exact (handOver_singleton _ _).symm
    | some _ => rfl

omit [LawfulMonad m] in
theorem TrailingNewline.handTo_eq : handTo s receive = handOver (check s) receive := by
  rw [handTo, check]
  split_ifs
  · rfl
  · rw [handOver_singleton]

theorem TrailingWhitespace.handTo_eq : handTo s receive = handOver (check s) receive := by
  rw [check, findings_eq, filterMap_zipIdx_one]
  refine forIn_handOver rfl _ receive rfl (fun l => ?_) s.lines.zipIdx
  obtain ⟨line, i⟩ := l
  dsimp only
  cases isBad line with
  | false => rfl
  | true =>
    refine bind_congr fun wanted => ?_
    cases wanted <;> rfl

theorem UnusedFunctions.handTo_eq : handTo s receive = handOver (check s) receive := by
  have hdefinitions : s.lines.zipIdx.filterMap (fun l => (definedName? l.1).map (·, l.2 + 1))
      = definitions 1 s.lines := by
    rw [definitions_eq, filterMap_zipIdx_one]
  unfold handTo
  dsimp only
  rw [forIn_filterMap (fun l => (definedName? l.1).map (·, l.2 + 1)), pure_bind, List.nil_append,
    hdefinitions]
  · split_ifs with hnone
    · rw [check, List.isEmpty_iff.mp hnone]
      rfl
    · have hcheck : check s = (definitions 1 s.lines).filterMap fun d =>
          if uses d.1 false (body s.lines) ≤ 1 then some (finding s d) else none := by
        rw [check, ← List.filterMap_eq_map, List.filterMap_filter]
        simp only [decide_eq_true_eq, Function.comp_apply]
      rw [hcheck]
      refine forIn_handOver rfl _ receive rfl (fun d => ?_) _
      split_ifs with hused
      · omega
      · rfl
      · refine bind_congr fun wanted => ?_
        cases wanted <;> rfl
      · omega
  · intro l bs
    cases definedName? l.1 with
    | none => rfl
    | some ident => rfl

end Rules

/-! ### Objects -/

namespace StandardObject

/-- The findings of an object in a list. -/
def check : StandardObject → Check
  | .requireVersion fields => RequireVersion.object.check fields
  | .requireSingleInstance fields => RequireSingleInstance.object.check fields
  | .requireWarn => RequireWarn.check
  | .trailingNewline => TrailingNewline.check
  | .trailingWhitespace => TrailingWhitespace.check
  | .unusedFunctions => UnusedFunctions.check

/-- **An object hands over the findings of its list**, in the same order and up to the one after
which no more are wanted. This holds whatever the consumer does besides. -/
theorem handTo_eq {m : Type → Type} [Monad m] [LawfulMonad m] (o : StandardObject) (s : Script)
    (receive : Consumer m) : o.handTo s receive = handOver (o.check s) receive := by
  cases o with
  | requireVersion fields => exact RequireVersion.handTo_eq s receive fields
  | requireSingleInstance fields => exact RequireSingleInstance.handTo_eq s receive fields
  | requireWarn => exact RequireWarn.handTo_eq s receive
  | trailingNewline => exact TrailingNewline.handTo_eq s receive
  | trailingWhitespace => exact TrailingWhitespace.handTo_eq s receive
  | unusedFunctions => exact UnusedFunctions.handTo_eq s receive

theorem map_rule_registered : registered.map rule = Registry.standard.rules := rfl

/-- Objects take the settings that their rules take, and find what their rules do. -/
theorem configure_eq {o : StandardObject} (ho : o ∈ registered) (e : RuleEntry) :
    (o.configure e).map check = (o.rule.configure e).map (·.check) := by
  have hmap {σ : Type} (f : σ → StandardObject) (x : Except ConfigureError σ) :
      (x.map f).map check = x.map fun fields => (f fields).check := by
    cases x <;> rfl
  simp only [registered, List.mem_cons, List.not_mem_nil, or_false] at ho
  rcases ho with rfl | rfl | ho
  · exact (hmap _ _).trans (RequireVersion.realizes_object.forgetsHistory.configure_eq e)
  · exact (hmap _ _).trans (RequireSingleInstance.realizes_object.forgetsHistory.configure_eq e)
  · obtain ⟨enabled, settings⟩ := e
    match settings with
    | none | some [] => rcases ho with rfl | rfl | rfl | rfl <;> rfl
    | some (x :: xs) => rcases ho with rfl | rfl | rfl | rfl <;> rfl

end StandardObject

/-! ### Calls -/

/-- A consumer that writes its calls down: each finding with the answer to it. -/
def recording {m : Type → Type} [Monad m] (receive : Consumer m) :
    Consumer (StateT (List (Diagnostic × Bool)) m) := fun d => do
  let wanted ← receive d
  modify (· ++ [(d, wanted)])
  return wanted

/-- The calls that an object makes to a consumer with a state. -/
def StandardObject.calls {σ : Type} (o : StandardObject) (s : Script)
    (receive : Consumer (StateM σ)) (start : σ) : List (Diagnostic × Bool) :=
  (((o.handTo s (recording receive)).run []).run start).1.2

/-- How findings are taken: one after the other, up to the first one after which no more are
wanted. -/
inductive Takes : List Diagnostic → List (Diagnostic × Bool) → Prop where
  | nil : Takes [] []
  | last (d : Diagnostic) (ds : List Diagnostic) : Takes (d :: ds) [(d, false)]
  | cons (d : Diagnostic) {ds : List Diagnostic} {calls : List (Diagnostic × Bool)}
    (h : Takes ds calls) : Takes (d :: ds) ((d, true) :: calls)

namespace Takes

variable {ds : List Diagnostic} {calls : List (Diagnostic × Bool)}

/-- Who always wants more takes all findings. -/
theorem map_fst_of_all (h : Takes ds calls) (hall : ∀ call ∈ calls, call.2 = true) :
    calls.map (·.1) = ds := by
  induction h with
  | nil => rfl
  | last d ds => exact absurd (hall _ (List.mem_singleton_self _)) Bool.false_ne_true
  | cons d h ih =>
    rw [List.map_cons, ih fun call hcall => hall call (List.mem_cons_of_mem _ hcall)]

/-- Who wants no more after so many findings takes that many, or all if there are fewer. -/
theorem map_fst_eq_take (h : Takes ds calls) {n : ℕ} (hn : 1 ≤ n)
    (hstop : ∀ k < n, ∀ call, calls[k]? = some call → (call.2 = true ↔ k + 1 ≠ n)) :
    calls.map (·.1) = ds.take n := by
  induction h generalizing n with
  | nil => rw [List.take_nil, List.map_nil]
  | last d ds =>
    obtain rfl : 1 = n := by simpa using hstop 0 hn (d, false) rfl
    rw [List.take_succ_cons, List.take_zero, List.map_singleton]
  | cons d h ih =>
    have hmore : 1 ≠ n := by simpa using hstop 0 hn (d, true) rfl
    obtain ⟨n, rfl⟩ := Nat.exists_eq_add_of_le' hn
    rw [List.take_succ_cons, List.map_cons, ih (n := n) (by omega)]
    intro k hk call hcall
    simpa using hstop (k + 1) (by omega) call ((List.getElem?_cons_succ ..).trans hcall)

/-- Nothing follows the call after which no more are wanted. -/
theorem eq_length_of_false (h : Takes ds calls) {k : ℕ} {call : Diagnostic × Bool}
    (hcall : calls[k]? = some call) (hfalse : call.2 = false) : k + 1 = calls.length := by
  induction h generalizing k with
  | nil => simp at hcall
  | last d ds =>
    cases k with
    | zero => rfl
    | succ k => simp at hcall
  | cons d h ih =>
    cases k with
    | zero =>
      obtain rfl : (d, true) = call := by simpa using hcall
      exact absurd hfalse.symm Bool.false_ne_true
    | succ k => rw [List.length_cons, ← ih ((List.getElem?_cons_succ ..).symm.trans hcall)]

end Takes

section

variable {σ : Type} (receive : Consumer (StateM σ))

/-- The calls are how the findings are taken, whatever has been written down before. -/
theorem exists_takes (ds : List Diagnostic) (before : List (Diagnostic × Bool)) (start : σ) :
    ∃ calls stop, ((handOver ds (recording receive)).run before).run start
      = (((), before ++ calls), stop) ∧ Takes ds calls := by
  induction ds generalizing before start with
  | nil => exact ⟨[], start, by rw [List.append_nil]; rfl, .nil⟩
  | cons d ds ih =>
    cases hanswer : (receive d).run start with
    | mk wanted next =>
    have hrecorded : ((recording receive d).run before).run start
        = ((wanted, before ++ [(d, wanted)]), next) := by
      show (fun answer : Bool × σ => ((answer.1, before ++ [(d, answer.1)]), answer.2))
        ((receive d).run start) = _
      rw [hanswer]
    have hstep : ((handOver (d :: ds) (recording receive)).run before).run start
        = ((if wanted then handOver ds (recording receive) else pure ()).run
            (before ++ [(d, wanted)])).run next := by
      rw [handOver_cons, StateT.run_bind, StateT.run_bind, hrecorded]
      rfl
    cases wanted with
    | false => exact ⟨[(d, false)], next, hstep, .last d ds⟩
    | true =>
      obtain ⟨calls, stop, hrun, htakes⟩ := ih (before ++ [(d, true)]) next
      refine ⟨(d, true) :: calls, stop, hstep.trans (hrun.trans ?_), .cons d htakes⟩
      rw [List.append_assoc, List.singleton_append]

theorem StandardObject.takes_calls (o : StandardObject) (s : Script) (start : σ) :
    Takes (o.check s) (o.calls s receive start) := by
  obtain ⟨calls, stop, hrun, htakes⟩ := exists_takes receive (o.check s) [] start
  rw [StandardObject.calls, handTo_eq, hrun]
  exact htakes

end

/-! ### Stopping early -/

/-- **Who stops early gets the first findings.** The objects of the six rules take the settings that
their rules take, and a consumer that always wants more is handed the findings of the rule, all of
them and in order. One that wants no more after its `n`-th call is handed the first `n` of them, or
all if there are fewer; what it answers may depend on whatever it likes. And whenever a consumer has
answered that it wants no more, it is not called again. -/
theorem stopping_takes_the_first :
    StandardObject.registered.map (·.rule) = Registry.standard.rules ∧
    ∀ o ∈ StandardObject.registered, ∀ e : RuleEntry,
      (o.configure e).map (·.check) = (o.rule.configure e).map (·.check) ∧
      ∀ configured, o.configure e = .ok configured → ∀ (s : Script) {σ : Type}
        (receive : Consumer (StateM σ)) (start : σ),
        let calls := configured.calls s receive start
        ((∀ call ∈ calls, call.2 = true) → calls.map (·.1) = configured.check s) ∧
        (∀ n, 1 ≤ n →
          (∀ k < n, ∀ call, calls[k]? = some call → (call.2 = true ↔ k + 1 ≠ n)) →
          calls.map (·.1) = (configured.check s).take n) ∧
        ∀ k call, calls[k]? = some call → call.2 = false → k + 1 = calls.length := by
  refine ⟨StandardObject.map_rule_registered, fun o ho e => ⟨StandardObject.configure_eq ho e, ?_⟩⟩
  intro configured _ s σ receive start calls
  have htakes := configured.takes_calls receive s start
  exact ⟨htakes.map_fst_of_all, fun n hn => htakes.map_fst_eq_take hn,
    fun k call => htakes.eq_length_of_false⟩

/-- Three unused functions, of which a consumer wants two. -/
theorem stopping_takes_the_first_functions :
    let s : Script := ⟨bytes "a.ahk", "F() \x7b\nG() \x7b\nH() \x7b".toList⟩
    let calls := StandardObject.unusedFunctions.calls s (keepUpTo (some 2)) []
    (UnusedFunctions.check s).length = 3 ∧ calls.map (·.2) = [true, false] ∧
      calls.map (·.1) = (UnusedFunctions.check s).take 2 := by
  intro s calls
  have hanswers : calls.map (·.2) = [true, false] := by decide +kernel
  have hstop (calls : List (Diagnostic × Bool)) (h : calls.map (·.2) = [true, false]) :
      ∀ k < 2, ∀ call, calls[k]? = some call → (call.2 = true ↔ k + 1 ≠ 2) := by
    intro k hk call hcall
    have hanswer : [true, false][k]? = some call.2 := by
      rw [← h, List.getElem?_map, hcall]
      rfl
    match k, hk with
    | 0, _ => simp [← Option.some.inj hanswer]
    | 1, _ => simp [← Option.some.inj hanswer]
  have hcalls := (stopping_takes_the_first.2 .unusedFunctions (by simp [StandardObject.registered])
    { enabled := true }).2 .unusedFunctions rfl s (keepUpTo (some 2)) []
  exact ⟨by decide +kernel, hanswers, hcalls.2.1 2 (by omega) (hstop _ hanswers)⟩

end ScriptLint
