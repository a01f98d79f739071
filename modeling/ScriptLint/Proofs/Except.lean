import Mathlib.Data.List.Basic

/-!
# Computations that may be refused

A computation in two steps gives a result exactly if both steps do, and a list of checks passes
exactly if each of them does. Two computations are compared by the results they give, whatever their
errors are. That everything a computation with a state can give has a property (`Yields P m`) is
carried from its steps to the whole.
-/

namespace ScriptLint

variable {ε α β : Type}

theorem exists_error_or_ok (x : Except ε α) : (∃ e, x = .error e) ∨ ∃ a, x = .ok a := by
  cases x with
  | error e => exact .inl ⟨e, rfl⟩
  | ok a => exact .inr ⟨a, rfl⟩

theorem bind_eq_ok_iff {x : Except ε α} {f : α → Except ε β} {b : β} :
    x >>= f = .ok b ↔ ∃ a, x = .ok a ∧ f a = .ok b := by
  cases x with
  | error e => simp [bind, Except.bind]
  | ok a => simp [bind, Except.bind]

theorem bind_eq_error_iff {x : Except ε α} {f : α → Except ε β} {e : ε} :
    x >>= f = .error e ↔ x = .error e ∨ ∃ a, x = .ok a ∧ f a = .error e := by
  cases x with
  | error e' => simp [bind, Except.bind]
  | ok a => simp [bind, Except.bind]

theorem map_eq_ok_iff {x : Except ε α} {f : α → β} {b : β} :
    x.map f = .ok b ↔ ∃ a, x = .ok a ∧ f a = b := by
  cases x with
  | error e => simp [Except.map]
  | ok a => simp [Except.map]

theorem map_eq_error_iff {x : Except ε α} {f : α → β} {e : ε} :
    x.map f = .error e ↔ x = .error e := by
  cases x with
  | error e => simp [Except.map]
  | ok a => simp [Except.map]

/-- An error in other words is no result either. -/
theorem mapError_eq_ok_iff {ε' : Type} {x : Except ε α} {f : ε → ε'} {a : α} :
    x.mapError f = .ok a ↔ x = .ok a := by
  cases x with
  | error e => simp [Except.mapError]
  | ok a => simp [Except.mapError]

theorem mapError_eq_error_iff {ε' : Type} {x : Except ε α} {f : ε → ε'} {e' : ε'} :
    x.mapError f = .error e' ↔ ∃ e, x = .error e ∧ f e = e' := by
  cases x with
  | error e => simp [Except.mapError]
  | ok a => simp [Except.mapError]

theorem mapError_ne {ε' : Type} {message : ε → ε'} {x y : Except ε α} {e e' : ε}
    (hx : x = .error e) (hy : y = .error e') (h : message e' ≠ message e) :
    y.mapError message ≠ x.mapError message := by
  subst hx hy
  exact fun hsame => h (Except.error.inj hsame)

/-- Computations give the same result exactly if each of them gives what the other one gives. -/
theorem toOption_eq_iff {x x' : Except ε α} :
    x'.toOption = x.toOption ↔ ∀ a, x' = .ok a ↔ x = .ok a := by
  constructor
  · intro h a
    cases x <;> cases x' <;> simp_all [Except.toOption]
  · intro h
    cases x with
    | ok a => rw [(h a).mpr rfl]
    | error e =>
      cases x' with
      | ok a => cases (h a).mp rfl
      | error e' => rfl

/-! ### Agreement -/

/-- Whether two computations give the same, or are refused for reasons that are related. -/
inductive Agree (S : ε → ε → Prop) : Except ε α → Except ε α → Prop
  | ok (a : α) : Agree S (.ok a) (.ok a)
  | error {e e' : ε} (h : S e e') : Agree S (.error e) (.error e')

section

variable {S : ε → ε → Prop} {x x' : Except ε α}

theorem Agree.refl (hrefl : ∀ e, S e e) (x : Except ε α) : Agree S x x := by
  cases x with
  | ok a => exact .ok a
  | error e => exact .error (hrefl e)

theorem Agree.ok_iff (h : Agree S x x') (a : α) : x = .ok a ↔ x' = .ok a := by
  cases h with
  | ok => rfl
  | error => exact iff_of_false (fun h => nomatch h) fun h => nomatch h

theorem Agree.map (h : Agree S x x') (f : α → β) : Agree S (x.map f) (x'.map f) := by
  cases h with
  | ok a => exact .ok (f a)
  | error h => exact .error h

theorem Agree.mapError {ε' : Type} {S' : ε' → ε' → Prop} {f : ε → ε'} (h : Agree S x x')
    (hf : ∀ e e', S e e' → S' (f e) (f e')) : Agree S' (x.mapError f) (x'.mapError f) := by
  cases h with
  | ok a => exact .ok a
  | error h => exact .error (hf _ _ h)

/-- What comes second is the same, or refused for the same reason. -/
theorem Agree.bind (h : Agree S x x') (hrefl : ∀ e, S e e) (f : α → Except ε β) :
    Agree S (x >>= f) (x' >>= f) := by
  cases h with
  | error h => exact .error h
  | ok a => exact .refl hrefl (f a)

end

/-! ### Computations with a state -/

section

variable {σ : Type} {P : α → Prop} {Q : β → Prop}

/-- Whether everything that a computation with a state can give has a property. -/
def Yields (P : α → Prop) (m : StateT σ (Except ε) α) : Prop :=
  ∀ s a s', m.run s = .ok (a, s') → P a

theorem yields_pure {a : α} (h : P a) : Yields P (pure a : StateT σ (Except ε) α) := by
  intro s b s' hrun
  obtain ⟨rfl, -⟩ := Prod.mk.inj (Except.ok.inj hrun)
  exact h

theorem yields_throw (e : ε) : Yields P (throw e : StateT σ (Except ε) α) := by
  intro s a s' hrun
  cases hrun

theorem Yields.mono {P' : α → Prop} {m : StateT σ (Except ε) α} (hm : Yields P m)
    (h : ∀ a, P a → P' a) : Yields P' m := fun s a s' hrun => h a (hm s a s' hrun)

/-- What comes second may rely on what the first step yields. -/
theorem Yields.bind {m : StateT σ (Except ε) α} {f : α → StateT σ (Except ε) β} (hm : Yields P m)
    (hf : ∀ a, P a → Yields Q (f a)) : Yields Q (m >>= f) := by
  intro s b s' hrun
  rw [StateT.run_bind] at hrun
  obtain ⟨⟨a, between⟩, hfirst, hsecond⟩ := bind_eq_ok_iff.mp hrun
  exact hf a (hm s a between hfirst) between b s' hsecond

/-- A first step that nothing is known of. -/
theorem yields_bind {m : StateT σ (Except ε) α} {f : α → StateT σ (Except ε) β}
    (hf : ∀ a, Yields Q (f a)) : Yields Q (m >>= f) := by
  have hm : Yields (fun _ => True) m := fun _ _ _ _ => trivial
  exact hm.bind fun a _ => hf a

end

/-! ### Lists of checks -/

/-- Checks in a row for each of a list are the checks for all of them in a row. -/
theorem forM_flatMap {f : β → Except ε Unit} (g : α → List β) (as : List α) :
    (as.flatMap g).forM f = as.forM fun a => (g a).forM f := by
  induction as with
  | nil => rfl
  | cons a as ih =>
    have hstep : (a :: as).forM (fun a => (g a).forM f)
        = ((g a).forM f >>= fun _ => as.forM fun a => (g a).forM f) := rfl
    rw [List.flatMap_cons, hstep, ← ih]
    exact List.forM_append

theorem forM_map {f : β → Except ε Unit} (g : α → β) (as : List α) :
    (as.map g).forM f = as.forM fun a => f (g a) := by
  induction as with
  | nil => rfl
  | cons a as ih =>
    show (f (g a) >>= fun _ => (as.map g).forM f) = f (g a) >>= fun _ => as.forM fun a => f (g a)
    rw [ih]

/-- A list of checks passes exactly if each of them does. -/
theorem forM_eq_ok_iff {f : α → Except ε Unit} {as : List α} :
    as.forM f = .ok () ↔ ∀ a ∈ as, f a = .ok () := by
  induction as with
  | nil => simp [pure, Except.pure]
  | cons a as ih =>
    have hstep : (a :: as).forM f = (f a >>= fun _ => as.forM f) := rfl
    rw [hstep, bind_eq_ok_iff, List.forall_mem_cons, ← ih]
    constructor
    · rintro ⟨⟨⟩, ha, has⟩
      exact ⟨ha, has⟩
    · rintro ⟨ha, has⟩
      exact ⟨(), ha, has⟩

/-- The error of a list of checks is that of the first one that does not pass. -/
theorem forM_eq_error_iff {f : α → Except ε Unit} {as : List α} {e : ε} :
    as.forM f = .error e ↔ ∃ before a after, as = before ++ a :: after ∧
      (∀ b ∈ before, f b = .ok ()) ∧ f a = .error e := by
  induction as with
  | nil => simp [pure, Except.pure]
  | cons a as ih =>
    have hstep : (a :: as).forM f = (f a >>= fun _ => as.forM f) := rfl
    rw [hstep]
    -- The list is split at its first element, or behind it if that passes.
    cases ha : f a with
    | error e' =>
      constructor
      · intro h
        exact ⟨[], a, as, rfl, List.forall_mem_nil _, ha.trans h⟩
      · rintro ⟨before, b, after, hsplit, hbefore, hb⟩
        cases before with
        | nil =>
          obtain ⟨rfl, -⟩ := List.cons.inj hsplit
          exact ha.symm.trans hb
        | cons c before =>
          obtain ⟨rfl, -⟩ := List.cons.inj hsplit
          exact absurd (ha.symm.trans (hbefore a List.mem_cons_self)) (by simp)
    | ok u =>
      refine ih.trans ⟨?_, ?_⟩
      · rintro ⟨before, b, after, rfl, hbefore, hb⟩
        exact ⟨a :: before, b, after, rfl, List.forall_mem_cons.mpr ⟨ha, hbefore⟩, hb⟩
      · rintro ⟨before, b, after, hsplit, hbefore, hb⟩
        cases before with
        | nil =>
          obtain ⟨rfl, -⟩ := List.cons.inj hsplit
          exact absurd (ha.symm.trans hb) (by simp)
        | cons c before =>
          obtain ⟨-, rfl⟩ := List.cons.inj hsplit
          exact ⟨before, b, after, rfl, (List.forall_mem_cons.mp hbefore).2, hb⟩

/-- The error of a list of computations is that of the first one that is refused. -/
theorem mapM_eq_error_iff {f : α → Except ε β} {as : List α} {e : ε} :
    as.mapM f = .error e ↔ ∃ before a after, as = before ++ a :: after ∧
      (∀ b ∈ before, ∃ x, f b = .ok x) ∧ f a = .error e := by
  have hchecks : as.mapM f = .error e ↔ (as.forM fun a => (f a).map fun _ => ()) = .error e := by
    induction as with
    | nil => simp [pure, Except.pure]
    | cons a as ih =>
      have hstep : ((a :: as).forM fun a => (f a).map fun _ => ())
          = ((f a).map fun _ => ()) >>= fun _ => as.forM fun a => (f a).map fun _ => () := rfl
      rw [List.mapM_cons, hstep]
      cases f a with
      | error e' =>
        show Except.error e' = .error e ↔ Except.error e' = .error e
        rw [Except.error.injEq, Except.error.injEq]
      | ok b =>
        show (as.mapM f).map (b :: ·) = .error e ↔ _
        exact map_eq_error_iff.trans ih
  simp only [hchecks, forM_eq_error_iff, map_eq_error_iff, map_eq_ok_iff, and_true]

/-- The error of a list of checks is that of one of them. -/
theorem exists_of_forM_eq_error {f : α → Except ε Unit} {as : List α} {e : ε}
    (h : as.forM f = .error e) : ∃ a ∈ as, f a = .error e := by
  obtain ⟨before, a, after, rfl, -, ha⟩ := forM_eq_error_iff.mp h
  exact ⟨a, List.mem_append_right before List.mem_cons_self, ha⟩

/-- What is reached by a list of checks decides: it is the same for lists that agree that far. -/
theorem forM_eq_of_reached {R : α → α → Prop} {f : α → Except ε Unit}
    {as as' : List α} (h : List.Forall₂ R as as')
    (hreached : ∀ before a after a', as = before ++ a :: after → (∀ b ∈ before, f b = .ok ()) →
      R a a' → f a' = f a) : as'.forM f = as.forM f := by
  induction h with
  | nil => rfl
  | @cons a a' as as' ha _ ih =>
    have hstep (b : α) (bs : List α) : (b :: bs).forM f = (f b >>= fun _ => bs.forM f) := rfl
    rw [hstep, hstep, hreached [] a as a' rfl (List.forall_mem_nil _) ha]
    cases hfirst : f a with
    | error e => rfl
    | ok u =>
      refine ih fun before b after b' hsplit hbefore hb => ?_
      exact hreached (a :: before) b after b' (by rw [hsplit, List.cons_append])
        (List.forall_mem_cons.mpr ⟨hfirst, hbefore⟩) hb

end ScriptLint
