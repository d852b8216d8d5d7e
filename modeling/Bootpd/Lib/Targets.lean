import Bootpd.Lib.Imperative

/-!
# Calls that write through a reference

A member function with a reference parameter updates two things: its object `σ`, and the variable
`τ` of the caller behind the reference. Either may already be changed when it throws. Its state is
the pair of the two.

A computation on the object alone is lifted by `onObject`. There are two ways to get at the
variable. `assign` writes it where the source does; `assignLast` computes a value on the object and
assigns it at the end, as a function with a local result does, so that a throw leaves the variable
alone. A loop over the elements of an array or a span makes the call for one element after the
other, each with that element for its variable, and a throw leaves those behind it as they were.

## Main definitions

* `onObject`, `assign`, `assignLast` — calls on the pair
* `withTarget`, `forEach` — a variable for one call, and for each of a row

## Main results

* `target_of_assignLast` — a target that a throw leaves alone
* `Triple.withTarget`, `Triple.forEach` — invariants of the object
* `exec_withTarget_forEach_cons` — a loop over references, as a sequence of results
-/

namespace Imperative

variable {σ ε τ α : Type}

/-- A computation given by its run. -/
def ofRun (run : σ → Except ε α × σ) : Imp σ ε α := ExceptT.mk fun s => run s

@[simp] theorem exec_ofRun (run : σ → Except ε α × σ) (s : σ) : exec (ofRun run) s = run s := rfl

/-- A computation on the object alone. -/
def onObject (x : Imp σ ε α) : Imp (σ × τ) ε α :=
  ofRun fun p => ((exec x p.1).1, ((exec x p.1).2, p.2))

/-- Assign to the target. -/
def assign (value : τ) : Imp (σ × τ) ε Unit := modify fun p => (p.1, value)

/-- Compute a value on the object, and assign it to the target at the end. -/
def assignLast (x : Imp σ ε τ) : Imp (σ × τ) ε Unit := do
  let value ← onObject x
  assign value

/-- Call `x` with a local variable. The result is the variable's final value, which is lost when
the call throws. -/
def withTarget (target : τ) (x : Imp (σ × τ) ε Unit) : Imp σ ε τ :=
  ofRun fun s => ((exec x (s, target)).1.map fun _ => (exec x (s, target)).2.2,
    (exec x (s, target)).2.1)

/-- The loop of `forEach`, from an object and the targets still to come. -/
def forEachFrom (x : Imp (σ × τ) ε Unit) : σ → List τ → Except ε Unit × (σ × List τ)
  | s, [] => (.ok (), (s, []))
  | s, target :: targets =>
    match exec x (s, target) with
    | (.error e, (s', target')) => (.error e, (s', target' :: targets))
    | (.ok (), (s', target')) =>
      let rest := forEachFrom x s' targets
      (rest.1, (rest.2.1, target' :: rest.2.2))

/-- `for (auto& target : targets) x(target)`. -/
def forEach (x : Imp (σ × τ) ε Unit) : Imp (σ × List τ) ε Unit :=
  ofRun fun p => forEachFrom x p.1 p.2

/-! ### What a throw leaves of the target -/

/-- A computation on the object alone leaves the target. -/
theorem exec_onObject_error {x : Imp σ ε α} {s s' : σ} {target target' : τ} {e : ε}
    (h : exec (onObject x) (s, target) = (.error e, (s', target'))) :
    exec x s = (.error e, s') ∧ target' = target := by
  obtain ⟨hr, hp⟩ := Prod.mk.inj h
  obtain ⟨hs, htarget⟩ := Prod.mk.inj hp
  exact ⟨Prod.ext hr hs, htarget.symm⟩

theorem exec_assignLast (x : Imp σ ε τ) (s : σ) (target : τ) :
    exec (assignLast x) (s, target) =
      match exec x s with
      | (.ok value, s') => (.ok (), (s', value))
      | (.error e, s') => (.error e, (s', target)) := by
  rw [assignLast, exec_bind, onObject, exec_ofRun]
  rcases exec x s with ⟨e | value, s'⟩ <;> rfl

/-- **A target that is assigned at the end** is unchanged by a throw. -/
theorem target_of_assignLast {x : Imp σ ε τ} {s s' : σ} {target target' : τ} {e : ε}
    (h : exec (assignLast x) (s, target) = (.error e, (s', target'))) : target' = target := by
  rw [exec_assignLast] at h
  rcases hx : exec x s with ⟨e' | value, t⟩ <;> rw [hx] at h <;> cases h
  rfl

/-! ### Invariants of the object -/

variable {P : σ → Prop} {Q : α → σ → Prop} {I : σ → Prop} {E : ε → σ → Prop}

theorem Triple.onObject {x : Imp σ ε α} (h : Triple P x Q E) :
    Triple (fun p => P p.1) (onObject x : Imp (σ × τ) ε α) (fun a p => Q a p.1)
      fun e p => E e p.1 where
  ok := by
    rintro ⟨s, t⟩ a _ hs hrun
    obtain ⟨hr, rfl⟩ := Prod.mk.inj hrun
    exact h.ok hs (Prod.ext hr rfl)
  error := by
    rintro ⟨s, t⟩ e _ hs hrun
    obtain ⟨hr, rfl⟩ := Prod.mk.inj hrun
    exact h.error hs (Prod.ext hr rfl)

theorem Triple.assignLast {x : Imp σ ε τ} (h : Triple P x (fun _ => I) E) :
    Triple (fun p => P p.1) (assignLast x) (fun _ p => I p.1) fun e p => E e p.1 :=
  Triple.bind (Triple.onObject h) fun value =>
    ⟨by rintro p _ _ hp ⟨⟩; exact hp, by rintro p _ _ _ ⟨⟩⟩

/-- **A call with a local variable.** -/
theorem Triple.withTarget {x : Imp (σ × τ) ε Unit}
    (h : Triple (fun p => P p.1) x (fun _ p => I p.1) fun e p => E e p.1) (target : τ) :
    Triple P (withTarget target x) (fun _ => I) E where
  ok := by
    intro s a s' hs hrun
    rcases hx : exec x (s, target) with ⟨e | ⟨⟩, p⟩ <;>
      rw [Imperative.withTarget, exec_ofRun, hx] at hrun <;> cases hrun
    exact h.ok (s := (s, target)) hs hx
  error := by
    intro s e s' hs hrun
    rcases hx : exec x (s, target) with ⟨e | ⟨⟩, p⟩ <;>
      rw [Imperative.withTarget, exec_ofRun, hx] at hrun <;> cases hrun
    exact h.error (s := (s, target)) hs hx

/-- **A loop over references** keeps what each call keeps, also when one of them throws. -/
theorem Triple.forEach {x : Imp (σ × τ) ε Unit}
    (h : Triple (fun p => I p.1) x (fun _ p => I p.1) fun e p => E e p.1) :
    Triple (fun p => I p.1) (forEach x) (fun _ p => I p.1) fun e p => E e p.1 := by
  have hloop : ∀ targets s, I s →
      (∀ p, forEachFrom x s targets = (.ok (), p) → I p.1) ∧
        ∀ e p, forEachFrom x s targets = (.error e, p) → E e p.1 := by
    intro targets
    induction targets with
    | nil =>
      intro s hs
      refine ⟨?_, by rintro e p ⟨⟩⟩
      rintro p ⟨⟩
      exact hs
    | cons target targets ih =>
      intro s hs
      rcases hx : exec x (s, target) with ⟨e | ⟨⟩, s', target'⟩
      · have herror := h.error (s := (s, target)) hs hx
        simp only [forEachFrom, hx]
        refine ⟨by rintro p ⟨⟩, ?_⟩
        rintro e p ⟨⟩
        exact herror
      · have hrest := ih s' (h.ok (s := (s, target)) hs hx)
        simp only [forEachFrom, hx]
        refine ⟨?_, ?_⟩
        · rintro p hp
          obtain ⟨hr, rfl⟩ := Prod.mk.inj hp
          exact hrest.1 (forEachFrom x s' targets).2 (Prod.ext hr rfl)
        · rintro e p hp
          obtain ⟨hr, rfl⟩ := Prod.mk.inj hp
          exact hrest.2 e (forEachFrom x s' targets).2 (Prod.ext hr rfl)
  exact ⟨fun hs hrun => (hloop _ _ hs).1 _ hrun, fun hs hrun => (hloop _ _ hs).2 _ _ hrun⟩

/-! ### Targets as results -/

/-- **A loop over references, as a sequence of results.** -/
theorem exec_withTarget_forEach_cons (x : Imp (σ × τ) ε Unit) (target : τ) (targets : List τ)
    (s : σ) :
    exec (withTarget (target :: targets) (forEach x)) s =
      exec (do
        let value ← withTarget target x
        let values ← withTarget targets (forEach x)
        return value :: values) s := by
  rw [exec_bind]
  simp only [withTarget, forEach, exec_ofRun, forEachFrom]
  rcases exec x (s, target) with ⟨e | ⟨⟩, s', target'⟩
  · rfl
  · simp only [Except.map, andThen_ok, exec_bind, exec_ofRun]
    rcases forEachFrom x s' targets with ⟨e | ⟨⟩, p⟩ <;> rfl

/-- A target that is assigned at the end holds the result. -/
theorem exec_withTarget_assignLast (x : Imp σ ε τ) (target : τ) (s : σ) :
    exec (withTarget target (assignLast x)) s = exec x s := by
  rw [withTarget, exec_ofRun, exec_assignLast]
  rcases exec x s with ⟨e | value, s'⟩ <;> rfl

end Imperative
