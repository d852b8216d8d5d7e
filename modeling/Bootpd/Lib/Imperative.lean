import Mathlib.Tactic.Common

/-!
# Imperative computations whose state outlives a throw

A C++ member function updates an object and may throw; whatever it wrote before the throw stays
written. `ExceptT ε (StateM σ)` has that meaning, and this module gives it the two tools every
proof about such code needs: equations for running a computation, and rules for pre- and
postconditions.

## Loops

A `while (true)` loop is `loop μ body b`: `body` takes the loop's local variables and says either
`yield` (go round again) or `done` (break). The measure `μ` only supplies the fuel. The loop is
unrolled `μ s + 1` times, and `exec_loop` says that this is the real loop as soon as every pass
that goes round again makes `μ` smaller: the equation has no fuel in it, so nothing proved through
it is about a truncated run.

## Triples

`Triple P x Q R` has a precondition, a postcondition for a return and one for a throw. Both kinds of
exit have to be looked at in every rule, since a handler goes on from the state that a throw has
left. A loop has an invariant of the state and of its local variables, and a measure; termination is
part of the loop's own equation and needs no rule. `Compositional` collects what a property of
computations has to satisfy to be a property of all that are put together from calls that have it.

## Main definitions

* `Imp`, `exec` — a computation, and its run from a state
* `loop`, `Decreases` — a loop, and that its measure gets smaller
* `Triple`, `Preserves`, `Compositional`

## Main results

* `exec_bind`, `exec_observing` — running a sequence, and running a `try`
* `exec_loop` — a loop is one pass of its body, then the loop
* `Triple.bind`, `Triple.loop` — postconditions for normal and for exceptional exit
* `Preserves.compositional` — parts of the state that are left alone
-/

namespace Imperative

variable {σ ε α β : Type}

/-- A computation that updates a state `σ` and may throw an `ε`. -/
abbrev Imp (σ ε : Type) := ExceptT ε (StateM σ)

/-- Run a computation: its result, and the state it leaves, thrown or not. -/
def exec (x : Imp σ ε α) (s : σ) : Except ε α × σ := (x.run.run s).run

/-! ### Running a computation -/

@[simp] theorem exec_pure (a : α) (s : σ) : exec (pure a : Imp σ ε α) s = (.ok a, s) := rfl

@[simp] theorem exec_throw (e : ε) (s : σ) :
    exec (throw e : Imp σ ε α) s = (.error e, s) := rfl

@[simp] theorem exec_get (s : σ) : exec (get : Imp σ ε σ) s = (.ok s, s) := rfl

@[simp] theorem exec_set (t s : σ) : exec (set t : Imp σ ε PUnit) s = (.ok ⟨⟩, t) := rfl

@[simp] theorem exec_modify (f : σ → σ) (s : σ) :
    exec (modify f : Imp σ ε PUnit) s = (.ok ⟨⟩, f s) := rfl

@[simp] theorem exec_liftExcept (r : Except ε α) (s : σ) :
    exec (liftExcept r : Imp σ ε α) s = (r, s) := by
  cases r <;> rfl

/-- A result that is there already is passed on. -/
theorem liftExcept_ok_bind (a : α) (f : α → Imp σ ε β) :
    (liftExcept (.ok a : Except ε α) >>= f : Imp σ ε β) = f a := rfl

/-- What follows a run: nothing after a throw. -/
def andThen (r : Except ε α × σ) (f : α → σ → Except ε β × σ) : Except ε β × σ :=
  match r with
  | (.ok a, s) => f a s
  | (.error e, s) => (.error e, s)

@[simp] theorem andThen_ok (a : α) (s : σ) (f : α → σ → Except ε β × σ) :
    andThen (.ok a, s) f = f a s := rfl

@[simp] theorem andThen_error (e : ε) (s : σ) (f : α → σ → Except ε β × σ) :
    andThen (.error e, s) f = (.error e, s) := rfl

/-- **Sequencing.** A throw skips the rest and keeps the state it was thrown in. -/
theorem exec_bind (x : Imp σ ε α) (f : α → Imp σ ε β) (s : σ) :
    exec (x >>= f) s = andThen (exec x s) fun a s' => exec (f a) s' := by
  simp only [exec, ExceptT.run_bind, StateT.run_bind, Id.run_bind]
  rcases (x.run.run s).run with ⟨_ | _, _⟩ <;> rfl

/-- A computation that ran to the end is followed by the rest. -/
theorem exec_bind_ok {x : Imp σ ε α} {f : α → Imp σ ε β} {s s' : σ} {a : α}
    (h : exec x s = (.ok a, s')) : exec (x >>= f) s = exec (f a) s' := by
  rw [exec_bind, h, andThen_ok]

/-- A computation that threw is followed by nothing. -/
theorem exec_bind_error {x : Imp σ ε α} {f : α → Imp σ ε β} {s s' : σ} {e : ε}
    (h : exec x s = (.error e, s')) : exec (x >>= f) s = (.error e, s') := by
  rw [exec_bind, h, andThen_error]

/-- A sequence that returned has returned throughout. -/
theorem exec_bind_eq_ok {x : Imp σ ε α} {f : α → Imp σ ε β} {s s'' : σ} {b : β}
    (h : exec (x >>= f) s = (.ok b, s'')) :
    ∃ a s', exec x s = (.ok a, s') ∧ exec (f a) s' = (.ok b, s'') := by
  rw [exec_bind] at h
  rcases hx : exec x s with ⟨e | a, s'⟩ <;> rw [hx] at h
  · cases h
  · exact ⟨a, s', rfl, h⟩

@[simp] theorem exec_map (f : α → β) (x : Imp σ ε α) (s : σ) :
    exec (f <$> x) s = andThen (exec x s) fun a s' => (.ok (f a), s') := by
  rw [← bind_pure_comp, exec_bind]
  rfl

/-- A `try`: the outcome becomes a value and the state stays. -/
@[simp] theorem exec_observing (x : Imp σ ε α) (s : σ) :
    exec (observing x) s = (.ok (exec x s).1, (exec x s).2) := by
  simp only [exec, observing, ExceptT.run_tryCatch, ExceptT.run_bind, StateT.run_bind,
    Id.run_bind]
  rcases (x.run.run s).run with ⟨_ | _, _⟩ <;> rfl

/-! ### Loops -/

/-- A loop unrolled at most `fuel` times. -/
def loopFuel (body : β → Imp σ ε (ForInStep β)) : ℕ → β → Imp σ ε β
  | 0, b => pure b
  | n + 1, b => do
    match ← body b with
    | .done b' => pure b'
    | .yield b' => loopFuel body n b'

/-- `while (true) body`, with the local variables `b` and enough fuel for the measure `μ`. -/
def loop (μ : σ → ℕ) (body : β → Imp σ ε (ForInStep β)) (b : β) : Imp σ ε β := do
  let s ← get
  loopFuel body (μ s + 1) b

/-- Every pass of `body` that goes round again makes `μ` smaller. -/
def Decreases (μ : σ → ℕ) (body : β → Imp σ ε (ForInStep β)) : Prop :=
  ∀ ⦃b s b' s'⦄, exec (body b) s = (.ok (.yield b'), s') → μ s' < μ s

theorem exec_loopFuel_succ (body : β → Imp σ ε (ForInStep β)) (n : ℕ) (b : β) (s : σ) :
    exec (loopFuel body (n + 1) b) s = andThen (exec (body b) s) fun r s' =>
      match r with
      | .done b' => (.ok b', s')
      | .yield b' => exec (loopFuel body n b') s' := by
  rw [loopFuel, exec_bind]
  rcases exec (body b) s with ⟨_ | ⟨_ | _⟩, _⟩ <;> rfl

/-- Above the measure the fuel no longer matters. -/
theorem exec_loopFuel_of_lt {μ : σ → ℕ} {body : β → Imp σ ε (ForInStep β)}
    (hμ : Decreases μ body) {n m : ℕ} {b : β} {s : σ} (hn : μ s < n) (hm : μ s < m) :
    exec (loopFuel body n b) s = exec (loopFuel body m b) s := by
  induction n generalizing m b s with
  | zero => omega
  | succ n ih =>
    obtain ⟨m, rfl⟩ := Nat.exists_eq_add_of_le' (Nat.one_le_of_lt hm)
    rw [exec_loopFuel_succ, exec_loopFuel_succ]
    rcases hb : exec (body b) s with ⟨_ | ⟨_ | b'⟩, s'⟩
    · rfl
    · rfl
    · have := hμ hb
      exact ih (by omega) (by omega)

/-- **The loop equation.** One pass of the body, then the loop again: no fuel is left in it. -/
theorem exec_loop {μ : σ → ℕ} {body : β → Imp σ ε (ForInStep β)} (hμ : Decreases μ body)
    (b : β) (s : σ) :
    exec (loop μ body b) s = andThen (exec (body b) s) fun r s' =>
      match r with
      | .done b' => (.ok b', s')
      | .yield b' => exec (loop μ body b') s' := by
  have hloop : ∀ b s, exec (loop μ body b) s = exec (loopFuel body (μ s + 1) b) s := fun _ _ => rfl
  rw [hloop, exec_loopFuel_succ]
  rcases hb : exec (body b) s with ⟨_ | ⟨_ | b'⟩, s'⟩
  · rfl
  · rfl
  · change exec (loopFuel body (μ s) b') s' = exec (loop μ body b') s'
    rw [hloop]
    exact exec_loopFuel_of_lt hμ (hμ hb) (Nat.lt_succ_self _)

/-! ### Pre- and postconditions -/

/-- From a state satisfying `P`, the computation either returns, and then `Q` holds of the result
and the state, or throws, and then `E` holds of the exception and the state. -/
structure Triple (P : σ → Prop) (x : Imp σ ε α) (Q : α → σ → Prop) (E : ε → σ → Prop) : Prop where
  /-- Normal exit. -/
  ok : ∀ {s a s'}, P s → exec x s = (.ok a, s') → Q a s'
  /-- Exceptional exit. -/
  error : ∀ {s e s'}, P s → exec x s = (.error e, s') → E e s'

variable {P : σ → Prop} {Q : α → σ → Prop} {S : β → σ → Prop} {E : ε → σ → Prop}

theorem Triple.pure (a : α) (h : ∀ s, P s → Q a s) : Triple P (pure a : Imp σ ε α) Q E where
  ok := by
    rintro s b s' hs ⟨⟩
    exact h s hs
  error := by rintro s e s' hs ⟨⟩

theorem Triple.bind {x : Imp σ ε α} {f : α → Imp σ ε β} (hx : Triple P x Q E)
    (hf : ∀ a, Triple (Q a) (f a) S E) : Triple P (x >>= f) S E where
  ok := by
    intro s b s'' hs h
    rw [exec_bind] at h
    rcases hxs : exec x s with ⟨e | a, s'⟩ <;> rw [hxs] at h
    · cases h
    · exact (hf a).ok (hx.ok hs hxs) h
  error := by
    intro s e s'' hs h
    rw [exec_bind] at h
    rcases hxs : exec x s with ⟨e' | a, s'⟩ <;> rw [hxs] at h
    · cases h
      exact hx.error hs hxs
    · exact (hf a).error (hx.ok hs hxs) h

theorem Triple.throw (e : ε) (h : ∀ s, P s → E e s) : Triple P (throw e : Imp σ ε α) Q E where
  ok := by rintro s b s' hs ⟨⟩
  error := by
    rintro s e' s' hs ⟨⟩
    exact h s hs

theorem Triple.liftExcept {r : Except ε α} (hok : ∀ a s, r = .ok a → P s → Q a s)
    (herror : ∀ e s, r = .error e → P s → E e s) :
    Triple P (liftExcept r : Imp σ ε α) Q E where
  ok := by
    intro s a s' hs h
    rw [exec_liftExcept] at h
    obtain ⟨rfl, rfl⟩ := Prod.mk.inj h
    exact hok a s rfl hs
  error := by
    intro s e s' hs h
    rw [exec_liftExcept] at h
    obtain ⟨rfl, rfl⟩ := Prod.mk.inj h
    exact herror e s rfl hs

theorem Triple.mono {x : Imp σ ε α} {P' : σ → Prop} {Q' : α → σ → Prop} {E' : ε → σ → Prop}
    (hx : Triple P x Q E) (hP : ∀ s, P' s → P s) (hQ : ∀ a s, Q a s → Q' a s)
    (hE : ∀ e s, E e s → E' e s) : Triple P' x Q' E' where
  ok hs h := hQ _ _ (hx.ok (hP _ hs) h)
  error hs h := hE _ _ (hx.error (hP _ hs) h)

/-- **A `try`**: both exits become a result. -/
theorem Triple.observing {x : Imp σ ε α} {R : Except ε α → σ → Prop}
    (hx : Triple P x (fun a => R (.ok a)) fun e => R (.error e)) :
    Triple P (observing x) R E where
  ok := by
    intro s r s' hs h
    rw [exec_observing] at h
    obtain ⟨hr, rfl⟩ := Prod.mk.inj h
    obtain rfl := Except.ok.inj hr
    rcases hrun : exec x s with ⟨e | a, s'⟩
    · exact hx.error hs hrun
    · exact hx.ok hs hrun
  error := by
    intro s e s' hs h
    rw [exec_observing] at h
    cases h

/-- The rule for a first computation about which nothing is known. -/
theorem Triple.after {x : Imp σ ε α} {f : α → Imp σ ε β}
    (hf : ∀ a, Triple (fun _ => True) (f a) S fun _ _ => True) :
    Triple P (x >>= f) S fun _ _ => True :=
  Triple.bind (Q := fun _ _ => True) ⟨fun _ _ => trivial, fun _ _ => trivial⟩ hf

/-- What the body of a loop with invariant `I` leaves: the loop's postcondition at a `break`, the
invariant otherwise. -/
def LoopPost (I : β → σ → Prop) (S : β → σ → Prop) : ForInStep β → σ → Prop
  | .done b => S b
  | .yield b => I b

/-- **The loop rule.** The invariant `I b` holds of the local variables `b` whenever the body is
entered. -/
theorem Triple.loop {μ : σ → ℕ} {body : β → Imp σ ε (ForInStep β)} {I : β → σ → Prop}
    (hμ : Decreases μ body) (hbody : ∀ b, Triple (I b) (body b) (LoopPost I S) E) (b : β) :
    Triple (I b) (loop μ body b) S E := by
  have hrun : ∀ n b s, μ s = n → I b s →
      (∀ a s', exec (Imperative.loop μ body b) s = (.ok a, s') → S a s') ∧
        ∀ e s', exec (Imperative.loop μ body b) s = (.error e, s') → E e s' := by
    intro n
    induction n using Nat.strongRecOn with
    | ind n ih =>
      intro b s hn hs
      rw [exec_loop hμ]
      rcases hb : exec (body b) s with ⟨e | ⟨b' | b'⟩, s'⟩
      · refine ⟨by rintro a t ⟨⟩, ?_⟩
        rintro e t ⟨⟩
        exact (hbody b).error hs hb
      · refine ⟨?_, by rintro e t ⟨⟩⟩
        rintro a t ⟨⟩
        exact (hbody b).ok hs hb
      · exact ih _ (hn ▸ hμ hb) b' s' rfl ((hbody b).ok hs hb)
  exact ⟨fun hs h => (hrun _ b _ rfl hs).1 _ _ h, fun hs h => (hrun _ b _ rfl hs).2 _ _ h⟩

/-! ### What a computation leaves alone -/

variable {τ : Type}

/-- `x` does not change the part `f` of the state. -/
def Preserves (f : σ → τ) (x : Imp σ ε α) : Prop := ∀ s, f (exec x s).2 = f s

variable {f : σ → τ}

theorem Preserves.pure (a : α) : Preserves f (pure a : Imp σ ε α) := fun _ => rfl

theorem Preserves.throw (e : ε) : Preserves f (throw e : Imp σ ε α) := fun _ => rfl

theorem Preserves.liftExcept (r : Except ε α) : Preserves f (liftExcept r : Imp σ ε α) := by
  intro s
  rw [exec_liftExcept]

theorem Preserves.bind {x : Imp σ ε α} {g : α → Imp σ ε β} (hx : Preserves f x)
    (hg : ∀ a, Preserves f (g a)) : Preserves f (x >>= g) := by
  intro s
  have hs := hx s
  rw [exec_bind]
  rcases hrun : exec x s with ⟨e | a, s'⟩ <;> rw [hrun] at hs
  · exact hs
  · exact (hg a s').trans hs

theorem Preserves.observing {x : Imp σ ε α} (hx : Preserves f x) :
    Preserves f (observing x) := by
  intro s
  rw [exec_observing]
  exact hx s

/-! ### Properties that a program has when its calls have them -/

/-- Sequences, exceptions and `try` keep the property `C`. -/
structure Compositional (C : (α : Type) → Imp σ ε α → Prop) : Prop where
  pure : ∀ {α : Type} (a : α), C α (pure a)
  throw : ∀ {α : Type} (e : ε), C α (throw e)
  get : C σ get
  liftExcept : ∀ {α : Type} (r : Except ε α), C α (liftExcept r)
  bind : ∀ {α β : Type} {x : Imp σ ε α} {g : α → Imp σ ε β},
    C α x → (∀ a, C β (g a)) → C β (x >>= g)
  observing : ∀ {α : Type} {x : Imp σ ε α}, C α x → C (Except ε α) (observing x)

theorem Preserves.compositional (f : σ → τ) :
    Compositional fun (α : Type) (x : Imp σ ε α) => Preserves f x where
  pure := Preserves.pure
  throw := Preserves.throw
  get := fun _ => rfl
  liftExcept := Preserves.liftExcept
  bind := Preserves.bind
  observing := Preserves.observing

end Imperative
