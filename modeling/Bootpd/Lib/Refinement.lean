import Bootpd.Lib.Imperative

/-!
# Data refinement

A computation on a concrete state `σ` does what another one does on an abstract state `ρ`: it has
the same outcome, and the abstraction of the state it leaves is the state the other one leaves. An
invariant of the concrete state says where the abstraction means anything.

The outcome is a value or an exception, and the states are compared in both cases, since a state
outlives a throw. The invariant has to be kept by both as well. From there on the rules follow the
shape of the two programs, which has to be the same: a sequence against a sequence, a loop against a
loop. The measures of two loops need not be related, as long as each makes its own loop end.

## Main definitions

* `Follows` — a computation does what another one does, where an invariant holds

## Main results

* `Follows.bind`, `Follows.forM` — sequences of computations
* `Follows.loop` — loops, each with its own measure
-/

namespace Imperative

variable {σ ρ ε α β : Type} {f : σ → ρ} {I : σ → Prop}

/-- Under the invariant `I`, the computation `x` does on `s` what `y` does on `f s`. -/
def Follows (f : σ → ρ) (I : σ → Prop) (x : Imp σ ε α) (y : Imp ρ ε α) : Prop :=
  ∀ s, I s → I (exec x s).2 ∧ exec y (f s) = ((exec x s).1, f (exec x s).2)

theorem Follows.pure (a : α) : Follows f I (pure a : Imp σ ε α) (pure a) := fun _ hs => ⟨hs, rfl⟩

theorem Follows.congr {x x' : Imp σ ε α} {y : Imp ρ ε α} (h : Follows f I x y)
    (hx : ∀ s, exec x' s = exec x s) : Follows f I x' y := by
  intro s hs
  rw [hx]
  exact h s hs

/-- **Sequences.** -/
theorem Follows.bind {x : Imp σ ε α} {y : Imp ρ ε α} {g : α → Imp σ ε β} {h : α → Imp ρ ε β}
    (hxy : Follows f I x y) (hgh : ∀ a, Follows f I (g a) (h a)) :
    Follows f I (x >>= g) (y >>= h) := by
  intro s hs
  obtain ⟨hs', hy⟩ := hxy s hs
  rw [exec_bind, exec_bind, hy]
  rcases hx : exec x s with ⟨e | a, s'⟩ <;> rw [hx] at hs'
  · exact ⟨hs', rfl⟩
  · exact hgh a s' hs'

theorem Follows.forM {ι : Type} {x : ι → Imp σ ε Unit} {y : ι → Imp ρ ε Unit}
    (h : ∀ i, Follows f I (x i) (y i)) (l : List ι) : Follows f I (l.forM x) (l.forM y) := by
  induction l with
  | nil => exact Follows.pure _
  | cons i l ih => exact Follows.bind (h i) fun _ => ih

/-- **Loops.** -/
theorem Follows.loop {μ : σ → ℕ} {ν : ρ → ℕ} {x : β → Imp σ ε (ForInStep β)}
    {y : β → Imp ρ ε (ForInStep β)} (hμ : Decreases μ x) (hν : Decreases ν y)
    (h : ∀ b, Follows f I (x b) (y b)) (b : β) : Follows f I (loop μ x b) (loop ν y b) := by
  intro s
  induction hn : μ s using Nat.strongRecOn generalizing b s with
  | ind n ih =>
    intro hs
    obtain ⟨hs', hy⟩ := h b s hs
    rw [exec_loop hμ, exec_loop hν, hy]
    rcases hx : exec (x b) s with ⟨e | ⟨b' | b'⟩, s'⟩ <;> rw [hx] at hs'
    · exact ⟨hs', rfl⟩
    · exact ⟨hs', rfl⟩
    · exact ih (μ s') (hn ▸ hμ hx) b' s' rfl hs'

end Imperative
