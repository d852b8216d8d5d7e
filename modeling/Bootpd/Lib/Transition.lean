import Mathlib.Algebra.Group.Prod
import Mathlib.Data.List.Forall2
import Mathlib.Data.List.ReduceOption
import Mathlib.Order.Nat

/-!
# Runs of a machine

A machine is a step function `step : σ → α → Option σ`: the state after an action, if the action
can be taken. An action stands for one atomic step of one of the threads or parties of a system,
so that a list of actions is one interleaving of them.

## Rules

A run is a fold, and what is wanted of runs is got from a fact about one step. An invariant is kept.
A property that holds as long as the steps meet a condition is got by `along_iff_meets`, in both
directions, if a step that misses the condition breaks the property. A number that each step makes
less bounds the length of a run, and a cost that each step pays out of a stock bounds what is paid.
Accounts are sums over the actions in any additive monoid, so that several can be kept as one.

`Simulates` has two machines. Each action of the first is at most one action of the second, and
which one it may be depends on the action. From this a run of the first gives a run of the second
that goes along with it: for every prefix of the one there is the prefix of the other that ends in
the matching state.

## Main definitions

* `run`, `Along`, `Meets` — a run, and what holds all along one
* `Keeps` — a step keeps a property
* `Simulates` — a machine simulates another one, step by step

## Main results

* `Keeps.run` — what every step keeps holds at the end of a run
* `along_iff_meets` — a property holds all along a run exactly as long as its steps meet a
  condition
* `cost_le`, `exists_cost_ge` — runs of bounded and of unbounded cost
* `length_add_le` — runs of bounded length
* `total_of_run` — accounts that every step adds to
* `Simulates.run` — runs of two machines that match action by action
-/

namespace Transition

variable {σ α : Type*} (step : σ → α → Option σ)

/-- The state after the actions `as`, if each of them can be taken in its turn. -/
def run : σ → List α → Option σ
  | s, [] => some s
  | s, a :: as => (step s a).bind fun s' => run s' as

/-- `P` holds in every state of the run of `as`, as far as it gets. -/
def Along (P : σ → Prop) : σ → List α → Prop
  | s, [] => P s
  | s, a :: as => P s ∧ ∀ s', step s a = some s' → Along P s' as

/-- Every action of the run meets `C` in the state it is taken in. -/
def Meets (C : σ → α → Prop) : σ → List α → Prop
  | _, [] => True
  | s, a :: as => ∀ s', step s a = some s' → C s a ∧ Meets C s' as

/-- Every step keeps `I`. -/
def Keeps (I : σ → Prop) : Prop := ∀ s a s', I s → step s a = some s' → I s'

variable {step} {I P : σ → Prop} {C : σ → α → Prop} {s s' : σ} {as bs : List α}

theorem run_cons_eq_some {a : α} :
    run step s (a :: as) = some s' ↔ ∃ t, step s a = some t ∧ run step t as = some s' :=
  Option.bind_eq_some_iff

theorem run_append : run step s (as ++ bs) = (run step s as).bind fun t => run step t bs := by
  induction as generalizing s with
  | nil => rfl
  | cons a as ih =>
    show (step s a).bind (fun t => run step t (as ++ bs)) = _
    rw [funext fun t => ih (s := t)]
    exact (Option.bind_assoc ..).symm

/-- A state that has been reached goes on. -/
theorem reached_step {a : α} (h : ∃ as, run step s as = some s') {s'' : σ}
    (hstep : step s' a = some s'') : ∃ as, run step s as = some s'' := by
  obtain ⟨as, has⟩ := h
  refine ⟨as ++ [a], ?_⟩
  rw [run_append, has]
  simp [run, hstep]

/-- **Invariants.** -/
theorem Keeps.run (h : Keeps step I) (hs : I s) (hrun : run step s as = some s') : I s' := by
  induction as generalizing s with
  | nil => exact Option.some.inj hrun ▸ hs
  | cons a as ih =>
    obtain ⟨t, hstep, hrest⟩ := run_cons_eq_some.mp hrun
    exact ih (h s a t hs hstep) hrest

/-- What holds at the end of every run from `s` holds all along one. -/
theorem along_of_run (h : ∀ as s', run step s as = some s' → P s') : Along step P s as := by
  induction as generalizing s with
  | nil => exact h [] s rfl
  | cons a as ih =>
    refine ⟨h [] s rfl, fun t hstep => ih fun bs s' hrun => ?_⟩
    exact h (a :: bs) s' (run_cons_eq_some.mpr ⟨t, hstep, hrun⟩)

/-- **Runs under a condition**: the steps that meet `C` keep `I`, and the others end outside
`P`. -/
theorem along_iff_meets (hkeep : ∀ s a s', I s → C s a → step s a = some s' → I s')
    (hmeet : ∀ s a s', I s → step s a = some s' → P s' → C s a) (hP : ∀ s, I s → P s)
    (hs : I s) : Along step P s as ↔ Meets step C s as := by
  have hhead {s : σ} {as : List α} (h : Along step P s as) : P s := by
    cases as with
    | nil => exact h
    | cons a as => exact h.1
  induction as generalizing s with
  | nil => exact iff_of_true (hP s hs) trivial
  | cons a as ih =>
    constructor
    · rintro ⟨-, h⟩ t hstep
      have hC := hmeet s a t hs hstep (hhead (h t hstep))
      exact ⟨hC, (ih (hkeep s a t hs hC hstep)).mp (h t hstep)⟩
    · intro h
      refine ⟨hP s hs, fun t hstep => ?_⟩
      obtain ⟨hC, hrest⟩ := h t hstep
      exact (ih (hkeep s a t hs hC hstep)).mpr hrest

variable {cost potential : σ → ℕ}

/-- **Bounded cost**: every step is paid for by the potential. -/
theorem cost_le (hkeep : Keeps step I)
    (h : ∀ s a s', I s → step s a = some s' →
      cost s' + potential s' ≤ cost s + potential s)
    (hs : I s) (hrun : run step s as = some s') : cost s' ≤ cost s + potential s := by
  have hpaid : Keeps step fun t => I t ∧ cost t + potential t ≤ cost s + potential s := by
    intro t a t' ht hstep
    exact ⟨hkeep t a t' ht.1 hstep, (h t a t' ht.1 hstep).trans ht.2⟩
  exact (Nat.le_add_right _ _).trans (hpaid.run ⟨hs, le_rfl⟩ hrun).2

/-- **Bounded length**: every action of a kind lowers the potential. -/
theorem length_add_le {A : α → Prop} (hkeep : Keeps step I)
    (h : ∀ s a s', I s → A a → step s a = some s' → potential s' < potential s) (hs : I s)
    (has : ∀ a ∈ as, A a) (hrun : run step s as = some s') :
    as.length + potential s' ≤ potential s := by
  induction as generalizing s with
  | nil =>
    obtain rfl := Option.some.inj hrun
    simp
  | cons a as ih =>
    obtain ⟨t, hstep, hrest⟩ := run_cons_eq_some.mp hrun
    have hlt := h s a t hs (has a List.mem_cons_self) hstep
    have hle := ih (hkeep s a t hs hstep) (fun b hb => has b (List.mem_cons_of_mem _ hb)) hrest
    rw [List.length_cons]
    omega

variable {M N : Type*}

/-- What the steps of the run of `as` weigh together. -/
def total [AddMonoid M] (step : σ → α → Option σ) (weight : σ → α → M) : σ → List α → M
  | _, [] => 0
  | s, a :: as => weight s a + (step s a).elim 0 fun s' => total step weight s' as

/-- **Accounts**: what every step adds to is added up by a run. -/
theorem total_of_run [AddMonoid M] {I : σ → M → Prop} {weight : σ → α → M} {n : M}
    (h : ∀ s a s' n, I s n → step s a = some s' → I s' (n + weight s a)) (hs : I s n)
    (hrun : run step s as = some s') : I s' (n + total step weight s as) := by
  induction as generalizing s n with
  | nil =>
    obtain rfl := Option.some.inj hrun
    rwa [total, add_zero]
  | cons a as ih =>
    obtain ⟨t, hstep, hrest⟩ := run_cons_eq_some.mp hrun
    have hI := ih (h s a t n hs hstep) hrest
    rw [total, hstep]
    rwa [add_assoc] at hI

/-- Two accounts, kept side by side. -/
theorem total_prodMk [AddMonoid M] [AddMonoid N] (f : σ → α → M) (g : σ → α → N) (s : σ)
    (as : List α) : total step (fun s a => (f s a, g s a)) s as =
      (total step f s as, total step g s as) := by
  induction as generalizing s with
  | nil => rfl
  | cons a as ih =>
    rw [total, total, total]
    cases step s a with
    | none => rfl
    | some s' =>
      rw [Option.elim_some, ih]
      rfl

/-- **Unbounded cost**: wherever `I` holds, the run can go on to where it holds again, at a
cost. -/
theorem exists_cost_ge
    (h : ∀ s, I s → ∃ as s', run step s as = some s' ∧ I s' ∧ cost s < cost s') (hs : I s)
    (n : ℕ) : ∃ as s', run step s as = some s' ∧ I s' ∧ n ≤ cost s' := by
  induction n with
  | zero => exact ⟨[], s, rfl, hs, Nat.zero_le _⟩
  | succ n ih =>
    obtain ⟨as, t, has, ht, hn⟩ := ih
    obtain ⟨bs, t', hbs, ht', hlt⟩ := h t ht
    refine ⟨as ++ bs, t', ?_, ht', by omega⟩
    rw [run_append, has]
    exact hbs

/-! ### Simulation -/

variable {τ β : Type*}

/-- The machine `step'` does what `step` does: seen through `f`, an action `a` is nothing at all or
one action, and `shows` says which of these it may be. -/
def Simulates (step : σ → α → Option σ) (step' : τ → β → Option τ) (f : σ → τ)
    (shows : α → Option β → Prop) (I : σ → Prop) : Prop :=
  ∀ s a s', I s → step s a = some s' →
    ∃ b : Option β, shows a b ∧ run step' (f s) b.toList = some (f s')

variable {step' : τ → β → Option τ} {f : σ → τ} {shows : α → Option β → Prop}

/-- **Runs that match**: one run of the other machine goes along with the whole run, action by
action, and is where `f` says after every one of them. -/
theorem Simulates.run (h : Simulates step step' f shows I) (hkeep : Keeps step I) (hs : I s)
    (hrun : run step s as = some s') : ∃ bs : List (Option β), List.Forall₂ shows as bs ∧
      ∀ n, Transition.run step' (f s) (bs.take n).reduceOption =
        (Transition.run step s (as.take n)).map f := by
  induction as generalizing s with
  | nil => exact ⟨[], .nil, fun n => by simp [Transition.run]⟩
  | cons a as ih =>
    obtain ⟨t, hstep, hrest⟩ := run_cons_eq_some.mp hrun
    obtain ⟨b, hshows, hb⟩ := h s a t hs hstep
    obtain ⟨bs, hall, hbs⟩ := ih (hkeep s a t hs hstep) hrest
    refine ⟨b :: bs, .cons hshows hall, fun n => ?_⟩
    cases n with
    | zero => rfl
    | succ n =>
      have hcons : ((b :: bs).take (n + 1)).reduceOption =
          b.toList ++ (bs.take n).reduceOption := by
        cases b <;> rfl
      rw [hcons, run_append, hb, List.take_succ_cons, Transition.run, hstep]
      exact hbs n

end Transition
