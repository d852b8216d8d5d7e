import Bootpd.Lib.Imperative

/-!
# What a reader accepts

A reader is an imperative computation that either succeeds or throws one fixed exception for every
input it does not like. Its grammar is a relation between the state it starts in, the value it
returns and the state it leaves. `Decides x R e` says that the two are the same thing: `x` succeeds
exactly along `R`, and throws `e` wherever `R` has nothing to offer.

Both directions pass through sequences and loops without any assumption that `R` is unambiguous:
that follows, because `x` is a function.

## How it is used

A reader is a composition of smaller ones, and its format comes out of the rules as the same
composition of theirs. `Decides.congr` then replaces it by the grammar that one would have written
down. A loop has the closure of the format of its body, `Loops`; where the body reads an item or a
terminator, that is a list of items.

The exception is one and the same for every failure. A reader with several of them is decided as a
whole only where they need not be told apart.

## Main definitions

* `Decides` — a computation and its grammar
* `Loops` — the grammar of a loop, from that of its body
* `Halts` — a loop makes finitely many passes

## Main results

* `Decides.ok_iff` — a run that succeeds is a derivation, and conversely
* `Decides.bind`, `Decides.loop` — sequences and loops
* `loops_items_iff` — a loop over items with a terminator reads a list
* `Halts.of_decreases` — a loop with a measure makes finitely many passes
-/

namespace Imperative

variable {σ ε α β : Type}

/-- `x` succeeds exactly along `R` and otherwise throws `e`. -/
structure Decides (x : Imp σ ε α) (R : σ → α → σ → Prop) (e : ε) : Prop where
  /-- What `R` derives is returned. -/
  ok : ∀ {s a s'}, R s a s' → exec x s = (.ok a, s')
  /-- Where `R` derives nothing, `e` is thrown. -/
  error : ∀ {s}, (∀ a s', ¬R s a s') → ∃ s', exec x s = (.error e, s')

variable {x : Imp σ ε α} {R R' : σ → α → σ → Prop} {S : α → σ → β → σ → Prop} {e : ε}

/-- **Acceptance.** A run succeeds along the relation and in no other way. -/
theorem Decides.ok_iff (h : Decides x R e) {s s' : σ} {a : α} :
    exec x s = (.ok a, s') ↔ R s a s' := by
  constructor
  · intro hrun
    by_cases hex : ∃ b t, R s b t
    · obtain ⟨b, t, hbt⟩ := hex
      obtain ⟨hb, ht⟩ := Prod.mk.inj ((h.ok hbt).symm.trans hrun)
      rwa [← Except.ok.inj hb, ← ht]
    · obtain ⟨t, ht⟩ := h.error fun b t hbt => hex ⟨b, t, hbt⟩
      cases ht.symm.trans hrun
  · exact h.ok

theorem Decides.congr (h : Decides x R e) (hR : ∀ s a s', R s a s' ↔ R' s a s') :
    Decides x R' e := by
  constructor
  · intro s a s' hs
    exact h.ok ((hR s a s').mpr hs)
  · intro s hs
    exact h.error fun a s' hr => hs a s' ((hR s a s').mp hr)

theorem Decides.pure (a : α) :
    Decides (pure a : Imp σ ε α) (fun s b s' => b = a ∧ s' = s) e := by
  constructor
  · rintro s b s' ⟨rfl, rfl⟩
    rfl
  · intro s hs
    exact absurd ⟨rfl, rfl⟩ (hs a s)

/-- **Sequences.** The value and the state in between are whatever the first part derives. -/
theorem Decides.bind {f : α → Imp σ ε β} (hx : Decides x R e)
    (hf : ∀ a, Decides (f a) (S a) e) :
    Decides (x >>= f) (fun s b s'' => ∃ a s', R s a s' ∧ S a s' b s'') e := by
  constructor
  · rintro s b s'' ⟨a, s', hr, hs⟩
    rw [exec_bind_ok (hx.ok hr)]
    exact (hf a).ok hs
  · intro s hnone
    by_cases hex : ∃ a s', R s a s'
    · obtain ⟨a, s', hr⟩ := hex
      rw [exec_bind_ok (hx.ok hr)]
      exact (hf a).error fun b s'' hs => hnone b s'' ⟨a, s', hr, hs⟩
    · obtain ⟨s', hs'⟩ := hx.error fun a s' hr => hex ⟨a, s', hr⟩
      exact ⟨s', exec_bind_error hs'⟩

/-! ### Loops -/

/-- The passes of a loop whose body derives `B`: all but the last go round again. -/
inductive Loops (B : β → σ → ForInStep β → σ → Prop) : β → σ → β → σ → Prop
  | done {b s b' s'} (h : B b s (.done b') s') : Loops B b s b' s'
  | yield {b s b₁ s₁ b' s'} (h : B b s (.yield b₁) s₁) (hrest : Loops B b₁ s₁ b' s') :
    Loops B b s b' s'

/-- **Loops.** Induction on the passes in one direction, on the measure in the other. -/
theorem Decides.loop {μ : σ → ℕ} {body : β → Imp σ ε (ForInStep β)}
    {B : β → σ → ForInStep β → σ → Prop} (hμ : Decreases μ body)
    (hbody : ∀ b, Decides (body b) (B b) e) (b : β) :
    Decides (loop μ body b) (Loops B b) e := by
  constructor
  · intro s b' s' hloops
    induction hloops with
    | done h => rw [exec_loop hμ, (hbody _).ok h, andThen_ok]
    | yield h _ ih =>
      rw [exec_loop hμ, (hbody _).ok h, andThen_ok]
      exact ih
  · intro s
    induction hn : μ s using Nat.strongRecOn generalizing b s with
    | ind n ih =>
      intro hnone
      rw [exec_loop hμ]
      rcases hb : exec (body b) s with ⟨e' | ⟨b' | b'⟩, s'⟩
      · obtain ⟨t, ht⟩ := (hbody b).error (s := s) fun r t hr => by
          rw [(hbody b).ok hr] at hb
          cases hb
        rw [hb] at ht
        cases ht
        exact ⟨s', rfl⟩
      · exact absurd (Loops.done ((hbody b).ok_iff.mp hb)) (hnone b' s')
      · refine ih (μ s') (hn ▸ hμ hb) b' rfl fun b'' s'' hrest => ?_
        exact hnone b'' s'' (Loops.yield ((hbody b).ok_iff.mp hb) hrest)

/-- **Items and a terminator.** When every pass either reads one item and goes round again, or
reads the terminator and stops, the loop reads a list of items and the terminator. -/
theorem loops_items_iff {γ ι : Type} {B : β → List γ → ForInStep β → List γ → Prop}
    {ok : ι → Prop} {bits : ι → List γ} {f : β → ι → β} {stop : List γ → List γ → Prop}
    (hB : ∀ b input r rest, B b input r rest ↔
      (∃ item, ok item ∧ input = bits item ++ rest ∧ r = .yield (f b item)) ∨
        stop input rest ∧ r = .done b)
    (b b' : β) (input rest : List γ) :
    Loops B b input b' rest ↔ ∃ (items : List ι) (mid : List γ), (∀ item ∈ items, ok item) ∧
      input = items.flatMap bits ++ mid ∧ stop mid rest ∧ b' = items.foldl f b := by
  constructor
  · intro h
    induction h with
    | done h =>
      rcases (hB ..).mp h with ⟨_, _, _, hr⟩ | ⟨hstop, hr⟩
      · cases hr
      · cases hr
        exact ⟨[], _, by simp, rfl, hstop, rfl⟩
    | yield h _ ih =>
      rcases (hB ..).mp h with ⟨item, hok, rfl, hr⟩ | ⟨_, hr⟩
      · cases hr
        obtain ⟨items, mid, hitems, rfl, hstop, rfl⟩ := ih
        exact ⟨item :: items, mid, by simpa using ⟨hok, hitems⟩, by simp, hstop, rfl⟩
      · cases hr
  · rintro ⟨items, mid, hitems, rfl, hstop, rfl⟩
    induction items generalizing b with
    | nil => exact Loops.done ((hB ..).mpr (Or.inr ⟨hstop, rfl⟩))
    | cons item items ih =>
      rw [List.forall_mem_cons] at hitems
      refine Loops.yield ((hB ..).mpr (Or.inl ⟨item, hitems.1, ?_, rfl⟩)) (ih _ hitems.2)
      rw [List.flatMap_cons, List.append_assoc]

/-- The loop makes finitely many passes: every chain of passes that go round again ends. -/
inductive Halts (body : β → Imp σ ε (ForInStep β)) : β → σ → Prop
  | intro {b s} (h : ∀ b' s', exec (body b) s = (.ok (.yield b'), s') → Halts body b' s') :
    Halts body b s

/-- **Termination by consumption.** -/
theorem Halts.of_decreases {μ : σ → ℕ} {body : β → Imp σ ε (ForInStep β)}
    (hμ : Decreases μ body) (b : β) (s : σ) : Halts body b s := by
  induction hn : μ s using Nat.strongRecOn generalizing b s with
  | ind n ih => exact Halts.intro fun b' s' h => ih (μ s') (hn ▸ hμ h) b' s' rfl

end Imperative
