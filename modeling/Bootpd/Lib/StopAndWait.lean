import Mathlib.Order.Nat

/-!
# Stop and wait over faulty channels

A sender is at packet `n` and a receiver has answered packets up to `k`, with a channel in each
direction. A channel is the list of its messages, oldest first; any of them can be lost, or
repeated in place.

Packets are counted by natural numbers here. `Packet i m` says that the message `m` can stand for
packet `i`, and `Answer i a` the same of answers; how much of `i` can be read off a message is
left open. `Window` is the invariant of the protocol: both channels ascend, and everything on its
way is packet `n` or its predecessor. So one bit of `i` would do to tell them apart.

## The moves

The sender transmits its packet, again or for the first time; the receiver takes the oldest message
and answers it, or ignores it; the sender takes the oldest answer, and goes on to the next packet if
it is the one that it waits for. Each move is a lemma about the window, and faults of the channels
are a move as well. The sender goes on only when its own packet has been answered, so that `k` is
`n` or one less all the time.

Without order in the channels the invariant does not hold, and neither does the protocol. Nothing is
said about when a sender transmits: a time-out is a transmission like any other.

## Main definitions

* `Fault` — what a channel does to the messages in it
* `Ascending` — a channel whose packets ascend
* `Window` — the invariant

## Main results

* `Ascending.fault` — losing and repeating keep the order of a channel
* `Window.transmit`, `Window.receive`, `Window.accept` — the moves of the protocol
-/

namespace StopAndWait

variable {α β : Type*}

/-! ### Channels -/

/-- The messages of a channel, with the one at `i` repeated in place. -/
def duplicate : List α → ℕ → List α
  | [], _ => []
  | m :: l, 0 => m :: m :: l
  | m :: l, i + 1 => m :: duplicate l i

/-- What a channel does to the messages in it. -/
inductive Fault : List α → List α → Prop where
  | lose (l : List α) (i : ℕ) : Fault l (l.eraseIdx i)
  | duplicate (l : List α) (i : ℕ) : Fault l (duplicate l i)

/-- The messages, oldest first, carry ascending numbers between `lo` and `hi`. -/
inductive Ascending (Carries : ℕ → α → Prop) (hi : ℕ) : ℕ → List α → Prop where
  | nil {lo : ℕ} (h : lo ≤ hi) : Ascending Carries hi lo []
  | cons {lo i : ℕ} {m : α} {l : List α} (hlo : lo ≤ i) (hm : Carries i m)
      (h : Ascending Carries hi i l) : Ascending Carries hi lo (m :: l)

namespace Ascending

variable {Carries : ℕ → α → Prop} {lo hi : ℕ} {m : α} {l l' : List α}

theorem le (h : Ascending Carries hi lo l) : lo ≤ hi := by
  induction h with
  | nil h => exact h
  | cons hlo _ _ ih => exact hlo.trans ih

theorem mono_lo (h : Ascending Carries hi lo l) {lo' : ℕ} (hlo : lo' ≤ lo) :
    Ascending Carries hi lo' l := by
  cases h with
  | nil h => exact .nil (hlo.trans h)
  | cons hlo' hm h => exact .cons (hlo.trans hlo') hm h

theorem mono_hi (h : Ascending Carries hi lo l) {hi' : ℕ} (hhi : hi ≤ hi') :
    Ascending Carries hi' lo l := by
  induction h with
  | nil h => exact .nil (h.trans hhi)
  | cons hlo hm _ ih => exact .cons hlo hm ih

/-- The newest message may carry the greatest number, or a greater one. -/
theorem push (h : Ascending Carries hi lo l) {i : ℕ} (hi' : hi ≤ i) (hm : Carries i m) :
    Ascending Carries i lo (l ++ [m]) := by
  induction h with
  | nil h => exact .cons (h.trans hi') hm (.nil le_rfl)
  | cons hlo hm' _ ih => exact .cons hlo hm' ih

theorem lose (h : Ascending Carries hi lo l) (i : ℕ) : Ascending Carries hi lo (l.eraseIdx i) := by
  induction h generalizing i with
  | nil h => exact .nil h
  | cons hlo hm h ih =>
    cases i with
    | zero => exact h.mono_lo hlo
    | succ i => exact .cons hlo hm (ih i)

theorem duplicate (h : Ascending Carries hi lo l) (i : ℕ) :
    Ascending Carries hi lo (duplicate l i) := by
  induction h generalizing i with
  | nil h => exact .nil h
  | cons hlo hm h ih =>
    cases i with
    | zero => exact .cons hlo hm (.cons le_rfl hm h)
    | succ i => exact .cons hlo hm (ih i)

/-- **Faults** keep the order. -/
theorem fault (h : Ascending Carries hi lo l) (hl : Fault l l') : Ascending Carries hi lo l' := by
  cases hl with
  | lose i => exact h.lose i
  | duplicate i => exact h.duplicate i

end Ascending

/-! ### The window -/

/-- The sender is at packet `n`, the receiver has answered packet `k`. What is on its way to the
receiver has not been overtaken by it, and what is on its way back answers packet `n` or the one
before. -/
structure Window (Packet : ℕ → α → Prop) (Answer : ℕ → β → Prop) (n k : ℕ) (forward : List α)
    (back : List β) : Prop where
  le_succ : n ≤ k + 1
  forward : Ascending Packet n k forward
  back : Ascending Answer k (n - 1) back

namespace Window

variable {Packet : ℕ → α → Prop} {Answer : ℕ → β → Prop} {n k : ℕ} {m : α} {a : β}
  {forward forward' : List α} {back back' : List β}

theorem le (h : Window Packet Answer n k forward back) : k ≤ n := h.forward.le

theorem fault_forward (h : Window Packet Answer n k forward back)
    (hforward : Fault forward forward') : Window Packet Answer n k forward' back :=
  ⟨h.le_succ, h.forward.fault hforward, h.back⟩

theorem fault_back (h : Window Packet Answer n k forward back) (hback : Fault back back') :
    Window Packet Answer n k forward back' :=
  ⟨h.le_succ, h.forward, h.back.fault hback⟩

/-- **The sender** sends its packet. -/
theorem transmit (h : Window Packet Answer n k forward back) (hm : Packet n m) :
    Window Packet Answer n k (forward ++ [m]) back :=
  ⟨h.le_succ, h.forward.push le_rfl hm, h.back⟩

theorem transmits {ms : List α} (h : Window Packet Answer n k forward back)
    (hms : ∀ m ∈ ms, Packet n m) : Window Packet Answer n k (forward ++ ms) back := by
  induction ms generalizing forward with
  | nil => rwa [List.append_nil]
  | cons m ms ih =>
    rw [← List.singleton_append, ← List.append_assoc]
    exact ih (h.transmit (hms m List.mem_cons_self))
      fun m' hm' => hms m' (List.mem_cons_of_mem m hm')

/-- **The receiver** gets the packet it has answered last, or the next. It may answer it, or
not. -/
theorem receive (h : Window Packet Answer n k (m :: forward) back) :
    ∃ i, Packet i m ∧ (i = k ∨ i = k + 1) ∧ Window Packet Answer n k forward back ∧
      ∀ a, Answer i a → Window Packet Answer n i forward (back ++ [a]) := by
  have hsucc := h.le_succ
  obtain ⟨-, hforward, hback⟩ := h
  cases hforward with
  | @cons _ i _ _ hlo hm hforward =>
    have hin := hforward.le
    exact ⟨i, hm, by omega, ⟨hsucc, hforward.mono_lo hlo, hback⟩, fun a ha =>
      ⟨by omega, hforward, hback.push hlo ha⟩⟩

/-- **The sender** gets an answer: to its packet, and then it can go on to the next, or to the
packet before. -/
theorem accept (h : Window Packet Answer n k forward (a :: back)) :
    ∃ j, Answer j a ∧ Window Packet Answer n k forward back ∧
      ((j = n ∧ k = n ∧ Window Packet Answer (n + 1) n forward back) ∨ j + 1 = n) := by
  have hle := h.le
  have hsucc := h.le_succ
  obtain ⟨-, hforward, hback⟩ := h
  cases hback with
  | @cons _ j _ _ hlo ha hback =>
    have hjk := hback.le
    refine ⟨j, ha, ⟨hsucc, hforward, hback.mono_lo hlo⟩, ?_⟩
    by_cases hj : j = n
    · obtain rfl : k = n := by omega
      exact .inl ⟨hj, rfl, le_rfl, hforward.mono_hi k.le_succ, hback.mono_lo (by simp [hj])⟩
    · exact .inr (by omega)

end Window

end StopAndWait
