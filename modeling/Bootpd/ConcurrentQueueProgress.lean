import Bootpd.ConcurrentQueue

/-!
# `concurrent_queue`: what is where, and how long it takes

A value is in the hands of a producer, in the queue or in the hands of the consumer, and moves on
from one to the next. No thread waits for another for ever, but for a consumer that waits for a
value; and once a stop has been requested, the threads have only so many steps left.

These are the facts about the queue that the threads of the two servers build on. They are stated
for one step each, so that a server which goes through the queue among other things can use them
for its own steps: what a step does with the values, who can go on, and what becomes less.

## The measure

Behind the stop every thread has a number of steps that it can still take, `Consumer.remaining`,
`Producer.remaining` and `Stopper.remaining`, and each step of its own makes it less. A step that
notifies counts for those of the consumer that it wakes. Without the stop there is no such number:
a consumer may wake for no reason and go to sleep again for ever. A wake-up for no reason is not
counted behind the stop either, but a consumer that has woken there looks at its token and leaves.

## Main definitions

* `ConcurrentQueue.State.held` — the values that have left the producers
* `ConcurrentQueue.Fed` — a consumer that takes a value finds one
* `ConcurrentQueue.Consumer.due` — how many values the consumer can still return behind the stop

## Main results

* `ConcurrentQueue.takes_or_stays`, `ConcurrentQueue.pushes_or_stays` — what a step does with the
  values
* `ConcurrentQueue.deadlock_free` — some thread can go on, or all are done but for a consumer that
  is blocked
* `ConcurrentQueue.remaining_consumerStep` — after a stop, every step is one of few
-/

namespace Bootpd

open Transition

namespace ConcurrentQueue

variable {α ι : Type} {s s' : State α ι}

/-! ### The values -/

/-- The value `pop` is about to return. -/
def Consumer.inHand : Consumer α → List α
  | .unlocking (some value) | .leaving (some value) => [value]
  | _ => []

/-- The value `push` has not pushed yet. -/
def Producer.inCall : Producer α → List α
  | .locking value | .pushing value => [value]
  | _ => []

/-- What has left the producers. -/
def State.held (s : State α ι) : List α := s.consumer.inHand ++ s.queue

/-- There is one value in hand at most. -/
theorem Consumer.inHand_of_mem {c : Consumer α} {value : α} (h : value ∈ c.inHand) :
    c.inHand = [value] := by
  unfold Consumer.inHand at h ⊢
  split at h
  · rw [List.mem_singleton.mp h]
  · rw [List.mem_singleton.mp h]
  · cases h

theorem Consumer.inHand_notify (c : Consumer α) : c.notify.inHand = c.inHand := by
  cases c <;> rfl

variable [DecidableEq ι]

/-- The last step of `pop` with a value. -/
theorem consumerStep_of_leaving {value : α} (hc : s.consumer = .leaving (some value))
    (hstep : consumerStep s = some s') :
    s' = { s with registered := false, consumer := .looping } := by
  rw [consumerStep, hc] at hstep
  obtain ⟨-, hstep⟩ := Option.ite_none_left_eq_some.mp hstep
  exact (Option.some.inj hstep).symm

/-- **The consumer** takes the first value, or leaves the values where they are. -/
theorem takes_or_stays (hc : ∀ value, s.consumer ≠ .leaving (some value))
    (hstep : consumerStep s = some s') :
    (∃ value, s.queue = value :: s'.queue ∧ s.consumer.inHand = [] ∧
      s'.consumer.inHand = [value]) ∨
    s'.queue = s.queue ∧ s'.consumer.inHand = s.consumer.inHand := by
  cases hs : s.consumer <;> rw [consumerStep, hs] at hstep
  case blocked | ended => cases hstep
  case locking | notified =>
    obtain ⟨-, hstep⟩ := Option.ite_none_right_eq_some.mp hstep
    obtain rfl := Option.some.inj hstep
    exact .inr ⟨rfl, rfl⟩
  case taking =>
    cases hqueue : s.queue with
    | nil =>
      rw [hqueue] at hstep
      cases hstep
    | cons value rest =>
      rw [hqueue] at hstep
      obtain rfl := Option.some.inj hstep
      exact .inl ⟨value, rfl, rfl, rfl⟩
  case leaving outcome =>
    obtain ⟨-, hstep⟩ := Option.ite_none_left_eq_some.mp hstep
    obtain rfl := Option.some.inj hstep
    cases outcome with
    | none => exact .inr ⟨rfl, rfl⟩
    | some value => exact absurd hs (hc value)
  case unlocking outcome =>
    obtain rfl := Option.some.inj hstep
    cases outcome <;> exact .inr ⟨rfl, rfl⟩
  case registering =>
    obtain rfl := Option.some.inj hstep
    split <;> exact .inr ⟨rfl, rfl⟩
  all_goals
    obtain rfl := Option.some.inj hstep
    refine .inr ⟨rfl, ?_⟩
    first
    | rfl
    | show Consumer.inHand (ite _ _ _) = []
      split <;> rfl

theorem held_consumerStep (hc : ∀ value, s.consumer ≠ .leaving (some value))
    (hstep : consumerStep s = some s') : s'.held = s.held := by
  rw [State.held, State.held]
  rcases takes_or_stays hc hstep with ⟨value, hqueue, hhand, hhand'⟩ | ⟨hqueue, hhand⟩
  · rw [hqueue, hhand, hhand']
    rfl
  · rw [hqueue, hhand]

/-- The consumer leaves the producers alone. -/
theorem producers_consumerStep (hstep : consumerStep s = some s') :
    s'.producers = s.producers ∧ s'.stopper = s.stopper ∧
      s'.stopRequested = s.stopRequested := by
  cases hs : s.consumer <;> rw [consumerStep, hs] at hstep
  case blocked | ended => cases hstep
  case locking | notified =>
    obtain ⟨-, hstep⟩ := Option.ite_none_right_eq_some.mp hstep
    obtain rfl := Option.some.inj hstep
    exact ⟨rfl, rfl, rfl⟩
  case taking =>
    cases hqueue : s.queue <;> rw [hqueue] at hstep
    · cases hstep
    · obtain rfl := Option.some.inj hstep
      exact ⟨rfl, rfl, rfl⟩
  case leaving outcome =>
    obtain ⟨-, hstep⟩ := Option.ite_none_left_eq_some.mp hstep
    obtain rfl := Option.some.inj hstep
    exact ⟨rfl, rfl, rfl⟩
  case registering =>
    obtain rfl := Option.some.inj hstep
    split <;> exact ⟨rfl, rfl, rfl⟩
  all_goals
    obtain rfl := Option.some.inj hstep
    exact ⟨rfl, rfl, rfl⟩

/-- **A producer** pushes its value, or leaves the values where they are. -/
theorem pushes_or_stays {i : ι} (hstep : producerStep s i = some s') :
    s'.consumer.inHand = s.consumer.inHand ∧
    ((∃ value, (s.producers i).inCall = [value] ∧ (s'.producers i).inCall = [] ∧
      s'.queue = s.queue ++ [value]) ∨
    s'.queue = s.queue ∧ (s'.producers i).inCall = (s.producers i).inCall) := by
  cases hp : s.producers i <;> rw [producerStep, hp] at hstep
  case idle => cases hstep
  case locking value =>
    obtain ⟨-, hstep⟩ := Option.ite_none_right_eq_some.mp hstep
    obtain rfl := Option.some.inj hstep
    exact ⟨rfl, .inr ⟨rfl, by simp [Producer.inCall]⟩⟩
  case pushing value =>
    obtain rfl := Option.some.inj hstep
    exact ⟨rfl, .inl ⟨value, rfl, by simp [Producer.inCall], rfl⟩⟩
  case unlocking =>
    obtain rfl := Option.some.inj hstep
    exact ⟨rfl, .inr ⟨rfl, by simp [Producer.inCall]⟩⟩
  case notifying =>
    obtain rfl := Option.some.inj hstep
    exact ⟨Consumer.inHand_notify _, .inr ⟨rfl, by simp [State.notify, Producer.inCall]⟩⟩

theorem given_producerStep {i : ι} (hstep : producerStep s i = some s') :
    s'.held ++ (s'.producers i).inCall = s.held ++ (s.producers i).inCall := by
  rw [State.held, State.held]
  obtain ⟨hhand, ⟨value, hcall, hcall', hqueue⟩ | ⟨hqueue, hcall⟩⟩ := pushes_or_stays hstep
  · rw [hhand, hcall, hcall', hqueue]
    simp
  · rw [hhand, hcall, hqueue]

/-- A producer leaves the others alone, and the one who stops. -/
theorem others_producerStep {i : ι} (hstep : producerStep s i = some s') :
    (∀ j ≠ i, s'.producers j = s.producers j) ∧ s'.stopper = s.stopper ∧
      s'.stopRequested = s.stopRequested := by
  cases hp : s.producers i <;> rw [producerStep, hp] at hstep
  case idle => cases hstep
  case locking value =>
    obtain ⟨-, hstep⟩ := Option.ite_none_right_eq_some.mp hstep
    obtain rfl := Option.some.inj hstep
    exact ⟨by simp +contextual, rfl, rfl⟩
  case notifying =>
    obtain rfl := Option.some.inj hstep
    exact ⟨by simp +contextual [State.notify], rfl, rfl⟩
  all_goals
    obtain rfl := Option.some.inj hstep
    exact ⟨by simp +contextual, rfl, rfl⟩

omit [DecidableEq ι] in
/-- A stop touches no value. -/
theorem stays_stopperStep (hstep : stopperStep s = some s') :
    s'.queue = s.queue ∧ s'.consumer.inHand = s.consumer.inHand ∧
      s'.producers = s.producers := by
  rw [stopperStep] at hstep
  split at hstep
  · obtain rfl := Option.some.inj hstep
    exact ⟨rfl, rfl, rfl⟩
  · obtain rfl := Option.some.inj hstep
    exact ⟨rfl, Consumer.inHand_notify _, rfl⟩
  · cases hstep

omit [DecidableEq ι] in
theorem held_stopperStep (hstep : stopperStep s = some s') :
    s'.held = s.held ∧ s'.producers = s.producers := by
  obtain ⟨hqueue, hhand, hproducers⟩ := stays_stopperStep hstep
  exact ⟨by rw [State.held, State.held, hqueue, hhand], hproducers⟩

/-! ### Progress -/

/-- A consumer that takes a value finds one. -/
def Fed (s : State α ι) : Prop := s.consumer = .taking → s.queue ≠ []

omit [DecidableEq ι] in
theorem Fed.notify (h : Fed s) : Fed s.notify := by
  intro hc
  refine h ?_
  cases hs : s.consumer <;> simp [State.notify, hs, Consumer.notify] at hc ⊢

/-- The consumer is the only one that takes. -/
theorem Fed.step {a : Action α ι} (h : Fed s) (hstep : step s a = some s') : Fed s' := by
  cases a with
  | consumer =>
    intro hc
    change consumerStep s = some s' at hstep
    cases hs : s.consumer <;> rw [consumerStep, hs] at hstep
    case blocked | ended => cases hstep
    case testing =>
      obtain rfl := Option.some.inj hstep
      by_contra hqueue
      have hempty : s.queue.isEmpty = true := by simpa using hqueue
      simp [hempty] at hc
    case locking | notified =>
      obtain ⟨-, hstep⟩ := Option.ite_none_right_eq_some.mp hstep
      obtain rfl := Option.some.inj hstep
      cases hc
    case taking =>
      cases hqueue : s.queue <;> rw [hqueue] at hstep
      · cases hstep
      · obtain rfl := Option.some.inj hstep
        cases hc
    case leaving outcome =>
      obtain ⟨-, hstep⟩ := Option.ite_none_left_eq_some.mp hstep
      obtain rfl := Option.some.inj hstep
      cases outcome <;> cases hc
    all_goals
      obtain rfl := Option.some.inj hstep
      grind [State.notify, Consumer.notify]
  | wake =>
    rw [ConcurrentQueue.step] at hstep
    split at hstep
    · obtain rfl := Option.some.inj hstep
      rintro ⟨⟩
    · cases hstep
  | call i value =>
    rw [ConcurrentQueue.step] at hstep
    split at hstep
    · obtain rfl := Option.some.inj hstep
      exact h
    · cases hstep
  | producer i =>
    change producerStep s i = some s' at hstep
    cases hp : s.producers i <;> rw [producerStep, hp] at hstep
    case idle => cases hstep
    case locking value =>
      obtain ⟨-, hstep⟩ := Option.ite_none_right_eq_some.mp hstep
      obtain rfl := Option.some.inj hstep
      exact h
    case pushing value =>
      obtain rfl := Option.some.inj hstep
      exact fun _ => by simp
    case unlocking =>
      obtain rfl := Option.some.inj hstep
      exact h
    case notifying =>
      obtain rfl := Option.some.inj hstep
      exact Fed.notify (s := { s with producers := _ }) h
  | stopper =>
    change stopperStep s = some s' at hstep
    rw [stopperStep] at hstep
    split at hstep
    · obtain rfl := Option.some.inj hstep
      exact h
    · obtain rfl := Option.some.inj hstep
      exact Fed.notify (s := { s with stopper := _ }) h
    · cases hstep

theorem fed_of_run {as : List (Action α ι)} (hrun : run step start as = some s) : Fed s :=
  Keeps.run (fun _ _ _ h hstep => h.step hstep) (by rintro ⟨⟩) hrun

/-- A producer that has the mutex goes on. -/
theorem isSome_producerStep_of_holds {i : ι} (hi : (s.producers i).Holds) :
    (producerStep s i).isSome := by
  cases hp : s.producers i <;> rw [hp] at hi
  case pushing | unlocking => simp [producerStep, hp]
  all_goals cases hi

/-- The consumer that has the mutex goes on. -/
theorem Fed.isSome_consumerStep_of_holds (h : Fed s) (hc : s.consumer.Holds) :
    (consumerStep s).isSome := by
  cases hs : s.consumer <;> rw [hs] at hc
  case taking =>
    obtain ⟨value, rest, hqueue⟩ := List.exists_cons_of_ne_nil (h hs)
    simp [consumerStep, hs, hqueue]
  case testing | waiting | checking | unlocking => simp [consumerStep, hs]
  all_goals cases hc

/-- A producer that has called goes on, or waits for the mutex. -/
theorem Consistent.exists_producerStep (h : Consistent s) {i : ι} (hi : s.producers i ≠ .idle)
    (hc : ¬s.consumer.Holds) : ∃ j, (ConcurrentQueue.producerStep s j).isSome := by
  cases hmutex : s.mutex with
  | some owner =>
    cases owner with
    | consumer => exact absurd (h.consumer.mp hmutex) hc
    | producer j => exact ⟨j, isSome_producerStep_of_holds ((h.producer j).mp hmutex)⟩
  | none =>
    have hholds : ¬(s.producers i).Holds := by simp [← h.producer i, hmutex]
    refine ⟨i, ?_⟩
    cases hp : s.producers i
    case idle => exact absurd hp hi
    case locking => simp [ConcurrentQueue.producerStep, hp, hmutex]
    case notifying => simp [ConcurrentQueue.producerStep, hp]
    all_goals exact absurd (by rw [hp]; trivial) hholds

/-- Some thread can go on by itself, or all calls are over, but for a consumer that waits for a
value. -/
theorem goes_on_or_over {as : List (Action α ι)} (hrun : run step start as = some s) :
    (consumerStep s).isSome ∨ (∃ i, (producerStep s i).isSome) ∨ s.stopper = .notifying ∨
      (∀ i, s.producers i = .idle) ∧
        (s.consumer = .ended ∨ s.consumer = .blocked ∧ s.queue = []) := by
  have h := consistent_run hrun
  by_cases hconsumer : s.consumer.Holds
  · exact .inl ((fed_of_run hrun).isSome_consumerStep_of_holds hconsumer)
  by_cases hidle : ∀ i, s.producers i = .idle
  · by_cases hstopper : s.stopper = .notifying
    · exact .inr (.inr (.inl hstopper))
    have hmutex : s.mutex = none := by
      cases hmutex : s.mutex with
      | none => rfl
      | some owner =>
        cases owner with
        | consumer => exact absurd (h.consumer.mp hmutex) hconsumer
        | producer i => exact ((hidle i ▸ (h.producer i).mp hmutex : Producer.idle.Holds)).elim
    cases hs : s.consumer
    case ended => exact .inr (.inr (.inr ⟨hidle, .inl rfl⟩))
    case blocked =>
      refine .inr (.inr (.inr ⟨hidle, .inr ⟨rfl, ?_⟩⟩))
      by_contra hqueue
      obtain ⟨i, hi⟩ := h.attended hs hqueue
      rw [hidle i] at hi
      exact hi
    case looping | registering => exact .inl (by simp [consumerStep, hs])
    case locking | notified => exact .inl (by simp [consumerStep, hs, hmutex])
    case leaving => exact .inl (by simp [consumerStep, hs, hstopper])
    all_goals exact absurd (by rw [hs]; trivial) hconsumer
  · obtain ⟨i, hi⟩ := not_forall.mp hidle
    exact .inr (.inl (h.exists_producerStep hi hconsumer))

/-- **No deadlock**: in every state that is reached some thread can go on by itself, or all calls
are over and the consumer has ended, waits for a value where there is none, or is stuck because of
a stop it has not been told of. -/
theorem deadlock_free {as : List (Action α ι)} (hrun : run step start as = some s) :
    (consumerStep s).isSome ∨ (∃ i, (producerStep s i).isSome) ∨ s.stopper = .notifying ∨
      (∀ i, s.producers i = .idle) ∧ (s.consumer = .ended ∨
        s.consumer = .blocked ∧ s.queue = [] ∧ (s.stopRequested = false ∨ Stuck s)) := by
  by_cases hstopper : s.stopper = .notifying
  · exact .inr (.inr (.inl hstopper))
  · refine (goes_on_or_over hrun).imp_right (Or.imp_right (Or.imp_right ?_))
    rintro ⟨hidle, hended | ⟨hblocked, hqueue⟩⟩
    · exact ⟨hidle, .inl hended⟩
    · refine ⟨hidle, .inr ⟨hblocked, hqueue, ?_⟩⟩
      cases hstop : s.stopRequested with
      | false => exact .inl rfl
      | true => exact .inr ⟨hblocked, ⟨hidle, hstopper⟩, .inr hstop⟩

/-- A consumer that waits, and nobody else. -/
theorem deadlock_free_waiting : ∃ s : State UInt8 ℕ,
    run step start [.consumer, .consumer, .consumer, .consumer, .consumer] = some s ∧
      s.consumer = .blocked ∧ ((consumerStep s).isSome ∨ (∃ i, (producerStep s i).isSome) ∨
        s.stopper = .notifying ∨ (∀ i, s.producers i = .idle) ∧ (s.consumer = .ended ∨
          s.consumer = .blocked ∧ s.queue = [] ∧ (s.stopRequested = false ∨ Stuck s))) :=
  ⟨_, rfl, rfl, deadlock_free (show run step start
    [.consumer, .consumer, .consumer, .consumer, .consumer] = some _ from rfl)⟩

/-! ### After a stop -/

/-- The other threads notify the consumer, or leave it alone. -/
theorem consumer_eq_or_notify {a : Action α ι} (ha : a ≠ .consumer) (hstep : step s a = some s') :
    s'.consumer = s.consumer ∨ s'.consumer = s.consumer.notify := by
  cases a with
  | consumer => exact absurd rfl ha
  | wake =>
    rw [ConcurrentQueue.step] at hstep
    split at hstep
    · rename_i hblocked
      obtain rfl := Option.some.inj hstep
      exact .inr (by rw [hblocked]; rfl)
    · cases hstep
  | call i value =>
    rw [ConcurrentQueue.step] at hstep
    split at hstep
    · obtain rfl := Option.some.inj hstep
      exact .inl rfl
    · cases hstep
  | producer i =>
    change producerStep s i = some s' at hstep
    cases hp : s.producers i <;> rw [producerStep, hp] at hstep
    case idle => cases hstep
    case locking value =>
      obtain ⟨-, hstep⟩ := Option.ite_none_right_eq_some.mp hstep
      obtain rfl := Option.some.inj hstep
      exact .inl rfl
    case notifying =>
      obtain rfl := Option.some.inj hstep
      exact .inr rfl
    all_goals
      obtain rfl := Option.some.inj hstep
      exact .inl rfl
  | stopper =>
    change stopperStep s = some s' at hstep
    rw [stopperStep] at hstep
    split at hstep
    · obtain rfl := Option.some.inj hstep
      exact .inl rfl
    · obtain rfl := Option.some.inj hstep
      exact .inr rfl
    · cases hstep

/-- A consumer outside of `pop` does not notice them. -/
theorem consumer_eq {a : Action α ι} (ha : a ≠ .consumer) (hblocked : s.consumer ≠ .blocked)
    (hstep : step s a = some s') : s'.consumer = s.consumer := by
  rcases consumer_eq_or_notify ha hstep with h | h
  · exact h
  · rw [h]
    cases hs : s.consumer
    case blocked => exact absurd hs hblocked
    all_goals rfl

/-- Only `request_stop` requests the stop. -/
theorem stopRequested_lasts {a : Action α ι} (hstep : step s a = some s')
    (h : s.stopRequested = true) : s'.stopRequested = true := by
  cases a with
  | consumer => exact (producers_consumerStep hstep).2.2.trans h
  | producer i => exact (others_producerStep hstep).2.2.trans h
  | wake =>
    rw [ConcurrentQueue.step] at hstep
    split at hstep
    · obtain rfl := Option.some.inj hstep
      exact h
    · cases hstep
  | call i value =>
    rw [ConcurrentQueue.step] at hstep
    split at hstep
    · obtain rfl := Option.some.inj hstep
      exact h
    · cases hstep
  | stopper =>
    change stopperStep s = some s' at hstep
    rw [stopperStep] at hstep
    split at hstep
    · obtain rfl := Option.some.inj hstep
      rfl
    · obtain rfl := Option.some.inj hstep
      exact h
    · cases hstep

/-- **What lasts**: a stop that has been requested, and a consumer that has ended. -/
theorem lasts {a : Action α ι} (hstep : step s a = some s') :
    (s.stopRequested = true → s'.stopRequested = true) ∧
      (s.consumer = .ended → s'.consumer = .ended) := by
  refine ⟨stopRequested_lasts hstep, fun hended => ?_⟩
  by_cases ha : a = .consumer
  · subst ha
    change consumerStep s = some s' at hstep
    rw [consumerStep, hended] at hstep
    cases hstep
  · rw [consumer_eq ha (by simp [hended]) hstep, hended]

/-- Only `request_stop` moves the one who stops. -/
theorem stopper_eq {a : Action α ι} (ha : a ≠ .stopper) (hstep : step s a = some s') :
    s'.stopper = s.stopper := by
  cases a with
  | consumer => exact (producers_consumerStep hstep).2.1
  | producer i => exact (others_producerStep hstep).2.1
  | wake =>
    rw [ConcurrentQueue.step] at hstep
    split at hstep
    · obtain rfl := Option.some.inj hstep
      rfl
    · cases hstep
  | call i value =>
    rw [ConcurrentQueue.step] at hstep
    split at hstep
    · obtain rfl := Option.some.inj hstep
      rfl
    · cases hstep
  | stopper => exact absurd rfl ha

/-- A producer that is not the one to move stays where it is. -/
theorem producers_eq {a : Action α ι} {i : ι} (hcall : ∀ value, a ≠ .call i value)
    (ha : a ≠ .producer i) (hstep : step s a = some s') : s'.producers i = s.producers i := by
  cases a with
  | consumer => rw [(producers_consumerStep hstep).1]
  | stopper => rw [(stays_stopperStep hstep).2.2]
  | producer j => exact (others_producerStep hstep).1 i fun h => ha (h ▸ rfl)
  | wake =>
    rw [ConcurrentQueue.step] at hstep
    split at hstep
    · obtain rfl := Option.some.inj hstep
      rfl
    · cases hstep
  | call j value =>
    rw [ConcurrentQueue.step] at hstep
    split at hstep
    · obtain rfl := Option.some.inj hstep
      refine Function.update_of_ne (fun h => ?_) ..
      subst h
      exact hcall value rfl
    · cases hstep

/-- How many steps of its own the consumer has left, at most. -/
def Consumer.remaining : Consumer α → ℕ
  | .ended | .blocked => 0
  | .looping | .leaving none | .waiting => 1
  | .leaving (some _) | .unlocking none => 2
  | .unlocking (some _) | .checking => 3
  | .taking | .notified => 4
  | .testing => 5
  | .locking => 6
  | .registering => 7

/-- The steps a producer has left in its call, and those it can cost the consumer. -/
def Producer.remaining : Producer α → ℕ
  | .idle => 0
  | .notifying => 5
  | .unlocking => 6
  | .pushing _ => 7
  | .locking _ => 8

def Stopper.remaining : Stopper → ℕ
  | .returned => 0
  | .notifying => 5
  | .ready => 6

/-- How many values the consumer can still return. -/
def Consumer.due : Consumer α → ℕ
  | .leaving (some _) | .unlocking (some _) | .taking | .testing | .locking | .registering => 1
  | _ => 0

theorem Consumer.remaining_notify (c : Consumer α) : c.notify.remaining ≤ c.remaining + 4 := by
  cases c <;> simp [Consumer.notify, Consumer.remaining]

theorem Consumer.due_notify (c : Consumer α) : c.notify.due = c.due := by
  cases c <;> rfl

theorem Consumer.due_le (c : Consumer α) : c.due ≤ 1 := by
  cases c with
  | unlocking outcome | leaving outcome => cases outcome <;> simp [Consumer.due]
  | _ => simp [Consumer.due]

theorem Consumer.remaining_le (c : Consumer α) : c.remaining ≤ 7 := by
  cases c with
  | unlocking outcome | leaving outcome => cases outcome <;> simp [Consumer.remaining]
  | _ => simp [Consumer.remaining]

theorem Producer.remaining_le (p : Producer α) : p.remaining ≤ 8 := by
  cases p <;> simp [Producer.remaining]

theorem Stopper.remaining_le (stopper : Stopper) : stopper.remaining ≤ 6 := by
  cases stopper <;> simp [Stopper.remaining]

/-- **A step of the consumer** after the stop. -/
theorem remaining_consumerStep (hstop : s.stopRequested = true)
    (hstep : consumerStep s = some s') :
    s'.consumer.remaining < s.consumer.remaining ∧ s'.consumer.due ≤ s.consumer.due := by
  cases hs : s.consumer <;> rw [consumerStep, hs] at hstep
  case blocked | ended => cases hstep
  case locking | notified =>
    obtain ⟨-, hstep⟩ := Option.ite_none_right_eq_some.mp hstep
    obtain rfl := Option.some.inj hstep
    simp [Consumer.remaining, Consumer.due]
  case taking =>
    cases hqueue : s.queue <;> rw [hqueue] at hstep
    · cases hstep
    · obtain rfl := Option.some.inj hstep
      simp [Consumer.remaining, Consumer.due]
  case leaving outcome =>
    obtain ⟨-, hstep⟩ := Option.ite_none_left_eq_some.mp hstep
    obtain rfl := Option.some.inj hstep
    cases outcome <;> simp [Consumer.remaining, Consumer.due]
  case unlocking outcome =>
    obtain rfl := Option.some.inj hstep
    cases outcome <;> simp [Consumer.remaining, Consumer.due]
  case testing =>
    obtain rfl := Option.some.inj hstep
    cases s.queue.isEmpty <;> simp [Consumer.remaining, Consumer.due]
  all_goals
    obtain rfl := Option.some.inj hstep
    simp [hstop, State.notify, Consumer.notify, Consumer.remaining, Consumer.due]

/-- **A step of a producer** pays for what its notification costs the consumer. -/
theorem remaining_producerStep {i : ι} (hstep : producerStep s i = some s') :
    s'.consumer.remaining + (s'.producers i).remaining <
      s.consumer.remaining + (s.producers i).remaining ∧ s'.consumer.due = s.consumer.due := by
  cases hp : s.producers i <;> rw [producerStep, hp] at hstep
  case idle => cases hstep
  case locking value =>
    obtain ⟨-, hstep⟩ := Option.ite_none_right_eq_some.mp hstep
    obtain rfl := Option.some.inj hstep
    simp [Producer.remaining]
  case notifying =>
    obtain rfl := Option.some.inj hstep
    refine ⟨?_, Consumer.due_notify _⟩
    have hnotify := s.consumer.remaining_notify
    simp only [State.notify, Function.update_self, Producer.remaining]
    omega
  all_goals
    obtain rfl := Option.some.inj hstep
    simp [Producer.remaining]

omit [DecidableEq ι] in
/-- **A step of the stop**, in the same way. -/
theorem remaining_stopperStep (hstep : stopperStep s = some s') :
    s'.consumer.remaining + s'.stopper.remaining <
      s.consumer.remaining + s.stopper.remaining ∧ s'.consumer.due = s.consumer.due := by
  cases hs : s.stopper <;> rw [stopperStep, hs] at hstep
  case returned => cases hstep
  case ready =>
    obtain rfl := Option.some.inj hstep
    refine ⟨?_, rfl⟩
    cases s.registered <;> simp [Stopper.remaining]
  case notifying =>
    obtain rfl := Option.some.inj hstep
    refine ⟨?_, Consumer.due_notify _⟩
    have hnotify := s.consumer.remaining_notify
    simp only [State.notify, Stopper.remaining]
    omega

end ConcurrentQueue

end Bootpd
