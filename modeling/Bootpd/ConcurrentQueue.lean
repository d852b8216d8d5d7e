import Bootpd.Lib.Transition
import Mathlib.Logic.Function.Basic

/-!
# `concurrent_queue`: waiting, and being woken

One consumer calls `pop(stop_token)` again and again, as the `thread_outgoing` of the two servers
do, any number of producers call `push` or `emplace`, and one thread calls `request_stop`. An
action is one atomic step of one of them.

## The steps

`pop` is taken apart as far as another thread can come between: the test of the stop token in
front of it, the constructor of `please_stop`, the lock, `m_queue.empty()`, the wait, the way back
to the mutex, the test of the token behind the wait, `front` and `pop`, the unlocking and the
destructor of `please_stop`. A condition variable gives the mutex up and blocks in one step. A
notification reaches the consumer if it is blocked in the wait at that moment, and nobody
otherwise; that is the whole of what `m_covar` is here. The consumer may also wake for no reason,
as the standard allows.

`m_cease` is read as the source does; only the destructor sets it, and no thread uses the queue
then.

## Scope

There is one consumer, and one stop, which is what either server has. `ConcurrentQueueCalls` has
any threads and any calls, and looks at what they return; here the question is who is left
waiting. Exceptions of the mutex and of the allocator are left out.

## Main definitions

* `ConcurrentQueue.State`, `ConcurrentQueue.step` — the threads, and one step of one of them
* `ConcurrentQueue.Consistent` — what the fields have to do with each other in every run
* `ConcurrentQueue.Stuck`, `ConcurrentQueue.InTime` — what can go wrong, and by which step

## Main results

* `ConcurrentQueue.consistent_run` — every run; a pushed element is never left to a consumer that
  nobody will wake
* `ConcurrentQueue.along_not_stuck_iff` — which runs leave nobody waiting for ever
* `ConcurrentQueue.stuck_reachable` — a stop that nobody is told of
-/

namespace Bootpd

open Transition

namespace ConcurrentQueue

variable {α ι : Type}

/-! ### The threads -/

/-- Where the consumer is, before the step that is named. -/
inductive Consumer (α : Type) where
  /-- `while (!st.stop_requested())` -/
  | looping
  /-- The constructor of `please_stop`. -/
  | registering
  | locking
  /-- `m_queue.empty()` -/
  | testing
  | waiting
  /-- In the wait. -/
  | blocked
  /-- In the wait, on its way to the mutex. -/
  | notified
  /-- `st.stop_requested() || m_cease.load()` -/
  | checking
  | taking
  /-- With the value to be returned, or without one when `pop` throws. -/
  | unlocking (outcome : Option α)
  /-- The destructor of `please_stop`. -/
  | leaving (outcome : Option α)
  | ended
deriving DecidableEq

/-- Where a producer is in `push` or `emplace`. -/
inductive Producer (α : Type) where
  | idle
  | locking (value : α)
  | pushing (value : α)
  | unlocking
  | notifying
deriving DecidableEq

/-- Where the thread that calls `request_stop` is. -/
inductive Stopper where
  | ready
  /-- In the callback, at its `notify_all`. -/
  | notifying
  | returned
deriving DecidableEq

/-- Who can hold `m_mutex`. -/
inductive Owner (ι : Type) where
  | consumer
  | producer (i : ι)
deriving DecidableEq

/-- The queue and the threads around it: `m_queue`, `m_mutex`, `m_cease`, the stop token that `pop`
gets, and where each thread is. -/
structure State (α ι : Type) where
  queue : List α
  mutex : Option (Owner ι)
  cease : Bool
  stopRequested : Bool
  /-- `please_stop` is registered with the stop token. -/
  registered : Bool
  consumer : Consumer α
  producers : ι → Producer α
  stopper : Stopper

/-- One step of one thread. -/
inductive Action (α ι : Type) where
  | consumer
  /-- The wait ends without a notification. -/
  | wake
  /-- A producer calls `push` or `emplace`. -/
  | call (i : ι) (value : α)
  | producer (i : ι)
  | stopper
deriving DecidableEq

/-- Where a notification leaves the consumer. -/
def Consumer.notify : Consumer α → Consumer α
  | .blocked => .notified
  | c => c

/-- `notify_one` and `notify_all`: there is one thread that waits. -/
def State.notify (s : State α ι) : State α ι := { s with consumer := s.consumer.notify }

/-- The next step of the consumer. -/
def consumerStep [DecidableEq ι] (s : State α ι) : Option (State α ι) :=
  match s.consumer with
  | .looping => some { s with consumer := if s.stopRequested then .ended else .registering }
  | .registering =>
    -- The callback of a stop that has been requested already runs here.
    some (if s.stopRequested then { s with consumer := .locking }.notify
      else { s with registered := true, consumer := .locking })
  | .locking =>
    if s.mutex = none then some { s with mutex := some .consumer, consumer := .testing } else none
  | .testing => some { s with consumer := if s.queue.isEmpty then .waiting else .taking }
  | .waiting => some { s with mutex := none, consumer := .blocked }
  | .blocked => none
  | .notified =>
    if s.mutex = none then some { s with mutex := some .consumer, consumer := .checking } else none
  | .checking =>
    some { s with consumer := if s.stopRequested || s.cease then .unlocking none else .testing }
  | .taking =>
    match s.queue with
    | [] => none
    | value :: rest => some { s with queue := rest, consumer := .unlocking (some value) }
  | .unlocking outcome => some { s with mutex := none, consumer := .leaving outcome }
  | .leaving outcome =>
    -- It waits for a callback that is running.
    if s.stopper = .notifying then none
    else some { s with
      registered := false
      consumer := if outcome.isSome then .looping else .ended }
  | .ended => none

/-- The next step of a producer that has called. -/
def producerStep [DecidableEq ι] (s : State α ι) (i : ι) : Option (State α ι) :=
  match s.producers i with
  | .idle => none
  | .locking value =>
    if s.mutex = none then
      some { s with
        mutex := some (.producer i), producers := Function.update s.producers i (.pushing value) }
    else none
  | .pushing value =>
    some { s with
      queue := s.queue ++ [value], producers := Function.update s.producers i .unlocking }
  | .unlocking =>
    some { s with mutex := none, producers := Function.update s.producers i .notifying }
  | .notifying => some { s with producers := Function.update s.producers i .idle }.notify

/-- The next step of `request_stop`. It calls the callback if there is one. -/
def stopperStep (s : State α ι) : Option (State α ι) :=
  match s.stopper with
  | .ready =>
    some { s with
      stopRequested := true, stopper := if s.registered then .notifying else .returned }
  | .notifying => some { s with stopper := .returned }.notify
  | .returned => none

/-- A step, or `none` where the thread cannot go on: it waits for the mutex, is blocked in the wait,
or is not in a call. -/
def step [DecidableEq ι] (s : State α ι) : Action α ι → Option (State α ι)
  | .consumer => consumerStep s
  | .wake =>
    match s.consumer with
    | .blocked => some { s with consumer := .notified }
    | _ => none
  | .call i value =>
    match s.producers i with
    | .idle => some { s with producers := Function.update s.producers i (.locking value) }
    | _ => none
  | .producer i => producerStep s i
  | .stopper => stopperStep s

/-- An empty queue, and nobody in it. -/
def start : State α ι := ⟨[], none, false, false, false, .looping, fun _ => .idle, .ready⟩

/-! ### What can go wrong -/

/-- The other threads have completed their calls. -/
structure Alone (s : State α ι) : Prop where
  producers : ∀ i, s.producers i = .idle
  stopper : s.stopper ≠ .notifying

/-- The consumer is blocked, nobody will wake it, and it has something to do. -/
structure Stuck (s : State α ι) : Prop where
  blocked : s.consumer = .blocked
  alone : Alone s
  needed : s.queue ≠ [] ∨ s.stopRequested = true

/-- The step is not the beginning of a wait for a notification of the stop that has been given
already. There are two ways to such a step. The stop is requested behind the test of
`while (!st.stop_requested())` and in front of `please_stop`, whose constructor then runs the
callback at once; or the callback runs between `m_queue.empty()` and the wait. Either time
`notify_all` finds nobody, and the wait begins without another look at the stop token. -/
def InTime (s : State α ι) (a : Action α ι) : Prop :=
  a = .consumer → s.consumer = .waiting → s.stopRequested = true → ¬Alone s

/-! ### What every run keeps -/

/-- The consumer has the mutex. -/
def Consumer.Holds : Consumer α → Prop
  | .testing | .waiting | .checking | .taking | .unlocking _ => True
  | _ => False

/-- The consumer is in `pop`, behind the constructor of `please_stop`. -/
def Consumer.Inside : Consumer α → Prop
  | .looping | .registering | .ended => False
  | _ => True

/-- The producer has the mutex. -/
def Producer.Holds : Producer α → Prop
  | .pushing _ | .unlocking => True
  | _ => False

/-- The producer has pushed its value and is to notify. -/
def Producer.Notifies : Producer α → Prop
  | .unlocking | .notifying => True
  | _ => False

/-- What the fields of a state have to do with each other. -/
structure Consistent (s : State α ι) : Prop where
  consumer : s.mutex = some .consumer ↔ s.consumer.Holds
  producer : ∀ i, s.mutex = some (.producer i) ↔ (s.producers i).Holds
  empty : s.consumer = .waiting → s.queue = []
  /-- A consumer that waits for what has been pushed will be notified. -/
  attended : s.consumer = .blocked → s.queue ≠ [] → ∃ i, (s.producers i).Notifies
  registered : s.consumer.Inside → s.registered = true ∨ s.stopRequested = true
  requested : s.stopRequested = true ↔ s.stopper ≠ .ready

variable {s s' : State α ι}

theorem consistent_start : Consistent (start : State α ι) := by
  constructor <;> simp [start, Consumer.Holds, Producer.Holds, Consumer.Inside]

/-- The consumer moves: what it has to see to. -/
theorem Consistent.consumerMoves (h : Consistent s) {queue : List α} {mutex : Option (Owner ι)}
    {registered : Bool} {c : Consumer α} (hconsumer : mutex = some .consumer ↔ c.Holds)
    (hproducer : ∀ i, mutex = some (.producer i) ↔ s.mutex = some (.producer i))
    (hempty : c = .waiting ∨ c = .blocked → queue = [])
    (hregistered : c.Inside → registered = true ∨ s.stopRequested = true) :
    Consistent { s with queue, mutex, registered, consumer := c } where
  consumer := hconsumer
  producer i := (hproducer i).trans (h.producer i)
  empty hc := hempty (.inl hc)
  attended hc hqueue := absurd (hempty (.inr hc)) hqueue
  registered := hregistered
  requested := h.requested

theorem Consumer.notify_ne_blocked (c : Consumer α) : c.notify ≠ .blocked := by
  cases c <;> simp [Consumer.notify]

/-- A consumer that is notified, if it is blocked. -/
theorem Consistent.notify (h : Consistent s) : Consistent s.notify := by
  have hholds : s.consumer.notify.Holds ↔ s.consumer.Holds := by
    cases s.consumer <;> simp [Consumer.notify, Consumer.Holds]
  have hinside : s.consumer.notify.Inside ↔ s.consumer.Inside := by
    cases s.consumer <;> simp [Consumer.notify, Consumer.Inside]
  have hwaiting : s.consumer.notify = .waiting → s.consumer = .waiting := by
    cases s.consumer <;> simp [Consumer.notify]
  refine h.consumerMoves (h.consumer.trans hholds.symm) (fun _ => Iff.rfl) ?_
    fun hc => h.registered (hinside.mp hc)
  rintro (hc | hc)
  · exact h.empty (hwaiting hc)
  · exact absurd hc (Consumer.notify_ne_blocked _)

theorem Consistent.consumerStep [DecidableEq ι] (h : Consistent s)
    (hstep : consumerStep s = some s') : Consistent s' := by
  have hholds := h.consumer
  have hinside := h.registered
  cases hc : s.consumer <;> rw [ConcurrentQueue.consumerStep, hc] at hstep <;>
    rw [hc] at hholds hinside
  case looping =>
    obtain rfl := Option.some.inj hstep
    refine h.consumerMoves (hholds.trans ?_) (fun _ => Iff.rfl) ?_ ?_ <;>
      split <;> simp [Consumer.Holds, Consumer.Inside]
  case registering =>
    obtain rfl := Option.some.inj hstep
    split
    · rename_i hstop
      exact h.consumerMoves hholds (fun _ => Iff.rfl) (by simp [Consumer.notify])
        fun _ => .inr hstop
    · exact h.consumerMoves hholds (fun _ => Iff.rfl) (by simp) fun _ => .inl rfl
  case locking =>
    obtain ⟨hmutex, hstep⟩ := Option.ite_none_right_eq_some.mp hstep
    obtain rfl := Option.some.inj hstep
    exact h.consumerMoves (by simp [Consumer.Holds]) (by simp [hmutex]) (by simp) hinside
  case testing =>
    obtain rfl := Option.some.inj hstep
    refine h.consumerMoves (hholds.trans ?_) (fun _ => Iff.rfl) ?_ fun _ => hinside trivial
    · split <;> simp [Consumer.Holds]
    · split <;> simp_all
  case waiting =>
    obtain rfl := Option.some.inj hstep
    have hmutex : s.mutex = some .consumer := hholds.mpr trivial
    exact h.consumerMoves (by simp [Consumer.Holds]) (by simp [hmutex]) (fun _ => h.empty hc)
      hinside
  case blocked => cases hstep
  case notified =>
    obtain ⟨hmutex, hstep⟩ := Option.ite_none_right_eq_some.mp hstep
    obtain rfl := Option.some.inj hstep
    exact h.consumerMoves (by simp [Consumer.Holds]) (by simp [hmutex]) (by simp) hinside
  case checking =>
    obtain rfl := Option.some.inj hstep
    refine h.consumerMoves (hholds.trans ?_) (fun _ => Iff.rfl) ?_ fun _ => hinside trivial <;>
      split <;> simp [Consumer.Holds]
  case taking =>
    cases hqueue : s.queue with
    | nil =>
      rw [hqueue] at hstep
      cases hstep
    | cons value rest =>
      rw [hqueue] at hstep
      obtain rfl := Option.some.inj hstep
      exact h.consumerMoves hholds (fun _ => Iff.rfl) (by simp) hinside
  case unlocking outcome =>
    obtain rfl := Option.some.inj hstep
    have hmutex : s.mutex = some .consumer := hholds.mpr trivial
    exact h.consumerMoves (by simp [Consumer.Holds]) (by simp [hmutex]) (by simp) hinside
  case leaving outcome =>
    obtain ⟨-, hstep⟩ := Option.ite_none_left_eq_some.mp hstep
    obtain rfl := Option.some.inj hstep
    refine h.consumerMoves (hholds.trans ?_) (fun _ => Iff.rfl) ?_ ?_ <;>
      split <;> simp [Consumer.Holds, Consumer.Inside]
  case ended => cases hstep

/-- A producer moves: what it has to see to. -/
theorem Consistent.producerMoves [DecidableEq ι] (h : Consistent s) (i : ι) {queue : List α}
    {mutex : Option (Owner ι)} {p : Producer α}
    (hconsumer : mutex = some .consumer ↔ s.consumer.Holds)
    (hproducer : mutex = some (.producer i) ↔ p.Holds)
    (hothers : ∀ j ≠ i, mutex = some (.producer j) ↔ s.mutex = some (.producer j))
    (hqueue : queue = s.queue ∨ p.Notifies ∧ s.consumer ≠ .waiting)
    (hnotifies : (s.producers i).Notifies → p.Notifies ∨ s.consumer ≠ .blocked) :
    Consistent { s with queue, mutex, producers := Function.update s.producers i p } where
  consumer := hconsumer
  producer j := by
    show mutex = some (.producer j) ↔ (Function.update s.producers i p j).Holds
    by_cases hj : j = i
    · subst hj
      rw [Function.update_self]
      exact hproducer
    · rw [Function.update_of_ne hj]
      exact (hothers j hj).trans (h.producer j)
  empty hc := by
    rcases hqueue with rfl | ⟨-, hne⟩
    · exact h.empty hc
    · exact absurd hc hne
  attended hc hne := by
    show ∃ j, (Function.update s.producers i p j).Notifies
    by_cases hp : p.Notifies
    · exact ⟨i, by rwa [Function.update_self]⟩
    · rcases hqueue with rfl | ⟨hp', -⟩
      · obtain ⟨j, hj⟩ := h.attended hc hne
        have hji : j ≠ i := by
          rintro rfl
          exact (hnotifies hj).elim hp fun hblocked => hblocked hc
        exact ⟨j, by rwa [Function.update_of_ne hji]⟩
      · exact absurd hp' hp
  registered := h.registered
  requested := h.requested

theorem Consistent.producerStep [DecidableEq ι] (h : Consistent s) {i : ι}
    (hstep : producerStep s i = some s') : Consistent s' := by
  have hholds := h.producer i
  have hmutexOf (hp : (s.producers i).Holds) : ¬s.consumer.Holds := by
    rw [← h.consumer, hholds.mpr hp]
    simp
  cases hp : s.producers i <;> rw [ConcurrentQueue.producerStep, hp] at hstep <;>
    rw [hp] at hholds hmutexOf
  case idle => cases hstep
  case locking value =>
    obtain ⟨hmutex, hstep⟩ := Option.ite_none_right_eq_some.mp hstep
    obtain rfl := Option.some.inj hstep
    have hconsumer := h.consumer
    rw [hmutex] at hconsumer
    exact h.producerMoves i (by simpa using hconsumer) (by simp [Producer.Holds])
      (by simp [hmutex, eq_comm]) (.inl rfl) (by simp [hp, Producer.Notifies])
  case pushing value =>
    obtain rfl := Option.some.inj hstep
    have hwaiting : s.consumer ≠ .waiting := fun hc => hmutexOf trivial (by rw [hc]; trivial)
    exact h.producerMoves i h.consumer hholds (fun _ _ => Iff.rfl) (.inr ⟨trivial, hwaiting⟩)
      fun _ => .inl trivial
  case unlocking =>
    obtain rfl := Option.some.inj hstep
    have hmutex := hholds.mpr trivial
    exact h.producerMoves i (by simpa using hmutexOf trivial) (by simp [Producer.Holds])
      (by simp [hmutex, eq_comm]) (.inl rfl) fun _ => .inl trivial
  case notifying =>
    obtain rfl := Option.some.inj hstep
    exact h.notify.producerMoves i h.notify.consumer hholds (fun _ _ => Iff.rfl) (.inl rfl)
      fun _ => .inr (Consumer.notify_ne_blocked _)

theorem Consistent.stopperStep (h : Consistent s) (hstep : stopperStep s = some s') :
    Consistent s' := by
  rw [ConcurrentQueue.stopperStep] at hstep
  split at hstep
  · obtain rfl := Option.some.inj hstep
    refine ⟨h.consumer, h.producer, h.empty, h.attended, fun _ => .inr rfl, ?_⟩
    simp only [true_iff]
    split <;> simp
  · rename_i hstopper
    obtain rfl := Option.some.inj hstep
    refine Consistent.notify ⟨h.consumer, h.producer, h.empty, h.attended, h.registered, ?_⟩
    simpa [hstopper] using h.requested
  · cases hstep

/-- **A step** of any of the threads. -/
theorem Consistent.step [DecidableEq ι] {a : Action α ι} (h : Consistent s)
    (hstep : step s a = some s') : Consistent s' := by
  cases a with
  | consumer => exact h.consumerStep hstep
  | wake =>
    rw [ConcurrentQueue.step] at hstep
    split at hstep
    · rename_i hc
      obtain rfl := Option.some.inj hstep
      have hnotify : s.notify = { s with consumer := .notified } := by
        rw [State.notify, hc]
        rfl
      exact hnotify ▸ h.notify
    · cases hstep
  | call i value =>
    rw [ConcurrentQueue.step] at hstep
    split at hstep
    · rename_i hp
      obtain rfl := Option.some.inj hstep
      have hholds := h.producer i
      rw [hp] at hholds
      exact h.producerMoves i h.consumer hholds (fun _ _ => Iff.rfl) (.inl rfl)
        (by simp [hp, Producer.Notifies])
    · cases hstep
  | producer i => exact h.producerStep hstep
  | stopper => exact h.stopperStep hstep

/-- **Every run** is consistent. -/
theorem consistent_run [DecidableEq ι] {as : List (Action α ι)}
    (hrun : run step start as = some s) : Consistent s :=
  Keeps.run (fun _ _ _ h hstep => h.step hstep) consistent_start hrun

/-! ### A stop that nobody is told of -/

/-- A consumer that is blocked when a stop is requested will be notified of it. -/
def Told (s : State α ι) : Prop :=
  s.consumer = .blocked → s.stopRequested = true → ¬Alone s

/-- Nobody is stuck who is told. -/
theorem Consistent.not_stuck (h : Consistent s) (htold : Told s) : ¬Stuck s := by
  rintro ⟨hblocked, halone, hqueue | hstop⟩
  · obtain ⟨i, hi⟩ := h.attended hblocked hqueue
    rw [halone.producers i] at hi
    exact hi
  · exact htold hblocked hstop halone

/-- The consumer blocks where it waits. -/
theorem eq_waiting_of_blocked [DecidableEq ι] (hstep : consumerStep s = some s')
    (hblocked : s'.consumer = .blocked) :
    s.consumer = .waiting ∧ s' = { s with mutex := none, consumer := .blocked } := by
  cases hc : s.consumer <;> rw [ConcurrentQueue.consumerStep, hc] at hstep
  case waiting => exact ⟨rfl, (Option.some.inj hstep).symm⟩
  case blocked | ended => cases hstep
  case locking | notified =>
    obtain ⟨-, hstep⟩ := Option.ite_none_right_eq_some.mp hstep
    obtain rfl := Option.some.inj hstep
    cases hblocked
  case leaving outcome =>
    obtain ⟨-, hstep⟩ := Option.ite_none_left_eq_some.mp hstep
    obtain rfl := Option.some.inj hstep
    cases outcome <;> cases hblocked
  case taking =>
    cases hqueue : s.queue with
    | nil =>
      rw [hqueue] at hstep
      cases hstep
    | cons value rest =>
      rw [hqueue] at hstep
      obtain rfl := Option.some.inj hstep
      cases hblocked
  all_goals
    obtain rfl := Option.some.inj hstep
    grind [State.notify, Consumer.notify]

/-- What a producer does in a call, unless it notifies, leaves it there. -/
theorem busy_or_notified [DecidableEq ι] {i : ι} (hstep : producerStep s i = some s') :
    s'.producers i ≠ .idle ∨ s'.consumer ≠ .blocked := by
  cases hp : s.producers i <;> rw [ConcurrentQueue.producerStep, hp] at hstep
  case idle => cases hstep
  case notifying =>
    obtain rfl := Option.some.inj hstep
    exact .inr (Consumer.notify_ne_blocked _)
  case locking value =>
    obtain ⟨-, hstep⟩ := Option.ite_none_right_eq_some.mp hstep
    obtain rfl := Option.some.inj hstep
    exact .inl (by simp)
  all_goals
    obtain rfl := Option.some.inj hstep
    exact .inl (by simp)

/-- A stop that is requested while the consumer is blocked finds its callback. -/
theorem Consistent.notifying_or_notified (h : Consistent s)
    (hstep : ConcurrentQueue.stopperStep s = some s') :
    s'.stopper = .notifying ∨ s'.consumer ≠ .blocked := by
  cases hstopper : s.stopper <;> rw [ConcurrentQueue.stopperStep, hstopper] at hstep
  case ready =>
    obtain rfl := Option.some.inj hstep
    by_cases hblocked : s.consumer = .blocked
    · have hstop : ¬s.stopRequested = true := by simp [h.requested, hstopper]
      have hregistered := (h.registered (by rw [hblocked]; trivial)).resolve_right hstop
      exact .inl (if_pos hregistered)
    · exact .inr hblocked
  case notifying =>
    obtain rfl := Option.some.inj hstep
    exact .inr (Consumer.notify_ne_blocked _)
  case returned => cases hstep

/-- **A step in time** leaves a consumer that is told. -/
theorem Consistent.told_step [DecidableEq ι] {a : Action α ι} (h : Consistent s)
    (htime : InTime s a) (hstep : ConcurrentQueue.step s a = some s') : Told s' := by
  intro hblocked hstop halone
  cases a with
  | consumer =>
    obtain ⟨hwaiting, rfl⟩ := eq_waiting_of_blocked hstep hblocked
    exact htime rfl hwaiting hstop ⟨halone.producers, halone.stopper⟩
  | wake =>
    rw [ConcurrentQueue.step] at hstep
    split at hstep
    · obtain rfl := Option.some.inj hstep
      cases hblocked
    · cases hstep
  | call i value =>
    rw [ConcurrentQueue.step] at hstep
    split at hstep
    · obtain rfl := Option.some.inj hstep
      have hidle := halone.producers i
      simp at hidle
    · cases hstep
  | producer i => exact (busy_or_notified hstep).elim (· (halone.producers i)) (· hblocked)
  | stopper => exact (h.notifying_or_notified hstep).elim halone.stopper (· hblocked)

/-- **Runs that leave nobody waiting for ever**: those in which no wait begins after the stop has
been requested and all who could notify are done. -/
theorem along_not_stuck_iff [DecidableEq ι] (as : List (Action α ι)) :
    Along step (fun s => ¬Stuck s) start as ↔ Meets step InTime start as := by
  refine along_iff_meets (I := fun s => Consistent s ∧ Told s) ?_ ?_ ?_
    ⟨consistent_start, by rintro ⟨⟩⟩
  · intro s a s' h htime hstep
    exact ⟨h.1.step hstep, h.1.told_step htime hstep⟩
  · rintro s a s' - hstep hstuck rfl hwaiting hstop halone
    simp only [step, ConcurrentQueue.consumerStep, hwaiting] at hstep
    obtain rfl := Option.some.inj hstep
    exact hstuck ⟨rfl, ⟨halone.producers, halone.stopper⟩, .inr hstop⟩
  · intro s h
    exact h.1.not_stuck h.2

/-- **A stop that nobody is told of**: it is requested before the callback is registered, or the
callback runs between the test of the queue and the wait. -/
theorem stuck_reachable :
    (∃ s : State UInt8 ℕ, run step start [.consumer, .stopper, .consumer, .consumer, .consumer,
      .consumer] = some s ∧ Stuck s) ∧
    ∃ s : State UInt8 ℕ, run step start [.consumer, .consumer, .consumer, .consumer, .stopper,
      .stopper, .consumer] = some s ∧ Stuck s :=
  ⟨⟨_, rfl, rfl, ⟨fun _ => rfl, by decide⟩, .inr rfl⟩,
    ⟨_, rfl, rfl, ⟨fun _ => rfl, by decide⟩, .inr rfl⟩⟩

end ConcurrentQueue

end Bootpd
