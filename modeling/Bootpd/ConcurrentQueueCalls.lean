import Bootpd.Lib.SharedObject

/-!
# `concurrent_queue`: any threads, any calls

Any number of threads call any of the methods at any time, with any stop tokens. An action is one
atomic step of one of them, and what the queue is for is said by a run in which every method is one
step: the methods of the queue are those of a list that grows at one end and shrinks at the other.

## Waking

A thread may wake from the wait at any moment, so the notifications do not appear: they make a
thread wake that could have woken anyway. A run here may therefore do more than a run of the
program. What holds of every run here holds of those of the program; whether a thread gets on at
all is the business of `ConcurrentQueue`. `request_stop` is a call like the others, and what it does
is to be seen by the threads that look at its token.

`m_cease` is read as the source does; only the destructor sets it, and no thread uses the queue
then.

## The point of a call

A call takes effect where it changes the queue, or where it sees what it will return. At that moment
its result is settled, and what follows is the unlocking and the return. `Lib.SharedObject` makes
of this that every run has an order of its calls in which they are atomic,
that a call which returns before another begins stands in front of it, and that the queue is left
as the run leaves it.

## Main definitions

* `QueueCalls.Call`, `QueueCalls.Point` — the methods, and where a thread is in one
* `QueueCalls.Performs` — what a method does to the list and returns, at once

## Main results

* `QueueCalls.excludes_of_run` — the mutex excludes, and `front` is not called on an empty queue
* `QueueCalls.linearizable_run` — every run is one of a first-in-first-out queue whose methods are
  atomic
* `QueueCalls.received_subperm_sent` — between any threads, nothing is invented or comes twice
* `QueueCalls.received_prefix_sent` — from one producer to one consumer, in order
-/

namespace Bootpd

open Transition SharedObject

namespace QueueCalls

variable {α τ ι : Type}

/-! ### The methods -/

/-- A call of a method, or of `request_stop` for a stop token. -/
inductive Call (α τ : Type) where
  /-- `push` and `emplace`. -/
  | push (value : α)
  /-- Both `pop` without a stop token. -/
  | pop
  /-- Both `pop` with a stop token, and with a duration or without. -/
  | popUntil (st : τ) (dur : Bool)
  /-- Both `try_pop`. -/
  | tryPop
  | empty
  | requestStop (st : τ)
deriving DecidableEq

/-- How a call ends. -/
inductive Result (α : Type) where
  | void
  | value (v : α)
  /-- `try_pop` finds nothing. -/
  | nothing
  | isEmpty (b : Bool)
  /-- An exception: "stop requested". -/
  | stopRequested
  /-- An exception: "queue timed out". -/
  | timedOut
deriving DecidableEq

/-- The calls that wait. -/
def Call.Waits : Call α τ → Prop
  | .pop | .popUntil .. => True
  | _ => False

/-- The calls that take a value. -/
def Call.Takes : Call α τ → Prop
  | .pop | .popUntil .. | .tryPop => True
  | _ => False

instance (c : Call α τ) : Decidable c.Takes :=
  match c with
  | .pop | .popUntil .. | .tryPop => .isTrue trivial
  | .push _ | .empty | .requestStop _ => .isFalse id

theorem Call.Waits.takes {c : Call α τ} (h : c.Waits) : c.Takes := by
  cases c <;> trivial

/-! ### The threads -/

/-- Where a thread is, before the step that is named. -/
inductive Point (α τ : Type) where
  | idle
  /-- In front of the lock. `request_stop` takes none. -/
  | locking (c : Call α τ)
  /-- Behind the lock, or at the beginning of the loop. -/
  | testing (c : Call α τ)
  | waiting (c : Call α τ)
  /-- In the wait. -/
  | blocked (c : Call α τ)
  /-- In the wait, on its way to the mutex. -/
  | notified (c : Call α τ) (timedOut : Bool)
  | checking (c : Call α τ) (timedOut : Bool)
  | taking (c : Call α τ)
  | unlocking (c : Call α τ) (r : Result α)
  /-- Behind the lock: `notify_one`, the callbacks, the destructor of `please_stop`. -/
  | leaving (c : Call α τ) (r : Result α)
deriving DecidableEq

structure State (α τ ι : Type) where
  queue : List α
  mutex : Option ι
  cease : Bool
  /-- `st.stop_requested()` -/
  requested : τ → Bool
  threads : ι → Point α τ

/-- One step of one thread. -/
inductive Action (α τ ι : Type) where
  | call (i : ι) (c : Call α τ)
  | thread (i : ι)
  /-- The wait ends, by a notification, by a time-out or for no reason. -/
  | wake (i : ι) (timedOut : Bool)
deriving DecidableEq

variable [DecidableEq ι] [DecidableEq τ]

/-- A thread moves. -/
def State.put (s : State α τ ι) (i : ι) (p : Point α τ) : State α τ ι :=
  { s with threads := Function.update s.threads i p }

/-- The beginning of the loop, with the mutex. -/
def test (s : State α τ ι) (i : ι) : Call α τ → Option (State α τ ι)
  | .push value =>
    some ({ s with queue := s.queue ++ [value] }.put i (.unlocking (.push value) .void))
  | .pop => some (s.put i (if s.queue.isEmpty then .waiting .pop else .taking .pop))
  | .popUntil st dur =>
    some (s.put i (if s.queue.isEmpty then .waiting (.popUntil st dur)
      else .taking (.popUntil st dur)))
  | .tryPop =>
    some (s.put i (if s.queue.isEmpty then .unlocking .tryPop .nothing else .taking .tryPop))
  | .empty => some (s.put i (.unlocking .empty (.isEmpty s.queue.isEmpty)))
  | .requestStop _ => none

/-- Behind the wait, with the mutex. -/
def check (s : State α τ ι) (timedOut : Bool) : Call α τ → Point α τ
  | .popUntil st dur =>
    if dur && timedOut then .unlocking (.popUntil st dur) .timedOut
    else if s.requested st || s.cease then .unlocking (.popUntil st dur) .stopRequested
    else .testing (.popUntil st dur)
  | c => if s.cease then .unlocking c .stopRequested else .testing c

/-- The next step of a thread. -/
def threadStep (s : State α τ ι) (i : ι) : Option (State α τ ι) :=
  match s.threads i with
  | .idle => none
  | .locking (.requestStop st) =>
    some ({ s with requested := Function.update s.requested st true }.put i
      (.leaving (.requestStop st) .void))
  | .locking c =>
    if s.mutex = none then some ({ s with mutex := some i }.put i (.testing c)) else none
  | .testing c => test s i c
  | .waiting c => some ({ s with mutex := none }.put i (.blocked c))
  | .blocked _ => none
  | .notified c timedOut =>
    if s.mutex = none then some ({ s with mutex := some i }.put i (.checking c timedOut)) else none
  | .checking c timedOut => some (s.put i (check s timedOut c))
  | .taking c =>
    match s.queue with
    | [] => none
    | value :: rest => some ({ s with queue := rest }.put i (.unlocking c (.value value)))
  | .unlocking c r => some ({ s with mutex := none }.put i (.leaving c r))
  | .leaving _ _ => some (s.put i .idle)

def step (s : State α τ ι) : Action α τ ι → Option (State α τ ι)
  | .call i c =>
    match s.threads i with
    | .idle => some (s.put i (.locking c))
    | _ => none
  | .thread i => threadStep s i
  | .wake i timedOut =>
    match s.threads i with
    | .blocked c => some (s.put i (.notified c timedOut))
    | _ => none

/-- An empty queue, and nobody in it. -/
def start : State α τ ι := ⟨[], none, false, fun _ => false, fun _ => .idle⟩

/-- What is seen of a step: calls and results. -/
def observe (s : State α τ ι) : Action α τ ι → Option (Event ι (Call α τ) (Result α))
  | .call i c => some (.call i c)
  | .thread i =>
    match s.threads i with
    | .leaving _ r => some (.ret i r)
    | _ => none
  | .wake .. => none

/-- What a step can do: one case for each way an action goes. -/
inductive Steps (s : State α τ ι) : Action α τ ι → State α τ ι → Prop where
  | calls {i : ι} (c : Call α τ) (hi : s.threads i = .idle) :
      Steps s (.call i c) (s.put i (.locking c))
  | wakes {i : ι} {c : Call α τ} (timedOut : Bool) (hi : s.threads i = .blocked c) :
      Steps s (.wake i timedOut) (s.put i (.notified c timedOut))
  | requests {i : ι} {st : τ} (hi : s.threads i = .locking (.requestStop st)) :
      Steps s (.thread i) ({ s with requested := Function.update s.requested st true }.put i
        (.leaving (.requestStop st) .void))
  | locks {i : ι} {c : Call α τ} (hi : s.threads i = .locking c) (hmutex : s.mutex = none) :
      Steps s (.thread i) ({ s with mutex := some i }.put i (.testing c))
  | pushes {i : ι} {value : α} (hi : s.threads i = .testing (.push value)) :
      Steps s (.thread i)
        ({ s with queue := s.queue ++ [value] }.put i (.unlocking (.push value) .void))
  | waits {i : ι} {c : Call α τ} (hi : s.threads i = .testing c) (hc : c.Waits) :
      Steps s (.thread i) (s.put i (.waiting c))
  | finds {i : ι} {c : Call α τ} (hi : s.threads i = .testing c) (hc : c.Takes)
      (hqueue : s.queue ≠ []) : Steps s (.thread i) (s.put i (.taking c))
  | fails {i : ι} (hi : s.threads i = .testing .tryPop) (hqueue : s.queue = []) :
      Steps s (.thread i) (s.put i (.unlocking .tryPop .nothing))
  | tells {i : ι} (hi : s.threads i = .testing .empty) :
      Steps s (.thread i) (s.put i (.unlocking .empty (.isEmpty s.queue.isEmpty)))
  | blocks {i : ι} {c : Call α τ} (hi : s.threads i = .waiting c) :
      Steps s (.thread i) ({ s with mutex := none }.put i (.blocked c))
  | relocks {i : ι} {c : Call α τ} {timedOut : Bool} (hi : s.threads i = .notified c timedOut)
      (hmutex : s.mutex = none) :
      Steps s (.thread i) ({ s with mutex := some i }.put i (.checking c timedOut))
  | timesOut {i : ι} {st : τ} (hi : s.threads i = .checking (.popUntil st true) true) :
      Steps s (.thread i) (s.put i (.unlocking (.popUntil st true) .timedOut))
  | stops {i : ι} {st : τ} {dur timedOut : Bool}
      (hi : s.threads i = .checking (.popUntil st dur) timedOut)
      (hst : s.requested st = true) :
      Steps s (.thread i) (s.put i (.unlocking (.popUntil st dur) .stopRequested))
  | ceases {i : ι} {c : Call α τ} {timedOut : Bool} (hi : s.threads i = .checking c timedOut)
      (hcease : s.cease = true) : Steps s (.thread i) (s.put i (.unlocking c .stopRequested))
  | resumes {i : ι} {c : Call α τ} {timedOut : Bool} (hi : s.threads i = .checking c timedOut) :
      Steps s (.thread i) (s.put i (.testing c))
  | takes {i : ι} {c : Call α τ} {value : α} {rest : List α} (hi : s.threads i = .taking c)
      (hqueue : s.queue = value :: rest) :
      Steps s (.thread i) ({ s with queue := rest }.put i (.unlocking c (.value value)))
  | unlocks {i : ι} {c : Call α τ} {r : Result α} (hi : s.threads i = .unlocking c r) :
      Steps s (.thread i) ({ s with mutex := none }.put i (.leaving c r))
  | returns {i : ι} {c : Call α τ} {r : Result α} (hi : s.threads i = .leaving c r) :
      Steps s (.thread i) (s.put i .idle)

variable {s s' : State α τ ι} {i : ι} {p : Point α τ}

theorem steps_of_test {c : Call α τ} (hi : s.threads i = .testing c)
    (hstep : test s i c = some s') : Steps s (.thread i) s' := by
  by_cases hqueue : s.queue = []
  all_goals
    cases c with
    | push value =>
      obtain rfl := Option.some.inj hstep
      exact .pushes hi
    | empty =>
      obtain rfl := Option.some.inj hstep
      exact .tells hi
    | requestStop st => cases hstep
    | pop | popUntil | tryPop =>
      simp only [test, List.isEmpty_iff, hqueue, if_true, if_false, Option.some.injEq] at hstep
      subst hstep
      first
      | exact .finds hi trivial hqueue
      | exact .waits hi trivial
      | exact .fails hi hqueue

theorem steps_of_check {c : Call α τ} {timedOut : Bool}
    (hi : s.threads i = .checking c timedOut) :
    Steps s (.thread i) (s.put i (check s timedOut c)) := by
  by_cases hcease : s.cease = true
  all_goals
    cases c with
    | popUntil st dur =>
      rw [check]
      split_ifs with htime hstop
      · obtain ⟨rfl, rfl⟩ := Bool.and_eq_true_iff.mp htime
        exact .timesOut hi
      · rcases Bool.or_eq_true_iff.mp hstop with hst | hcease
        · exact .stops hi hst
        · exact .ceases hi hcease
      · exact .resumes hi
    | push | pop | tryPop | empty | requestStop =>
      simp only [check, hcease, if_true, if_false, Bool.false_eq_true]
      first
      | exact .ceases hi hcease
      | exact .resumes hi

/-- **The cases of a step.** -/
theorem steps_of_step {a : Action α τ ι} (hstep : step s a = some s') : Steps s a s' := by
  cases a with
  | call i c =>
    rw [step] at hstep
    split at hstep
    · obtain rfl := Option.some.inj hstep
      exact .calls c ‹_›
    · cases hstep
  | wake i timedOut =>
    rw [step] at hstep
    split at hstep
    · obtain rfl := Option.some.inj hstep
      exact .wakes timedOut ‹_›
    · cases hstep
  | thread i =>
    rw [step, threadStep] at hstep
    split at hstep
    · cases hstep
    · obtain rfl := Option.some.inj hstep
      exact .requests ‹_›
    · obtain ⟨hmutex, hstep⟩ := Option.ite_none_right_eq_some.mp hstep
      obtain rfl := Option.some.inj hstep
      exact .locks ‹_› hmutex
    · exact steps_of_test ‹_› hstep
    · obtain rfl := Option.some.inj hstep
      exact .blocks ‹_›
    · cases hstep
    · obtain ⟨hmutex, hstep⟩ := Option.ite_none_right_eq_some.mp hstep
      obtain rfl := Option.some.inj hstep
      exact .relocks ‹_› hmutex
    · obtain rfl := Option.some.inj hstep
      exact steps_of_check ‹_›
    · split at hstep
      · cases hstep
      · obtain rfl := Option.some.inj hstep
        exact .takes ‹_› ‹_›
    · obtain rfl := Option.some.inj hstep
      exact .unlocks ‹_›
    · obtain rfl := Option.some.inj hstep
      exact .returns ‹_›

/-! ### The mutex -/

/-- The thread has the mutex. -/
def Point.Holds : Point α τ → Prop
  | .testing _ | .waiting _ | .checking .. | .taking _ | .unlocking .. => True
  | _ => False

/-- The call can be where it is, with this queue. -/
def Point.Fits (queue : List α) : Point α τ → Prop
  | .waiting c | .blocked c | .notified c _ | .checking c _ => c.Waits
  | .taking c => c.Takes ∧ queue ≠ []
  | _ => True

/-- What the fields of a state have to do with each other. -/
structure Consistent (s : State α τ ι) : Prop where
  holds : ∀ i, s.mutex = some i ↔ (s.threads i).Holds
  fits : ∀ i, (s.threads i).Fits s.queue
  cease : s.cease = false

omit [DecidableEq τ] [DecidableEq ι] in
theorem consistent_start : Consistent (start : State α τ ι) := by
  constructor <;> simp [start, Point.Holds, Point.Fits]

omit [DecidableEq τ] [DecidableEq ι] in
/-- A thread that has not the mutex fits any queue. -/
theorem Point.Fits.of_not_holds {queue queue' : List α} (h : p.Fits queue) (hp : ¬p.Holds) :
    p.Fits queue' := by
  cases p with
  | taking c => exact absurd trivial hp
  | _ => exact h

omit [DecidableEq τ] in
/-- A thread moves: what it has to see to. -/
theorem Consistent.put (h : Consistent s) {queue : List α} {mutex : Option ι} {requested : τ → Bool}
    (hself : mutex = some i ↔ p.Holds)
    (hothers : ∀ j ≠ i, mutex = some j ↔ s.mutex = some j) (hfits : p.Fits queue)
    (hqueue : queue = s.queue ∨ s.mutex = some i) :
    Consistent (({ s with queue, mutex, requested } : State α τ ι).put i p) where
  holds j := by
    show mutex = some j ↔ (Function.update s.threads i p j).Holds
    by_cases hj : j = i
    · subst hj
      rwa [Function.update_self]
    · rw [Function.update_of_ne hj]
      exact (hothers j hj).trans (h.holds j)
  fits j := by
    show (Function.update s.threads i p j).Fits queue
    by_cases hj : j = i
    · subst hj
      rwa [Function.update_self]
    · rw [Function.update_of_ne hj]
      rcases hqueue with rfl | hmutex
      · exact h.fits j
      · refine (h.fits j).of_not_holds ?_
        rw [← h.holds j, hmutex, Option.some.injEq]
        exact fun hij => hj hij.symm
  cease := h.cease

/-- **A step** of any of the threads. -/
theorem Consistent.step {a : Action α τ ι} (h : Consistent s)
    (hstep : QueueCalls.step s a = some s') : Consistent s' := by
  -- a thread that moves without touching the mutex or the queue
  have hstays {i : ι} {p : Point α τ} (hholds : (s.threads i).Holds ↔ p.Holds)
      (hfits : p.Fits s.queue) : Consistent (s.put i p) :=
    h.put ((h.holds i).trans hholds) (fun _ _ => Iff.rfl) hfits (.inl rfl)
  have hmutex {i : ι} (hi : (s.threads i).Holds) : s.mutex = some i := (h.holds i).mpr hi
  have hfits := h.fits
  cases steps_of_step hstep with
  | calls c hi => exact hstays (by simp [hi, Point.Holds]) trivial
  | @wakes i c timedOut hi =>
    exact hstays (by simp [hi, Point.Holds]) (by simpa [hi, Point.Fits] using hfits i)
  | @requests i st hi =>
    exact h.put ((h.holds i).trans (by simp [hi, Point.Holds])) (fun _ _ => Iff.rfl) trivial
      (.inl rfl)
  | @locks i c hi hnone =>
    exact h.put (by simp [Point.Holds]) (by simp [hnone, eq_comm]) trivial (.inl rfl)
  | @pushes i value hi =>
    have hi' := hmutex (i := i) (by simp [hi, Point.Holds])
    exact h.put (by simp [hi', Point.Holds]) (fun _ _ => Iff.rfl) trivial (.inr hi')
  | waits hi hc => exact hstays (by simp [hi, Point.Holds]) hc
  | finds hi hc hqueue => exact hstays (by simp [hi, Point.Holds]) ⟨hc, hqueue⟩
  | fails hi hqueue => exact hstays (by simp [hi, Point.Holds]) trivial
  | tells hi => exact hstays (by simp [hi, Point.Holds]) trivial
  | @blocks i c hi =>
    have hi' := hmutex (i := i) (by simp [hi, Point.Holds])
    refine h.put (by simp [Point.Holds]) (by simp [hi', eq_comm]) ?_ (.inl rfl)
    simpa [hi, Point.Fits] using hfits i
  | @relocks i c timedOut hi hnone =>
    refine h.put (by simp [Point.Holds]) (by simp [hnone, eq_comm]) ?_ (.inl rfl)
    simpa [hi, Point.Fits] using hfits i
  | timesOut hi => exact hstays (by simp [hi, Point.Holds]) trivial
  | stops hi hst => exact hstays (by simp [hi, Point.Holds]) trivial
  | ceases hi hcease => exact hstays (by simp [hi, Point.Holds]) trivial
  | resumes hi => exact hstays (by simp [hi, Point.Holds]) trivial
  | @takes i c value rest hi hqueue =>
    have hi' := hmutex (i := i) (by simp [hi, Point.Holds])
    exact h.put (by simp [hi', Point.Holds]) (fun _ _ => Iff.rfl) trivial (.inr hi')
  | @unlocks i c r hi =>
    have hi' := hmutex (i := i) (by simp [hi, Point.Holds])
    exact h.put (by simp [Point.Holds]) (by simp [hi', eq_comm]) trivial (.inl rfl)
  | returns hi => exact hstays (by simp [hi, Point.Holds]) trivial

/-- **Every run** is consistent. -/
theorem consistent_of_run {as : List (Action α τ ι)} (hrun : run step start as = some s) :
    Consistent s :=
  Keeps.run (fun _ _ _ h hstep => h.step hstep) consistent_start hrun

/-- **The mutex excludes**: no two threads are behind the lock at once, and what takes a value
finds one, so that `front` and `pop` are never called on an empty queue. -/
theorem excludes_of_run {as : List (Action α τ ι)} (hrun : run step start as = some s) {i j : ι}
    (hi : (s.threads i).Holds) :
    ((s.threads j).Holds → j = i) ∧ ∀ c, s.threads i = .taking c → s.queue ≠ [] := by
  have h := consistent_of_run hrun
  refine ⟨fun hj => ?_, fun c hc => ?_⟩
  · have hmutex := (h.holds i).mpr hi
    rw [(h.holds j).mpr hj] at hmutex
    exact Option.some.inj hmutex
  · have hfits := h.fits i
    rw [hc] at hfits
    exact hfits.2

/-- A consumer that waits, and a producer that has what it waits for. -/
def handOver : List (Action UInt8 Unit Bool) :=
  [.call false .pop, .thread false, .thread false, .thread false, .call true (.push 7),
    .thread true, .thread true, .wake false false, .thread true, .thread false, .thread true,
    .thread false, .thread false, .thread false, .thread false, .thread false]

/-- A producer behind the lock. -/
theorem excludes_handOver : ∃ s : State UInt8 Unit Bool,
    run step start (handOver.take 6) = some s ∧ (s.threads true).Holds ∧
      ((s.threads false).Holds → false = true) ∧
        ∀ c, s.threads true = .taking c → s.queue ≠ [] :=
  ⟨_, rfl, trivial,
    excludes_of_run (show run step start (handOver.take 6) = some _ from rfl) trivial⟩

/-! ### The queue as an object -/

/-- A first-in-first-out queue, and the stop tokens. -/
structure Value (α τ : Type) where
  items : List α
  requested : τ → Bool

/-- What the calls do when they are made one at a time. -/
inductive Performs (q : Value α τ) : Call α τ → Result α → Value α τ → Prop where
  | push (value : α) : Performs q (.push value) .void { q with items := q.items ++ [value] }
  | take {c : Call α τ} {value : α} {rest : List α} (hc : c.Takes)
      (hitems : q.items = value :: rest) : Performs q c (.value value) { q with items := rest }
  | fail (hitems : q.items = []) : Performs q .tryPop .nothing q
  | empty : Performs q .empty (.isEmpty q.items.isEmpty) q
  | requestStop (st : τ) :
      Performs q (.requestStop st) .void
        { q with requested := Function.update q.requested st true }
  | stop {st : τ} (dur : Bool) (hst : q.requested st = true) :
      Performs q (.popUntil st dur) .stopRequested q
  | timeOut (st : τ) : Performs q (.popUntil st true) .timedOut q

/-- A call is performed where the queue or the token is changed or, if the call changes nothing,
where its result is known. -/
def Point.status : Point α τ → Status (Call α τ) (Result α)
  | .idle => .idle
  | .locking c | .testing c | .waiting c | .blocked c | .notified c _ | .checking c _
  | .taking c => .called c
  | .unlocking c r | .leaving c r => .performed c r

/-- What a state stands for. -/
def State.atomic (s : State α τ ι) : Atomic ι (Value α τ) (Call α τ) (Result α) :=
  ⟨⟨s.queue, s.requested⟩, fun i => (s.threads i).status⟩

omit [DecidableEq τ] in
/-- A thread moves. -/
theorem atomic_put (s : State α τ ι) (i : ι) (p : Point α τ) :
    (s.put i p).atomic =
      ⟨⟨s.queue, s.requested⟩, Function.update s.atomic.status i p.status⟩ := by
  have hstatus : (s.put i p).atomic.status = Function.update s.atomic.status i p.status := by
    funext j
    show (Function.update s.threads i p j).status = _
    by_cases hj : j = i
    · subst hj
      rw [Function.update_self, Function.update_self]
    · rw [Function.update_of_ne hj, Function.update_of_ne hj]
      rfl
  rw [← hstatus]
  rfl

/-- **A step** is one of the atomic queue. -/
theorem Consistent.atomicStep {a : Action α τ ι} (h : Consistent s)
    (hstep : QueueCalls.step s a = some s') :
    ∃ p, AtomicStep Performs s.atomic (observe s a) p s'.atomic := by
  have hstatus (i : ι) : s.atomic.status i = (s.threads i).status := rfl
  -- a thread that goes on with its call, or with its way out
  have hstays {t : State α τ ι} {i : ι} {p : Point α τ}
      (hobserve : observe s (.thread i) = none) (hp : p.status = (s.threads i).status)
      (hqueue : t.queue = s.queue) (hrequested : t.requested = s.requested)
      (hthreads : t.threads = s.threads) :
      ∃ p', AtomicStep Performs s.atomic (observe s (.thread i)) p' (t.put i p).atomic := by
    have heq : (t.put i p).atomic = s.atomic := by
      have hatomic : t.atomic.status = s.atomic.status := by
        funext j
        show (t.threads j).status = _
        rw [hthreads]
        rfl
      rw [atomic_put, hqueue, hrequested, hatomic, hp, ← hstatus, Function.update_eq_self]
      rfl
    rw [hobserve, heq]
    exact ⟨none, .stays⟩
  -- a thread that performs its call
  have hperforms {t : State α τ ι} {i : ι} {p : Point α τ} {c : Call α τ} {r : Result α}
      (hobserve : observe s (.thread i) = none) (hi : (s.threads i).status = .called c)
      (hp : p.status = .performed c r) (hthreads : t.threads = s.threads)
      (hperform : Performs ⟨s.queue, s.requested⟩ c r ⟨t.queue, t.requested⟩) :
      ∃ p', AtomicStep Performs s.atomic (observe s (.thread i)) p' (t.put i p).atomic := by
    have hatomic : t.atomic.status = s.atomic.status := by
      funext j
      show (t.threads j).status = _
      rw [hthreads]
      rfl
    rw [hobserve, atomic_put, hatomic, hp]
    exact ⟨some ⟨i, c, r⟩, .performs hi hperform⟩
  have hfits := h.fits
  cases steps_of_step hstep with
  | @calls i c hi =>
    rw [atomic_put]
    exact ⟨none, .calls c (by rw [hstatus, hi]; rfl)⟩
  | @wakes i c timedOut hi =>
    have heq : (s.put i (.notified c timedOut)).atomic = s.atomic := by
      have hsame : (Point.notified c timedOut).status = s.atomic.status i := by
        rw [hstatus, hi]
        rfl
      rw [atomic_put, hsame, Function.update_eq_self]
      rfl
    rw [heq]
    exact ⟨none, .stays⟩
  | @requests i st hi =>
    exact hperforms (by simp [observe, hi]) (by rw [hi]; rfl) rfl rfl (.requestStop st)
  | locks hi hnone => exact hstays (by simp [observe, hi]) (by rw [hi]; rfl) rfl rfl rfl
  | @pushes i value hi =>
    exact hperforms (by simp [observe, hi]) (by rw [hi]; rfl) rfl rfl (.push value)
  | waits hi hc => exact hstays (by simp [observe, hi]) (by rw [hi]; rfl) rfl rfl rfl
  | finds hi hc hqueue => exact hstays (by simp [observe, hi]) (by rw [hi]; rfl) rfl rfl rfl
  | fails hi hqueue =>
    exact hperforms (by simp [observe, hi]) (by rw [hi]; rfl) rfl rfl (.fail hqueue)
  | tells hi => exact hperforms (by simp [observe, hi]) (by rw [hi]; rfl) rfl rfl .empty
  | blocks hi => exact hstays (by simp [observe, hi]) (by rw [hi]; rfl) rfl rfl rfl
  | relocks hi hnone => exact hstays (by simp [observe, hi]) (by rw [hi]; rfl) rfl rfl rfl
  | @timesOut i st hi =>
    exact hperforms (by simp [observe, hi]) (by rw [hi]; rfl) rfl rfl (.timeOut st)
  | @stops i st dur timedOut hi hst =>
    exact hperforms (by simp [observe, hi]) (by rw [hi]; rfl) rfl rfl (.stop dur hst)
  | ceases hi hcease => rw [h.cease] at hcease; cases hcease
  | resumes hi => exact hstays (by simp [observe, hi]) (by rw [hi]; rfl) rfl rfl rfl
  | @takes i c value rest hi hqueue =>
    have hc : c.Takes := by
      have := hfits i
      rw [hi] at this
      exact this.1
    exact hperforms (by simp [observe, hi]) (by rw [hi]; rfl) rfl rfl (.take hc hqueue)
  | unlocks hi => exact hstays (by simp [observe, hi]) (by rw [hi]; rfl) rfl rfl rfl
  | @returns i c r hi =>
    have hobserve : observe s (.thread i) = some (.ret i r) := by simp [observe, hi]
    rw [atomic_put, hobserve]
    exact ⟨none, .returns (by rw [hstatus, hi]; rfl)⟩

/-- **The queue implements** its object. -/
theorem implements : Implements (step (α := α)) observe Performs State.atomic
    (Consistent (τ := τ) (ι := ι)) where
  keeps _ _ _ h hstep := h.step hstep
  simulates _ _ _ h hstep := h.atomicStep hstep

/-! ### What becomes of the values -/

/-- The value a call pushes. -/
def Call.pushed : Call α τ → Option α
  | .push value => some value
  | _ => none

/-- The value a call ends with. -/
def Result.taken : Result α → Option α
  | .value v => some v
  | _ => none

/-- The values that are passed to the queue, in the order of the calls. -/
def sent (es : List (Event ι (Call α τ) (Result α))) : List α :=
  (es.filterMap Event.called).filterMap fun p => p.2.pushed

/-- The values that are returned by the queue, in the order of the returns. -/
def received (es : List (Event ι (Call α τ) (Result α))) : List α :=
  (es.filterMap Event.returned).filterMap fun p => p.2.taken

variable {es : List (Event ι (Call α τ) (Result α))}
  {ps : List (Performed ι (Call α τ) (Result α))} {q q' : Value α τ}

omit [DecidableEq ι] in
/-- **First in, first out**: what has been pushed is what has been taken, and then what is
there. -/
theorem items_of_legal (h : Legal Performs q ps q') :
    q.items ++ ps.filterMap (·.call.pushed) = ps.filterMap (·.result.taken) ++ q'.items := by
  induction h with
  | nil => simp
  | @snoc q' q'' ps p h hp ih =>
    rw [List.filterMap_append, List.filterMap_append, ← List.append_assoc, ih]
    obtain ⟨i, c, r⟩ := p
    cases hp with
    | push value => simp [Call.pushed, Result.taken]
    | take hc hitems =>
      cases c <;> simp_all [Call.Takes, Call.pushed, Result.taken]
    | fail | empty | requestStop | stop | timeOut => simp [Call.pushed, Result.taken]

/-- The calls of a run can be performed one at a time, and in this order they push and take the
values of a queue. -/
theorem linearizes_of_run {as : List (Action α τ ι)} (hrun : run step start as = some s) :
    ∃ ps, Linearizes Performs (.start ⟨[], fun _ => false⟩) (history step observe start as) ps
      s.atomic ∧ ps.filterMap (·.call.pushed) = ps.filterMap (·.result.taken) ++ s.queue := by
  obtain ⟨ps, hps⟩ := implements.linearizes consistent_start hrun
  exact ⟨ps, hps, items_of_legal hps.legal⟩

/-- **Every run is linearizable**: its calls can be performed one at a time, each between its
beginning and its end, with the results they have, and this leaves the queue, the stop tokens and
the calls that have not returned as the run leaves them. -/
theorem linearizable_run {as : List (Action α τ ι)} (hrun : run step start as = some s) :
    Linearizable Performs ⟨[], fun _ => false⟩ (history step observe start as) s.atomic ∧
      s.atomic.value = ⟨s.queue, s.requested⟩ := by
  obtain ⟨ps, hps, -⟩ := linearizes_of_run hrun
  exact ⟨⟨ps, hps⟩, rfl⟩

theorem linearizable_handOver : ∃ s, run step start handOver = some s ∧ s.queue = [] ∧
    Linearizable Performs ⟨[], fun _ => false⟩ (history step observe start handOver) s.atomic := by
  refine ⟨_, rfl, rfl, (linearizable_run ?_).1⟩
  rfl

/-- **Nothing is invented, and nothing comes twice**, whichever threads push and pop: the values
that are returned are some of those that were passed in. -/
theorem received_subperm_sent {as : List (Action α τ ι)} (hrun : run step start as = some s) :
    (received (history step observe start as)).Subperm
      (sent (history step observe start as)) := by
  obtain ⟨ps, hps, hitems⟩ := linearizes_of_run hrun
  have htaken := subperm_filterMap hps.returned_subperm fun p => p.2.taken
  have hpushed := subperm_filterMap hps.performed_subperm fun p => p.2.pushed
  rw [List.filterMap_map] at htaken hpushed
  refine htaken.trans (List.Subperm.trans ?_ hpushed)
  show (ps.filterMap (·.result.taken)).Subperm (ps.filterMap (·.call.pushed))
  rw [hitems]
  exact (List.sublist_append_left ..).subperm

theorem received_handOver : received (history step observe start handOver) = [7] ∧
    (received (history step observe start handOver)).Subperm
      (sent (history step observe start handOver)) :=
  ⟨by decide, received_subperm_sent rfl⟩

omit [DecidableEq ι] in
/-- Values are taken by the calls that take them. -/
theorem takes_of_legal (h : Legal Performs q ps q') :
    ∀ p ∈ ps, p.result.taken ≠ none → p.call.Takes := by
  induction h with
  | nil => simp
  | @snoc q' q'' ps p h hp ih =>
    intro p' hp' htaken
    rcases List.mem_append.mp hp' with hp' | hp'
    · exact ih p' hp' htaken
    · obtain rfl := List.mem_singleton.mp hp'
      obtain ⟨i, c, r⟩ := p'
      cases hp with
      | take hc hitems => exact hc
      | push | fail | empty | requestStop | stop | timeOut => exact absurd rfl htaken

/-- **One producer and one consumer**: the values come out in the order they went in, and none is
missing between two that came. -/
theorem received_prefix_sent {as : List (Action α τ ι)} (hrun : run step start as = some s)
    (i j : ι) (hproducer : ∀ k ≠ i, ∀ c ∈ callsOf k (history step observe start as),
      c.pushed = none)
    (hconsumer : ∀ k ≠ j, ∀ c ∈ callsOf k (history step observe start as), ¬c.Takes) :
    (resultsOf j (history step observe start as)).filterMap Result.taken <+:
      (callsOf i (history step observe start as)).filterMap Call.pushed := by
  obtain ⟨ps, hps, hitems⟩ := linearizes_of_run hrun
  have hcalled : ∀ p ∈ ps, p.call ∈ callsOf p.thread (history step observe start as) := by
    intro p hp
    refine (hps.accounts p.thread).prefixes.1.subset ?_
    exact List.mem_map_of_mem (List.mem_filter.mpr ⟨hp, by simp⟩)
  have hpushed : (performedFor i ps).filterMap (·.call.pushed) = ps.filterMap (·.call.pushed) := by
    refine filterMap_performedFor _ fun p hp hne => ?_
    by_contra hi
    exact hne (hproducer p.thread hi p.call (hcalled p hp))
  have htaken : (performedFor j ps).filterMap (·.result.taken) =
      ps.filterMap (·.result.taken) := by
    refine filterMap_performedFor _ fun p hp hne => ?_
    by_contra hj
    exact hconsumer p.thread hj p.call (hcalled p hp) (takes_of_legal hps.legal p hp hne)
  have hreturned := (hps.accounts j).prefixes.2.filterMap Result.taken
  have hcalls := (hps.accounts i).prefixes.1.filterMap Call.pushed
  rw [List.filterMap_map] at hreturned hcalls
  have hmiddle : ps.filterMap (·.result.taken) <+: ps.filterMap (·.call.pushed) :=
    hitems ▸ List.prefix_append ..
  exact (hreturned.trans (htaken ▸ hmiddle)).trans (hpushed ▸ hcalls)

/-- Thread `true` pushes, and thread `false` pops. -/
theorem received_prefix_handOver :
    (resultsOf false (history step observe start handOver)).filterMap Result.taken <+:
      (callsOf true (history step observe start handOver)).filterMap Call.pushed :=
  received_prefix_sent rfl true false (by decide) (by decide)

end QueueCalls

end Bootpd
