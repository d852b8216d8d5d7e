import Bootpd.TftpServerThreads
import Mathlib.Data.List.Infix

/-!
# `tftp_server_v4`: the destructor

The destructor calls `cease`, which stops and joins the receiver and then the responder. The
members go after that, the last one first: `m_session_list` before `m_events`. The destructor of a
session joins its thread, which still pushes a notification that nobody will take.

An action is one of the threads of `TftpServerThreads`, or of the thread that destroys the server.

## Sessions without an end

The destructor of a session requests its stop, and the thread sees this at the head of its loops;
`TftpStopRequests` has what it does from there on. Here a transfer ends at any time, by the action
`store`, stop or no stop. It may also have no end. A client that asks for the time-out 0, and
acknowledges this, turns the time-out of the session's socket off. If it is silent from then on,
`recv` does not return and the token is not looked at again. Such a session is never joined.
`endless` says which sessions are of this kind, and a run is over when only they and a wake-up for
no reason could still go on.

Safety does not depend on it: a session that ends where the program's would not only adds runs.

## What is left out

The destructors of the other members have nothing to do with the threads. The destructor of the
queue sets `m_cease` and notifies; no thread is in the queue then, which is a result here and not an
assumption.

## Main definitions

* `TftpTeardown.teardownSteps` — what the destructor does, in order
* `TftpTeardown.Orderly`, `TftpTeardown.Joined`, `TftpTeardown.Reaches` — the parts of the invariant
  `TftpTeardown.Sound`

## Main results

* `TftpTeardown.Sound.step` — what every step keeps
* `TftpTeardown.quiet_of_run` — when `m_events` is destroyed there is nobody left to use it
* `TftpTeardown.returns_or_stuck` — the destructor returns, or the responder waits for ever, or a
  session is joined whose transfer has no end
-/

namespace Bootpd

open SocketUdp Transition TftpServerV4

namespace TftpTeardown

/-! ### The threads -/

/-- Where the receiver is in `thread_incoming`. -/
inductive Receiver where
  /-- `while (!st.stop_requested())` -/
  | looping
  /-- In `recv`. -/
  | receiving
  /-- In `emplace`. -/
  | pushing
  | ended
deriving DecidableEq

/-- What the destructor consists of. -/
inductive TeardownStep where
  | stopIncoming
  | joinIncoming
  | stopOutgoing
  | joinOutgoing
  /-- The destructor of `m_session_list`. -/
  | sessions
  /-- The destructor of `m_events`. -/
  | events
deriving DecidableEq

/-- `cease`, and the members that the threads use. -/
def teardownSteps : List TeardownStep :=
  [.stopIncoming, .joinIncoming, .stopOutgoing, .joinOutgoing, .sessions, .events]

/-- The server while it is destroyed. The receiver has a loop here, which it has to leave. -/
structure State where
  threads : TftpServerThreads.State
  receiver : Receiver
  /-- The stop token of the receiver. -/
  incomingStop : Bool
  /-- What the destructor has still to do. -/
  teardown : List TeardownStep

/-- One step of one thread. -/
inductive Action where
  /-- The receiver, and how a receive ends. -/
  | receiver (o : RecvOutcome)
  /-- The responder, a session thread, or the receiver in `emplace`. -/
  | thread (a : TftpServerThreads.Action)
  /-- The destructor, and the session that it is at if it is at the list. -/
  | teardown (session : Pointer)

/-- The next step of `thread_incoming`. -/
def receiverStep (s : State) (o : RecvOutcome) : Option State :=
  match s.receiver with
  | .looping => some { s with receiver := if s.incomingStop then .ended else .receiving }
  | .receiving =>
    match received o with
    | none => some { s with receiver := .looping }
    | some _ =>
      (TftpServerThreads.step s.threads (.receive o)).map fun threads =>
        { s with threads, receiver := .pushing }
  | .pushing =>
    if s.threads.queue.producers none = .idle then some { s with receiver := .looping } else none
  | .ended => none

/-- The receiver and the stop are not steps of their own here. -/
def threadStep (s : State) (a : TftpServerThreads.Action) : Option State :=
  match a with
  | .receive _ | .stop => none
  | a => (TftpServerThreads.step s.threads a).map fun threads => { s with threads }

/-- An entry of the list is destroyed, and the session with it: its thread is joined. -/
def destroySession (t : TftpServerThreads.State) (p : Pointer) : Option TftpServerThreads.State :=
  match t.server.sessions p with
  | some ⟨_, _, .finished⟩ =>
    if p ∈ t.server.sessionList ∧ t.queue.producers (some p) = .idle then
      some { t with server := { t.server with
        sessionList := t.server.sessionList.erase p
        sessions := Function.update t.server.sessions p none } }
    else none
  | _ => none

/-- The destructor of `concurrent_queue`. -/
def destroyQueue (t : TftpServerThreads.State) : TftpServerThreads.State :=
  { t with queue := { t.queue with cease := true }.notify }

/-- The next step of the destructor. The entries of the list go in any order, since the map has an
order of its own, and each of them when the thread of its session can be joined. -/
def teardownStep (s : State) (p : Pointer) : Option State :=
  match s.teardown with
  | [] => none
  | .stopIncoming :: teardown => some { s with incomingStop := true, teardown }
  | .joinIncoming :: teardown => if s.receiver = .ended then some { s with teardown } else none
  | .stopOutgoing :: teardown =>
    if s.threads.queue.stopper = .returned then some { s with teardown }
    else (TftpServerThreads.step s.threads .stop).map fun threads => { s with threads }
  | .joinOutgoing :: teardown =>
    if s.threads.queue.consumer = .ended then some { s with teardown } else none
  | .sessions :: teardown =>
    if s.threads.server.sessionList = ∅ then some { s with teardown }
    else (destroySession s.threads p).map fun threads => { s with threads }
  | .events :: teardown => some { s with threads := destroyQueue s.threads, teardown }

/-- A step, or `none` where the thread cannot go on. -/
def step (s : State) : Action → Option State
  | .receiver o => receiverStep s o
  | .thread a => threadStep s a
  | .teardown p => teardownStep s p

/-- The server after `start`. -/
def start : State := ⟨TftpServerThreads.start, .looping, false, teardownSteps⟩

/-! ### What a thread can do -/

section Threads

open TftpServerThreads

/-- One case for each way an action goes. -/
inductive Moves (t : TftpServerThreads.State) :
    TftpServerThreads.Action → TftpServerThreads.State → Prop where
  | ignores {o : RecvOutcome} : Moves t (.receive o) t
  /-- A step in the queue that the rest of the server does not notice. -/
  | queue {a : TftpServerThreads.Action} {b : ConcurrentQueue.Action EventType (Option Pointer)}
      {queue : ConcurrentQueue.State EventType (Option Pointer)}
      (hqueue : ConcurrentQueue.step t.queue b = some queue)
      (hcall : ∀ p event, b ≠ .call (some p) event)
      (hreceive : ∀ event, b = .call none event → ∃ o, a = .receive o)
      (hconsumer : b = .consumer → t.server.responder = .popping)
      (hstop : b = .stopper → a = .stop) : Moves t a { t with queue }
  | returns {event : EventType} {queue : ConcurrentQueue.State EventType (Option Pointer)}
      (hs : t.server.responder = .popping) (hleaving : t.queue.consumer = .leaving (some event))
      (hqueue : ConcurrentQueue.step t.queue .consumer = some queue) :
      Moves t .responder ⟨queue, { t.server with responder := .visiting event }⟩
  | visits {sys : System} {allocated : Option Pointer} {server : TftpServerV4.State}
      (hserver : TftpServerV4.step t.server (.visit sys allocated) = some server) :
      Moves t (.visit sys allocated) { t with server }
  | emplaces {server : TftpServerV4.State}
      (hserver : TftpServerV4.step t.server .emplace = some server) :
      Moves t .emplace { t with server }
  | destroys {p : Pointer} {server : TftpServerV4.State}
      (hs : t.server.responder = .destroying p) (hidle : t.queue.producers (some p) = .idle)
      (hserver : TftpServerV4.step t.server .destroy = some server) :
      Moves t .destroy { t with server }
  | stores {p : Pointer} {server : TftpServerV4.State}
      (hserver : TftpServerV4.step t.server (.store p) = some server) :
      Moves t (.store p) { t with server }
  | notifies {p : Pointer} {number : ℕ} {done : Bool}
      {queue : ConcurrentQueue.State EventType (Option Pointer)}
      (hp : t.server.sessions p = some ⟨number, done, .notifying⟩)
      (hqueue : ConcurrentQueue.step t.queue (.call (some p) (.notify p number)) = some queue) :
      Moves t (.notify p) ⟨queue, { t.server with
        sessions := Function.update t.server.sessions p (some ⟨number, done, .finished⟩) }⟩

variable {t t' : TftpServerThreads.State}

/-- **The cases of a step** of a thread. -/
theorem moves_of_step {a : TftpServerThreads.Action}
    (hstep : TftpServerThreads.step t a = some t') : Moves t a t' := by
  cases a with
  | receive o =>
    rw [TftpServerThreads.step] at hstep
    split at hstep
    · obtain ⟨queue, hqueue, rfl⟩ := Option.map_eq_some_iff.mp hstep
      exact .queue hqueue (by simp) (fun _ _ => ⟨o, rfl⟩) (by simp) (by simp)
    · obtain rfl := Option.some.inj hstep
      exact .ignores
  | push i =>
    obtain ⟨queue, hqueue, rfl⟩ := Option.map_eq_some_iff.mp hstep
    exact .queue (b := .producer i) hqueue (by simp) (by simp) (by simp) (by simp)
  | responder =>
    rw [TftpServerThreads.step, responderStep] at hstep
    split at hstep
    · obtain ⟨queue, hqueue, rfl⟩ := Option.map_eq_some_iff.mp hstep
      exact .returns ‹_› ‹_› hqueue
    · obtain ⟨queue, hqueue, rfl⟩ := Option.map_eq_some_iff.mp hstep
      exact .queue (b := .consumer) hqueue (by simp) (by simp) (fun _ => ‹_›) (by simp)
    · cases hstep
  | wake =>
    obtain ⟨queue, hqueue, rfl⟩ := Option.map_eq_some_iff.mp hstep
    exact .queue hqueue (by simp) (by simp) (by simp) (by simp)
  | stop =>
    obtain ⟨queue, hqueue, rfl⟩ := Option.map_eq_some_iff.mp hstep
    exact .queue (b := .stopper) hqueue (by simp) (by simp) (by simp) fun _ => rfl
  | visit sys allocated =>
    obtain ⟨server, hserver, rfl⟩ := Option.map_eq_some_iff.mp hstep
    exact .visits hserver
  | emplace =>
    obtain ⟨server, hserver, rfl⟩ := Option.map_eq_some_iff.mp hstep
    exact .emplaces hserver
  | destroy =>
    rw [TftpServerThreads.step, destroyStep] at hstep
    split at hstep
    · obtain ⟨hidle, hstep⟩ := Option.ite_none_right_eq_some.mp hstep
      obtain ⟨server, hserver, rfl⟩ := Option.map_eq_some_iff.mp hstep
      exact .destroys ‹_› hidle hserver
    · cases hstep
  | store p =>
    obtain ⟨server, hserver, rfl⟩ := Option.map_eq_some_iff.mp hstep
    exact .stores hserver
  | notify p =>
    rw [TftpServerThreads.step, notifyStep] at hstep
    split at hstep
    · obtain ⟨queue, hqueue, rfl⟩ := Option.map_eq_some_iff.mp hstep
      exact .notifies ‹_› hqueue
    · cases hstep

end Threads

/-- A visit leaves the sessions there are. -/
theorem sessions_of_visit {s s' : TftpServerV4.State} {sys : System} {allocated : Option Pointer}
    (hstep : TftpServerV4.step s (.visit sys allocated) = some s') {p : Pointer} {x : Session}
    (hp : s.sessions p = some x) : s'.sessions p = some x := by
  cases steps_of_step hstep with
  | @visitsPacket _ _ source bits _ hs hvisit =>
    rw [visitDatagram] at hvisit
    rcases Imperative.exec (visitEvent sys source bits) s.io with ⟨result, io⟩
    dsimp only at hvisit
    split at hvisit
    · obtain ⟨⟨-, hfree⟩, hvisit⟩ := Option.ite_none_right_eq_some.mp hvisit
      obtain rfl := Option.some.inj hvisit
      rw [← hp]
      refine Function.update_of_ne (fun h => ?_) ..
      rw [h, hfree] at hp
      cases hp
    · obtain rfl := Option.some.inj hvisit
      exact hp
  | visitsNotify hs =>
    rw [visitNotify]
    split_ifs
    · exact hp
    · split
      · exact hp
      · split_ifs <;> exact hp

/-! ### What the threads keep -/

/-- What the queue and the rest of the server have to do with each other. -/
structure Orderly (t : TftpServerThreads.State) : Prop where
  /-- The responder visits outside of `pop`. -/
  outside : t.server.responder ≠ .popping → t.queue.consumer = .looping
  /-- A session thread in `push` has nothing to do after it. -/
  calls : ∀ p, t.queue.producers (some p) ≠ .idle →
    ∃ number done, t.server.sessions p = some ⟨number, done, .finished⟩

variable {t t' : TftpServerThreads.State} {a : TftpServerThreads.Action}

/-- Where nobody is in `push`. -/
theorem Orderly.idle (h : Orderly t) {p : Pointer}
    (hp : ∀ number done, t.server.sessions p ≠ some ⟨number, done, .finished⟩) :
    t.queue.producers (some p) = .idle := by
  by_contra hidle
  obtain ⟨number, done, hsession⟩ := h.calls p hidle
  exact hp number done hsession

theorem Orderly.moves (h : Orderly t) (hmoves : Moves t a t') : Orderly t' := by
  cases hmoves with
  | ignores => exact h
  | @queue _ b queue hqueue hcall _ hconsumer =>
    refine ⟨fun hs => ?_, fun p hp => h.calls p fun hidle => hp ?_⟩
    · have hlooping := h.outside hs
      have hb : b ≠ .consumer := fun hb => hs (hconsumer hb)
      exact (ConcurrentQueue.consumer_eq hb (by simp [hlooping]) hqueue).trans hlooping
    · by_cases hb : b = .producer (some p)
      · subst hb
        rw [ConcurrentQueue.step, ConcurrentQueue.producerStep, hidle] at hqueue
        cases hqueue
      · exact (ConcurrentQueue.producers_eq (hcall p) hb hqueue).trans hidle
  | returns hs hleaving hqueue =>
    obtain rfl := ConcurrentQueue.consumerStep_of_leaving hleaving hqueue
    exact ⟨fun _ => rfl, h.calls⟩
  | @visits sys allocated server hserver =>
    have hs : t.server.responder ≠ .popping := by
      cases steps_of_step hserver with
      | visitsPacket hs => simp [hs]
      | visitsNotify hs => simp [hs]
    refine ⟨fun _ => h.outside hs, fun p hp => ?_⟩
    obtain ⟨number, done, hsession⟩ := h.calls p hp
    exact ⟨number, done, sessions_of_visit hserver hsession⟩
  | emplaces hserver =>
    cases steps_of_step hserver with
    | drops hs => exact ⟨fun _ => h.outside (by simp [hs]), h.calls⟩
    | emplaces hs => exact ⟨fun _ => h.outside (by simp [hs]), h.calls⟩
  | @destroys p server hs hidle hserver =>
    have hlooping := h.outside (by simp [hs])
    cases steps_of_step hserver with
    | dangles => exact ⟨fun _ => hlooping, h.calls⟩
    | @destroys q session hs' =>
      obtain rfl := Responder.destroying.inj (hs.symm.trans hs')
      refine ⟨fun _ => hlooping, fun q hq => ?_⟩
      have hne : q ≠ p := by
        rintro rfl
        exact hq hidle
      obtain ⟨number, done, hsession⟩ := h.calls q hq
      exact ⟨number, done, (Function.update_of_ne hne ..).trans hsession⟩
  | @stores p server hserver =>
    cases steps_of_step hserver with
    | @stores _ number done hp =>
      refine ⟨h.outside, fun q hq => ?_⟩
      obtain ⟨number', done', hsession⟩ := h.calls q hq
      have hne : q ≠ p := by
        rintro rfl
        cases hp.symm.trans hsession
      exact ⟨number', done', (Function.update_of_ne hne ..).trans hsession⟩
  | @notifies p number done queue hp hqueue =>
    refine ⟨fun hs => ?_, fun q hq => ?_⟩
    · have hlooping := h.outside hs
      exact (ConcurrentQueue.consumer_eq (by simp) (by simp [hlooping]) hqueue).trans hlooping
    · by_cases hne : q = p
      · subst hne
        exact ⟨number, done, Function.update_self ..⟩
      · have heq : queue.producers (some q) = t.queue.producers (some q) :=
          ConcurrentQueue.producers_eq (fun value hb => hne (by simp_all))
            (by simp) hqueue
        obtain ⟨number', done', hsession⟩ := h.calls q fun hidle => hq (heq.trans hidle)
        exact ⟨number', done', (Function.update_of_ne hne ..).trans hsession⟩

/-- The queue takes a step, or none. -/
theorem queue_of_moves (hmoves : Moves t a t') : t'.queue = t.queue ∨
    ∃ b, ConcurrentQueue.step t.queue b = some t'.queue ∧ (b = .stopper → a = .stop) := by
  cases hmoves with
  | queue hqueue _ _ _ hstop => exact .inr ⟨_, hqueue, hstop⟩
  | returns _ _ hqueue => exact .inr ⟨_, hqueue, by simp⟩
  | notifies _ hqueue => exact .inr ⟨_, hqueue, by simp⟩
  | _ => exact .inl rfl

/-- Only the receiver calls `push` for itself. -/
theorem idle_of_moves (hmoves : Moves t a t') (ha : ∀ o, a ≠ .receive o)
    (hidle : t.queue.producers none = .idle) : t'.queue.producers none = .idle := by
  have hstays {b : ConcurrentQueue.Action EventType (Option Pointer)}
      {queue : ConcurrentQueue.State EventType (Option Pointer)}
      (hqueue : ConcurrentQueue.step t.queue b = some queue)
      (hcall : ∀ event, b ≠ .call none event) : queue.producers none = .idle := by
    by_cases hb : b = .producer none
    · subst hb
      rw [ConcurrentQueue.step, ConcurrentQueue.producerStep, hidle] at hqueue
      cases hqueue
    · exact (ConcurrentQueue.producers_eq hcall hb hqueue).trans hidle
  cases hmoves with
  | queue hqueue _ hreceive =>
    refine hstays hqueue fun event hb => ?_
    obtain ⟨o, ho⟩ := hreceive event hb
    exact ha o ho
  | returns _ _ hqueue => exact hstays hqueue (by simp)
  | notifies _ hqueue => exact hstays hqueue (by simp)
  | _ => exact hidle

/-- The responder has ended: the sessions in memory are those in the list. -/
structure Joined (t : TftpServerThreads.State) : Prop where
  consumer : t.queue.consumer = .ended
  responder : t.server.responder = .popping
  listed : ∀ p, p ∈ t.server.sessionList ↔ t.server.sessions p ≠ none

/-- A session that goes on is one. -/
theorem update_eq_none_iff {sessions : Pointer → Option Session} {p : Pointer} {x : Session}
    (hp : sessions p = some x) (x' : Session) (q : Pointer) :
    Function.update sessions p (some x') q = none ↔ sessions q = none := by
  by_cases hq : q = p
  · subst hq
    simp [hp]
  · rw [Function.update_of_ne hq]

/-- Without the responder no session comes and none goes. -/
theorem Joined.moves (h : Joined t) (hmoves : Moves t a t') : Joined t' ∧
    ∀ p, t'.server.sessions p = none ↔ t.server.sessions p = none := by
  have hconsumer {b : ConcurrentQueue.Action EventType (Option Pointer)}
      {queue : ConcurrentQueue.State EventType (Option Pointer)}
      (hqueue : ConcurrentQueue.step t.queue b = some queue) : queue.consumer = .ended :=
    (ConcurrentQueue.lasts hqueue).2 h.consumer
  cases hmoves with
  | ignores => exact ⟨h, fun p => .rfl⟩
  | queue hqueue => exact ⟨⟨hconsumer hqueue, h.responder, h.listed⟩, fun p => .rfl⟩
  | returns _ hleaving => cases h.consumer.symm.trans hleaving
  | visits hserver =>
    cases steps_of_step hserver with
    | visitsPacket hs => cases h.responder.symm.trans hs
    | visitsNotify hs => cases h.responder.symm.trans hs
  | emplaces hserver =>
    cases steps_of_step hserver with
    | drops hs => cases h.responder.symm.trans hs
    | emplaces hs => cases h.responder.symm.trans hs
  | destroys hs => cases h.responder.symm.trans hs
  | stores hserver =>
    cases steps_of_step hserver with
    | @stores p number done hp =>
      have hnone := update_eq_none_iff hp ⟨number, true, .notifying⟩
      exact ⟨⟨h.consumer, h.responder, fun q => (h.listed q).trans (not_congr (hnone q).symm)⟩,
        hnone⟩
  | @notifies p number done queue hp hqueue =>
    have hnone := update_eq_none_iff hp ⟨number, done, .finished⟩
    exact ⟨⟨hconsumer hqueue, h.responder, fun q => (h.listed q).trans (not_congr (hnone q).symm)⟩,
      hnone⟩

/-! ### What every run keeps -/

/-- How far the destructor has come, with `teardown` left to do. -/
structure Reaches (threads : TftpServerThreads.State) (receiver : Receiver)
    (teardown : List TeardownStep) : Prop where
  order : teardown <:+ teardownSteps
  orderly : Orderly threads
  idle : receiver ≠ .pushing → threads.queue.producers none = .idle
  reached : .joinOutgoing ∈ teardown →
    ∃ as, run TftpServerThreads.step TftpServerThreads.start as = some threads
  queue : .events ∈ teardown →
    ∃ bs, run ConcurrentQueue.step ConcurrentQueue.start bs = some threads.queue
  incomingJoined : .joinIncoming ∉ teardown → receiver = .ended
  outgoingStopped : .stopOutgoing ∉ teardown → threads.queue.stopper = .returned
  notifying : threads.queue.stopper = .notifying → teardown.head? = some .stopOutgoing
  outgoingJoined : .joinOutgoing ∉ teardown → Joined threads
  emptied : .sessions ∉ teardown → ∀ p, threads.server.sessions p = none

/-- What every run keeps. -/
def Sound (s : State) : Prop := Reaches s.threads s.receiver s.teardown

/-- What is left to do is left with all that is behind it. -/
theorem mem_of_le {teardown : List TeardownStep} (h : teardown <:+ teardownSteps)
    {x y : TeardownStep} (hx : x ∈ teardown)
    (hle : teardownSteps.idxOf x ≤ teardownSteps.idxOf y) : y ∈ teardown := by
  have hall : ∀ teardown ∈ teardownSteps.tails, ∀ x ∈ teardown, ∀ y ∈ teardownSteps,
      teardownSteps.idxOf x ≤ teardownSteps.idxOf y → y ∈ teardown := by decide
  exact hall teardown ((List.mem_tails _ _).mpr h) x hx y (by cases y <;> decide) hle

/-- What is in front of the next step has been done. -/
theorem notMem_of_lt {first : TeardownStep} {rest : List TeardownStep}
    (h : first :: rest <:+ teardownSteps) {x : TeardownStep}
    (hlt : teardownSteps.idxOf x < teardownSteps.idxOf first) : x ∉ first :: rest := by
  have hall : ∀ teardown ∈ teardownSteps.tails, ∀ x ∈ teardown, ∀ first ∈ teardown.head?,
      teardownSteps.idxOf first ≤ teardownSteps.idxOf x := by decide
  intro hmem
  exact absurd (hall _ ((List.mem_tails _ _).mpr h) x hmem first rfl) (Nat.not_le.mpr hlt)

theorem sound_start : Reaches TftpServerThreads.start .looping teardownSteps where
  order := List.suffix_rfl
  orderly := ⟨fun h => absurd rfl h, fun p h => absurd rfl h⟩
  idle _ := rfl
  reached _ := ⟨[], rfl⟩
  queue _ := ⟨[], rfl⟩
  incomingJoined h := absurd (by decide) h
  outgoingStopped h := absurd (by decide) h
  notifying h := by cases h
  outgoingJoined h := absurd (by decide) h
  emptied h := absurd (by decide) h

variable {s s' : State} {threads threads' : TftpServerThreads.State}
  {receiver receiver' : Receiver} {teardown : List TeardownStep}

/-- A thread goes on, while the destructor stays where it is. -/
theorem Reaches.thread_step (h : Reaches threads receiver teardown)
    (hstep : TftpServerThreads.step threads a = some threads') (hstop : a ≠ .stop)
    (hidle : receiver' ≠ .pushing → threads'.queue.producers none = .idle)
    (hended : receiver = .ended → receiver' = .ended) :
    Reaches threads' receiver' teardown := by
  have hmoves := moves_of_step hstep
  have hstopper : threads'.queue.stopper = threads.queue.stopper := by
    rcases queue_of_moves hmoves with hqueue | ⟨b, hqueue, hb⟩
    · rw [hqueue]
    · exact ConcurrentQueue.stopper_eq (fun heq => hstop (hb heq)) hqueue
  refine ⟨h.order, h.orderly.moves hmoves, hidle, fun hmem => reached_step (h.reached hmem) hstep,
    fun hmem => ?_, fun hmem => hended (h.incomingJoined hmem),
    fun hmem => hstopper.trans (h.outgoingStopped hmem),
    fun hs => h.notifying (hstopper.symm.trans hs),
    fun hmem => ((h.outgoingJoined hmem).moves hmoves).1, fun hmem p => ?_⟩
  · rcases queue_of_moves hmoves with hqueue | ⟨b, hqueue, -⟩
    · exact hqueue ▸ h.queue hmem
    · exact reached_step (h.queue hmem) hqueue
  · have hjoined := h.outgoingJoined fun hmem' => hmem (mem_of_le h.order hmem' (by decide))
    exact ((hjoined.moves hmoves).2 p).mpr (h.emptied hmem p)

/-- The receiver goes on outside of the queue. -/
theorem Reaches.receiver_moves (h : Reaches threads receiver teardown)
    (hended : receiver ≠ .ended) (hidle : threads.queue.producers none = .idle) :
    Reaches threads receiver' teardown :=
  { h with
    idle := fun _ => hidle
    incomingJoined := fun hmem => absurd (h.incomingJoined hmem) hended }

/-- **The receiver.** -/
theorem Sound.receiver_step (h : Sound s) {o : RecvOutcome} (hstep : receiverStep s o = some s') :
    Sound s' := by
  rw [receiverStep] at hstep
  split at hstep
  · rename_i hs
    obtain rfl := Option.some.inj hstep
    exact h.receiver_moves (by simp [hs]) (h.idle (by simp [hs]))
  · rename_i hs
    split at hstep
    · obtain rfl := Option.some.inj hstep
      exact h.receiver_moves (by simp [hs]) (h.idle (by simp [hs]))
    · obtain ⟨threads, hthreads, rfl⟩ := Option.map_eq_some_iff.mp hstep
      exact h.thread_step hthreads (by simp) (fun hne => absurd rfl hne) (by simp [hs])
  · rename_i hs
    obtain ⟨hidle, hstep⟩ := Option.ite_none_right_eq_some.mp hstep
    obtain rfl := Option.some.inj hstep
    exact h.receiver_moves (by simp [hs]) hidle
  · cases hstep

/-- A session of the list is destroyed. -/
theorem Joined.destroySession (h : Joined t) (horderly : Orderly t) {p : Pointer}
    (hstep : TftpTeardown.destroySession t p = some t') :
    Joined t' ∧ Orderly t' ∧ t'.queue = t.queue := by
  rw [TftpTeardown.destroySession] at hstep
  split at hstep
  · rename_i number done hp
    obtain ⟨⟨hmem, hidle⟩, hstep⟩ := Option.ite_none_right_eq_some.mp hstep
    obtain rfl := Option.some.inj hstep
    refine ⟨⟨h.consumer, h.responder, fun q => ?_⟩, ⟨horderly.outside, fun q hq => ?_⟩, rfl⟩
    · by_cases hne : q = p
      · subst hne
        simp
      · simp [hne, h.listed]
    · have hne : q ≠ p := by
        rintro rfl
        exact hq hidle
      obtain ⟨number', done', hsession⟩ := horderly.calls q hq
      exact ⟨number', done', (Function.update_of_ne hne ..).trans hsession⟩
  · cases hstep

/-- When the responder has been joined, the list has the sessions that are in memory. -/
theorem joined_of_run {as : List TftpServerThreads.Action}
    (hrun : run TftpServerThreads.step TftpServerThreads.start as = some t)
    (horderly : Orderly t) (hconsumer : t.queue.consumer = .ended) : Joined t := by
  have hresponder : t.server.responder = .popping := by
    by_contra hs
    cases hconsumer.symm.trans (horderly.outside hs)
  have hconsistent := TftpServerThreads.consistent_atomic hrun
  have hatomic : t.atomic.responder = .popping := by
    simp [TftpServerThreads.State.atomic, hconsumer, ConcurrentQueue.Consumer.inHand, hresponder]
  refine ⟨hconsumer, hresponder, fun p => ?_⟩
  have hsessions : t.atomic.sessions p =
      (t.server.sessions p).map (TftpServerThreads.beforePush t.queue p) := rfl
  cases hp : t.server.sessions p with
  | none =>
    rw [hp, Option.map_none] at hsessions
    exact iff_of_false (hconsistent.free p hsessions).listed (by simp)
  | some x =>
    rw [hp, Option.map_some] at hsessions
    have hlisted := (hconsistent.live p _ hsessions).listed
    exact iff_of_true (hlisted.mpr (by simp [hatomic])) (by simp)

/-- The queue is destroyed when the responder has ended. -/
theorem Joined.destroyQueue (h : Joined t) (horderly : Orderly t) :
    Joined (destroyQueue t) ∧ Orderly (TftpTeardown.destroyQueue t) := by
  have hconsumer : (TftpTeardown.destroyQueue t).queue.consumer = .ended := by
    show t.queue.consumer.notify = .ended
    rw [h.consumer]
    rfl
  exact ⟨⟨hconsumer, h.responder, h.listed⟩, fun hs => absurd h.responder hs, horderly.calls⟩

/-- **The destructor** is done with a step. -/
theorem Reaches.next {first : TeardownStep} (h : Reaches threads receiver (first :: teardown))
    (hnotifying : threads.queue.stopper ≠ .notifying)
    (hincoming : first = .joinIncoming → receiver = .ended)
    (hstopped : first = .stopOutgoing → threads.queue.stopper = .returned)
    (houtgoing : first = .joinOutgoing → Joined threads)
    (hsessions : first = .sessions → ∀ p, threads.server.sessions p = none) :
    Reaches threads receiver teardown := by
  have hnot {x : TeardownStep} (hne : first ≠ x) (hmem : x ∉ teardown) : x ∉ first :: teardown :=
    fun hmem' => (List.mem_cons.mp hmem').elim (fun heq => hne heq.symm) hmem
  refine ⟨(List.suffix_cons first teardown).trans h.order, h.orderly, h.idle,
    fun hmem => h.reached (List.mem_cons_of_mem _ hmem),
    fun hmem => h.queue (List.mem_cons_of_mem _ hmem), fun hmem => ?_, fun hmem => ?_,
    fun hs => absurd hs hnotifying, fun hmem => ?_, fun hmem => ?_⟩
  · by_cases hfirst : first = .joinIncoming
    · exact hincoming hfirst
    · exact h.incomingJoined (hnot hfirst hmem)
  · by_cases hfirst : first = .stopOutgoing
    · exact hstopped hfirst
    · exact h.outgoingStopped (hnot hfirst hmem)
  · by_cases hfirst : first = .joinOutgoing
    · exact houtgoing hfirst
    · exact h.outgoingJoined (hnot hfirst hmem)
  · by_cases hfirst : first = .sessions
    · exact hsessions hfirst
    · exact h.emptied (hnot hfirst hmem)

/-- Only the stop of the responder notifies. -/
theorem Reaches.not_notifying {first : TeardownStep}
    (h : Reaches threads receiver (first :: teardown)) (hfirst : first ≠ .stopOutgoing) :
    threads.queue.stopper ≠ .notifying :=
  fun hs => hfirst (Option.some.inj (h.notifying hs))

/-- The responder is being stopped. -/
theorem Reaches.stop_step (h : Reaches threads receiver (.stopOutgoing :: teardown))
    (hstep : TftpServerThreads.step threads .stop = some threads') :
    Reaches threads' receiver (.stopOutgoing :: teardown) := by
  have hmoves := moves_of_step hstep
  have hstopped : TeardownStep.stopOutgoing ∈ TeardownStep.stopOutgoing :: teardown :=
    List.mem_cons_self
  have houtgoing : .joinOutgoing ∈ TeardownStep.stopOutgoing :: teardown :=
    mem_of_le h.order hstopped (by decide)
  have hsessions : .sessions ∈ TeardownStep.stopOutgoing :: teardown :=
    mem_of_le h.order hstopped (by decide)
  refine ⟨h.order, h.orderly.moves hmoves, fun hne => idle_of_moves hmoves (by simp) (h.idle hne),
    fun hmem => reached_step (h.reached hmem) hstep, fun hmem => ?_, h.incomingJoined,
    fun hmem => absurd hstopped hmem, fun _ => rfl, fun hmem => absurd houtgoing hmem,
    fun hmem => absurd hsessions hmem⟩
  rcases queue_of_moves hmoves with hqueue | ⟨b, hqueue, -⟩
  · exact hqueue ▸ h.queue hmem
  · exact reached_step (h.queue hmem) hqueue

/-- A session is destroyed. -/
theorem Reaches.session_step (h : Reaches threads receiver (.sessions :: teardown)) {p : Pointer}
    (hstep : destroySession threads p = some threads') :
    Reaches threads' receiver (.sessions :: teardown) := by
  have houtgoing : .joinOutgoing ∉ TeardownStep.sessions :: teardown :=
    notMem_of_lt h.order (by decide)
  obtain ⟨hjoined, horderly, hqueue⟩ := (h.outgoingJoined houtgoing).destroySession h.orderly hstep
  exact ⟨h.order, horderly, fun hne => hqueue ▸ h.idle hne, fun hmem => absurd hmem houtgoing,
    fun hmem => hqueue ▸ h.queue hmem, h.incomingJoined,
    fun hmem => hqueue ▸ h.outgoingStopped hmem, fun hs => h.notifying (hqueue ▸ hs),
    fun _ => hjoined, fun hmem => absurd List.mem_cons_self hmem⟩

/-- The queue is destroyed. -/
theorem Reaches.queue_step (h : Reaches threads receiver []) :
    Reaches (destroyQueue threads) receiver [] := by
  obtain ⟨hjoined, horderly⟩ := (h.outgoingJoined List.not_mem_nil).destroyQueue h.orderly
  exact { h with
    orderly := horderly
    reached := by rintro ⟨⟩
    queue := by rintro ⟨⟩
    outgoingJoined := fun _ => hjoined }

theorem Sound.teardown_step (h : Sound s) {p : Pointer} (hstep : teardownStep s p = some s') :
    Sound s' := by
  obtain ⟨threads, receiver, incomingStop, teardown⟩ := s
  replace h : Reaches threads receiver teardown := h
  rw [teardownStep] at hstep
  split at hstep
  · cases hstep
  · rename_i rest hs
    obtain rfl : teardown = _ := hs
    obtain rfl := Option.some.inj hstep
    exact h.next (h.not_notifying (by simp)) (by simp) (by simp) (by simp) (by simp)
  · rename_i rest hs
    obtain rfl : teardown = _ := hs
    obtain ⟨hended, hstep⟩ := Option.ite_none_right_eq_some.mp hstep
    obtain rfl := Option.some.inj hstep
    exact h.next (h.not_notifying (by simp)) (fun _ => hended) (by simp) (by simp) (by simp)
  · rename_i rest hs
    obtain rfl : teardown = _ := hs
    split at hstep
    · rename_i hreturned
      replace hreturned : threads.queue.stopper = .returned := hreturned
      obtain rfl := Option.some.inj hstep
      exact h.next (by simp [hreturned]) (by simp) (fun _ => hreturned) (by simp) (by simp)
    · obtain ⟨threads', hthreads, rfl⟩ := Option.map_eq_some_iff.mp hstep
      exact h.stop_step hthreads
  · rename_i rest hs
    obtain rfl : teardown = _ := hs
    obtain ⟨hended, hstep⟩ := Option.ite_none_right_eq_some.mp hstep
    obtain rfl := Option.some.inj hstep
    obtain ⟨as, has⟩ := h.reached List.mem_cons_self
    exact h.next (h.not_notifying (by simp)) (by simp) (by simp)
      (fun _ => joined_of_run has h.orderly hended) (by simp)
  · rename_i rest hs
    obtain rfl : teardown = _ := hs
    split at hstep
    · rename_i hempty
      replace hempty : threads.server.sessionList = ∅ := hempty
      obtain rfl := Option.some.inj hstep
      have hlisted := (h.outgoingJoined (notMem_of_lt h.order (by decide))).listed
      exact h.next (h.not_notifying (by simp)) (by simp) (by simp) (by simp)
        fun _ q => by simpa [hempty] using hlisted q
    · obtain ⟨threads', hthreads, rfl⟩ := Option.map_eq_some_iff.mp hstep
      exact h.session_step hthreads
  · rename_i rest hs
    obtain rfl : teardown = _ := hs
    obtain rfl := Option.some.inj hstep
    have hnext := h.next (h.not_notifying (by simp)) (by simp) (by simp) (by simp) (by simp)
    have hlast : ∀ teardown ∈ teardownSteps.tails, teardown.head? = some .events →
        teardown.tail = [] := by decide
    obtain rfl : rest = [] := hlast _ ((List.mem_tails _ _).mpr h.order) rfl
    exact hnext.queue_step

theorem threadStep_eq_some (hstep : threadStep s a = some s') :
    (∀ o, a ≠ .receive o) ∧ a ≠ .stop ∧
      ∃ threads, TftpServerThreads.step s.threads a = some threads ∧ s' = { s with threads } := by
  cases a with
  | receive o => cases hstep
  | stop => cases hstep
  | _ =>
    obtain ⟨threads, hthreads, rfl⟩ := Option.map_eq_some_iff.mp hstep
    exact ⟨by simp, by simp, threads, hthreads, rfl⟩

/-- **Every step** keeps it. -/
theorem Sound.step {a : Action} (h : Sound s) (hstep : TftpTeardown.step s a = some s') :
    Sound s' := by
  cases a with
  | receiver o => exact h.receiver_step hstep
  | teardown p => exact h.teardown_step hstep
  | thread a =>
    obtain ⟨hreceive, hstop, threads, hthreads, rfl⟩ := threadStep_eq_some hstep
    exact Reaches.thread_step h hthreads hstop
      (fun hne => idle_of_moves (moves_of_step hthreads) hreceive (h.idle hne)) id

theorem sound_of_run {as : List Action} (hrun : run step start as = some s) : Sound s :=
  Keeps.run (fun _ _ _ h hstep => h.step hstep) (show Sound start from sound_start) hrun

/-! ### Nobody is left -/

/-- The threads of the server have ended, and its sessions are gone. -/
structure Quiet (t : TftpServerThreads.State) : Prop where
  joined : Joined t
  idle : ∀ i, t.queue.producers i = .idle
  empty : ∀ p, t.server.sessions p = none

/-- When the threads have ended, but for sessions that stay in their transfer, nobody goes on. -/
theorem Joined.not_moves (h : Joined t) (hidle : ∀ i, t.queue.producers i = .idle)
    (hsessions : ∀ p x, t.server.sessions p = some x → x.thread = .transferring ∧ a ≠ .store p)
    (hreceive : ∀ o, a ≠ .receive o) (hstop : a ≠ .stop) : ¬Moves t a t' := by
  have hconsumer := h.consumer
  have hresponder := h.responder
  intro hmoves
  cases hmoves with
  | ignores => exact hreceive _ rfl
  | @queue _ b queue hqueue hcall hreceive' _ hstop' =>
    cases b with
    | consumer => simp [ConcurrentQueue.step, ConcurrentQueue.consumerStep, hconsumer] at hqueue
    | wake => simp [ConcurrentQueue.step, hconsumer] at hqueue
    | producer i => simp [ConcurrentQueue.step, ConcurrentQueue.producerStep, hidle i] at hqueue
    | stopper => exact hstop (hstop' rfl)
    | call i event =>
      cases i with
      | none =>
        obtain ⟨o, ho⟩ := hreceive' event rfl
        exact hreceive o ho
      | some p => exact hcall p event rfl
  | returns _ hleaving => cases hconsumer.symm.trans hleaving
  | visits hserver =>
    cases steps_of_step hserver with
    | visitsPacket hs => cases hresponder.symm.trans hs
    | visitsNotify hs => cases hresponder.symm.trans hs
  | emplaces hserver =>
    cases steps_of_step hserver with
    | drops hs => cases hresponder.symm.trans hs
    | emplaces hs => cases hresponder.symm.trans hs
  | destroys hs => cases hresponder.symm.trans hs
  | stores hserver =>
    cases steps_of_step hserver with
    | stores hp => exact (hsessions _ _ hp).2 rfl
  | notifies hp => cases (hsessions _ _ hp).1

/-- When the list has been destroyed. -/
theorem Sound.quiet (h : Sound s) (hsessions : .sessions ∉ s.teardown) :
    s.receiver = .ended ∧ Quiet s.threads := by
  have hdone {x : TeardownStep} (hle : teardownSteps.idxOf x ≤ teardownSteps.idxOf .sessions) :
      x ∉ s.teardown := fun hmem => hsessions (mem_of_le h.order hmem hle)
  have hreceiver := h.incomingJoined (hdone (by decide))
  have hempty := h.emptied hsessions
  refine ⟨hreceiver, h.outgoingJoined (hdone (by decide)), fun i => ?_, hempty⟩
  cases i with
  | none => exact h.idle (by simp [hreceiver])
  | some p => exact h.orderly.idle fun number done => by simp [hempty p]

theorem Quiet.stays (h : Quiet s.threads) (hreceiver : s.receiver = .ended) :
    (∀ o, step s (.receiver o) = none) ∧ ∀ a, step s (.thread a) = none := by
  refine ⟨fun o => ?_, fun a => ?_⟩
  · rw [step, receiverStep, hreceiver]
  · cases hstep : step s (.thread a) with
    | none => rfl
    | some s' =>
      obtain ⟨hreceive, hstop, threads, hthreads, -⟩ := threadStep_eq_some hstep
      exact absurd (moves_of_step hthreads) (h.joined.not_moves h.idle
        (fun p x hx => nomatch (h.empty p).symm.trans hx) hreceive hstop)

/-- **Who uses `m_events` when it is destroyed**: nobody. From the end of `m_session_list` on, the
receiver and the responder have ended, no session is in memory, nobody is in the queue, and no
thread of the server goes on any more. -/
theorem quiet_of_run {as : List Action} (hrun : run step start as = some s)
    (hsessions : .sessions ∉ s.teardown) :
    s.receiver = .ended ∧ Quiet s.threads ∧ (∀ o, step s (.receiver o) = none) ∧
      ∀ a, step s (.thread a) = none := by
  obtain ⟨hreceiver, hquiet⟩ := (sound_of_run hrun).quiet hsessions
  exact ⟨hreceiver, hquiet, hquiet.stays hreceiver⟩

theorem length_empty_lt : ([] : List UInt8).length < 2 ^ 63 := by decide

/-- The server is destroyed while a session transfers. -/
def duringTransfer : List Action :=
  [.receiver .timedOut, .receiver (.datagram ⟨1, 69⟩ [0, 1, 97, 0, 111, 99, 116, 101, 116, 0])] ++
    List.replicate 4 (.thread (.push none)) ++ List.replicate 7 (.thread .responder) ++
    [.thread (.visit (.serving ⟨[], length_empty_lt⟩) (some 1)), .thread .emplace,
      .receiver .timedOut, .teardown 0, .receiver .timedOut, .teardown 0, .teardown 0, .teardown 0,
      .thread .responder, .teardown 0, .thread (.store 1), .thread (.notify 1)] ++
    List.replicate 4 (.thread (.push (some 1))) ++ [.teardown 1, .teardown 0]

/-- Its notification is left in the queue. -/
theorem quiet_of_run_transfer : ∃ s, run step start duringTransfer = some s ∧
    s.teardown = [.events] ∧ s.threads.queue.queue = [.notify 1 0] ∧
      (s.receiver = .ended ∧ Quiet s.threads ∧ (∀ o, step s (.receiver o) = none) ∧
        ∀ a, step s (.thread a) = none) :=
  ⟨_, rfl, rfl, rfl, quiet_of_run (show run step start duringTransfer = some _ from rfl)
    (by decide)⟩

/-! ### The destructor returns -/

/-- A session thread goes on, or has returned. -/
theorem Orderly.session_goes_on (h : Orderly t)
    (hconsistent : ConcurrentQueue.Consistent t.queue) (hholds : ¬t.queue.consumer.Holds)
    {p : Pointer} {x : Session} (hp : t.server.sessions p = some x) :
    (x.thread = .finished ∧ t.queue.producers (some p) = .idle) ∨
      x.thread = .transferring ∧ (TftpServerThreads.step t (.store p)).isSome ∨
        (TftpServerThreads.step t (.notify p)).isSome ∨
          ∃ i, (TftpServerThreads.step t (.push i)).isSome := by
  obtain ⟨number, done, thread⟩ := x
  cases thread with
  | transferring =>
    exact .inr (.inl ⟨rfl, by simp [TftpServerThreads.step, TftpServerV4.step, hp]⟩)
  | notifying =>
    have hidle := h.idle (p := p) (by simp [hp])
    exact .inr (.inr (.inl (by
      simp [TftpServerThreads.step, TftpServerThreads.notifyStep, hp, ConcurrentQueue.step,
        hidle])))
  | finished =>
    by_cases hidle : t.queue.producers (some p) = .idle
    · exact .inl ⟨rfl, hidle⟩
    · obtain ⟨i, hi⟩ := hconsistent.exists_producerStep hidle hholds
      exact .inr (.inr (.inr ⟨i, by simpa [TftpServerThreads.step] using hi⟩))

-- Some sessions never come to the end of their transfer: with the time-out 0, and a client that
-- does not answer, `recvfrom` does not return.
variable {endless : Pointer → Prop}

/-- The threads of the server are at a standstill. -/
def Stays (endless : Pointer → Prop) (t : TftpServerThreads.State) : Prop :=
  ∀ a, a ≠ .wake → (∀ o, a ≠ .receive o) → a ≠ .stop → (∀ p, endless p → a ≠ .store p) →
    TftpServerThreads.step t a = none

/-- At a standstill a session thread has returned, or is in a transfer without an end. -/
theorem Orderly.finished_or_endless (h : Orderly t) (hstays : Stays endless t)
    (hconsistent : ConcurrentQueue.Consistent t.queue) (hholds : ¬t.queue.consumer.Holds)
    {p : Pointer} {x : Session} (hp : t.server.sessions p = some x) :
    (x.thread = .finished ∧ t.queue.producers (some p) = .idle) ∨
      endless p ∧ x.thread = .transferring := by
  rcases h.session_goes_on hconsistent hholds hp with
    hfinished | ⟨htransferring, hstep⟩ | hstep | ⟨i, hstep⟩
  · exact .inl hfinished
  · refine .inr ⟨by_contra fun hends => ?_, htransferring⟩
    have hnone := hstays (.store p) (by simp) (by simp) (by simp)
      (by rintro q hq ⟨⟩; exact hends hq)
    simp [hnone] at hstep
  · simp [hstays (.notify p) (by simp) (by simp) (by simp) (by simp)] at hstep
  · simp [hstays (.push i) (by simp) (by simp) (by simp) (by simp)] at hstep

/-- Without memory for a session, a visit ends at once. -/
theorem isSome_visit {s : TftpServerV4.State} {event : EventType}
    (hs : s.responder = .visiting event) (sys : System) :
    (TftpServerV4.step s (.visit sys none)).isSome := by
  cases event with
  | notify who number => simp [TftpServerV4.step, hs]
  | packet source bits =>
    simp only [TftpServerV4.step, hs, visitDatagram]
    split <;> simp_all

/-- The session that the responder destroys. -/
theorem finished_of_destroying {p : Pointer} {x : Session}
    (hconsistent : TftpServerV4.Consistent t.atomic) (hs : t.atomic.responder = .destroying p)
    (hp : t.server.sessions p = some x) : x.thread = .finished := by
  have hatomic : t.atomic.sessions p = some (TftpServerThreads.beforePush t.queue p x) := by
    simp [TftpServerThreads.State.atomic, hp]
  have hfinished := (hconsistent.live p _ hatomic).finished.mpr (.inr hs)
  rw [TftpServerThreads.beforePush] at hfinished
  split_ifs at hfinished
  exact hfinished

/-- At a standstill the responder is in `pop`, or in front of it. -/
theorem popping_of_stays {as : List TftpServerThreads.Action}
    (hrun : run TftpServerThreads.step TftpServerThreads.start as = some t) (h : Orderly t)
    (hconsistent : ConcurrentQueue.Consistent t.queue) (hstays : Stays endless t) :
    t.server.responder = .popping := by
  by_contra hs
  have hholds : ¬t.queue.consumer.Holds := by simp [h.outside hs, ConcurrentQueue.Consumer.Holds]
  have hatomic := (TftpServerThreads.sound_of_run hrun).responder_eq hs
  cases hresponder : t.server.responder with
  | popping => exact hs hresponder
  | undefined =>
    exact (TftpServerThreads.consistent_atomic hrun).defined (hatomic.trans hresponder)
  | visiting event =>
    have hstep := isSome_visit hresponder (.serving ⟨[], by decide⟩)
    have hnone := hstays (.visit (.serving ⟨[], by decide⟩) none) (by simp) (by simp) (by simp)
      (by simp)
    rw [TftpServerThreads.step, Option.map_eq_none_iff] at hnone
    rw [hnone] at hstep
    cases hstep
  | emplacing p =>
    have hnone := hstays .emplace (by simp) (by simp) (by simp) (by simp)
    rw [TftpServerThreads.step, Option.map_eq_none_iff, TftpServerV4.step, hresponder] at hnone
    dsimp only at hnone
    split at hnone <;> cases hnone
  | destroying p =>
    have hnone := hstays .destroy (by simp) (by simp) (by simp) (by simp)
    rw [TftpServerThreads.step, TftpServerThreads.destroyStep, hresponder] at hnone
    dsimp only at hnone
    cases hp : t.server.sessions p with
    | none =>
      have hnone : t.atomic.sessions p = none := by simp [TftpServerThreads.State.atomic, hp]
      exact ((TftpServerThreads.consistent_atomic hrun).free p hnone).destroying
        (hatomic.trans hresponder)
    | some x =>
      -- It has notified, and so its thread is at its end.
      have hfinished : x.thread = .finished :=
        finished_of_destroying (TftpServerThreads.consistent_atomic hrun)
          (hatomic.trans hresponder) hp
      rcases h.finished_or_endless hstays hconsistent hholds hp with ⟨-, hidle⟩ | ⟨-, hendless⟩
      · rw [if_pos hidle, Option.map_eq_none_iff] at hnone
        simp [TftpServerV4.step, hresponder, hp, hfinished] at hnone
      · cases hfinished.symm.trans hendless

/-- At a standstill the queue is over, or the stop is to be notified of. -/
theorem over_of_stays {bs : List (ConcurrentQueue.Action EventType (Option Pointer))}
    (hbs : run ConcurrentQueue.step ConcurrentQueue.start bs = some t.queue)
    (hstays : Stays endless t)
    (hpopping : t.server.responder = .popping) : t.queue.stopper = .notifying ∨
      (∀ i, t.queue.producers i = .idle) ∧
        (t.queue.consumer = .ended ∨ t.queue.consumer = .blocked ∧ t.queue.queue = []) := by
  rcases ConcurrentQueue.goes_on_or_over hbs with hconsumer | ⟨i, hproducer⟩ | hover
  · have hnone := hstays .responder (by simp) (by simp) (by simp) (by simp)
    rw [TftpServerThreads.step, TftpServerThreads.responderStep, hpopping] at hnone
    dsimp only at hnone
    split at hnone
    · simp [Option.map_eq_none_iff.mp hnone] at hconsumer
    · simp [Option.map_eq_none_iff.mp hnone] at hconsumer
    · contradiction
  · have hnone := hstays (.push i) (by simp) (by simp) (by simp) (by simp)
    rw [TftpServerThreads.step] at hnone
    simp [Option.map_eq_none_iff.mp hnone] at hproducer
  · exact hover

theorem stays_of_step (hstays : ∀ a, a ≠ .thread .wake →
      (∀ p, endless p → a ≠ .thread (.store p)) → step s a = none) :
    Stays endless s.threads := by
  intro a hwake hreceive hstop hends
  have hnone := hstays (.thread a) (by simpa using hwake) (by simpa using hends)
  cases a with
  | receive o => exact absurd rfl (hreceive o)
  | stop => exact absurd rfl hstop
  | _ => simpa [step, threadStep] using hnone

/-- At a standstill where nobody is in the queue, the receiver has ended. -/
theorem ended_of_stays (hreceives : ∀ o, step s (.receiver o) = none)
    (hidle : s.threads.queue.producers none = .idle) : s.receiver = .ended := by
  have hnone := hreceives .timedOut
  cases hs : s.receiver with
  | ended => rfl
  | looping => simp [step, receiverStep, hs] at hnone
  | receiving => simp [step, receiverStep, hs, received, recvResult] at hnone
  | pushing => simp [step, receiverStep, hs, hidle] at hnone

/-- The destructor of `m_session_list` joins the thread of a session that is in its transfer. -/
def Joins (s : State) (p : Pointer) : Prop :=
  s.teardown.head? = some .sessions ∧ p ∈ s.threads.server.sessionList ∧
    ∃ number done, s.threads.server.sessions p = some ⟨number, done, .transferring⟩

/-- At a standstill in the destructor of `m_session_list`, the transfer that it waits for has no
end. -/
theorem Sound.joins_endless (h : Sound s) (hstays : Stays endless s.threads)
    (hconsistent : ConcurrentQueue.Consistent s.threads.queue) {rest : List TeardownStep}
    (hs : s.teardown = .sessions :: rest) (hnone : ∀ p, teardownStep s p = none) :
    ∃ p, endless p ∧ Joins s p := by
  have hjoined := h.outgoingJoined (hs ▸ notMem_of_lt (hs ▸ h.order) (by decide))
  by_cases hempty : s.threads.server.sessionList = ∅
  · simp [teardownStep, hs, hempty] at hnone
  · obtain ⟨p, hp⟩ := Finset.nonempty_iff_ne_empty.mpr hempty
    obtain ⟨⟨number, done, thread⟩, hx⟩ :=
      Option.ne_none_iff_exists'.mp ((hjoined.listed p).mp hp)
    have hholds : ¬s.threads.queue.consumer.Holds := by
      simp [hjoined.consumer, ConcurrentQueue.Consumer.Holds]
    rcases h.orderly.finished_or_endless hstays hconsistent hholds hx with
      ⟨hfinished, hreturned⟩ | ⟨hendless, htransferring⟩
    · -- A thread that has returned can be joined.
      replace hfinished : thread = .finished := hfinished
      have hnone' := hnone p
      simp [teardownStep, hs, hempty, destroySession, hx, hfinished, hp, hreturned] at hnone'
    · replace htransferring : thread = .transferring := htransferring
      exact ⟨p, hendless, by rw [hs, List.head?_cons], hp, number, done, htransferring ▸ hx⟩

/-- **The destructor returns**: when no thread can go on, it has returned, or the responder waits
for the notification of a stop that has been given already, or the destructor joins the thread of a
session whose transfer has no end. -/
theorem returns_or_stuck {as : List Action} (hrun : run step start as = some s)
    (hstays : ∀ a, a ≠ .thread .wake → (∀ p, endless p → a ≠ .thread (.store p)) →
      step s a = none) :
    s.teardown = [] ∨ ConcurrentQueue.Stuck s.threads.queue ∨ ∃ p, endless p ∧ Joins s p := by
  have h := sound_of_run hrun
  have hthreads := stays_of_step hstays
  by_cases hnil : s.teardown = []
  · exact .inl hnil
  obtain ⟨x, hx⟩ := List.exists_mem_of_ne_nil _ hnil
  obtain ⟨bs, hbs⟩ := h.queue (mem_of_le h.order hx (by cases x <;> decide))
  have hconsistent := ConcurrentQueue.consistent_run hbs
  have hpopping : s.threads.server.responder = .popping := by
    by_cases hmem : .joinOutgoing ∈ s.teardown
    · obtain ⟨as', has'⟩ := h.reached hmem
      exact popping_of_stays has' h.orderly hconsistent hthreads
    · exact (h.outgoingJoined hmem).responder
  have hnone (p : Pointer) : teardownStep s p = none := hstays (.teardown p) (by simp) (by simp)
  rcases over_of_stays hbs hthreads hpopping with hnotifying | ⟨hidle, hconsumer⟩
  · obtain ⟨rest, hs⟩ : ∃ rest, s.teardown = .stopOutgoing :: rest :=
      List.head?_eq_some_iff.mp (h.notifying hnotifying)
    simp [teardownStep, hs, hnotifying, TftpServerThreads.step, ConcurrentQueue.stopperStep]
      at hnone
  have hreceiver := ended_of_stays (fun o => hstays (.receiver o) (by simp) (by simp)) (hidle none)
  -- Each step of the destructor can be taken, but for those that join the responder or a session.
  cases hs : s.teardown with
  | nil => exact .inl rfl
  | cons first rest =>
    cases first with
    | stopIncoming => simp [teardownStep, hs] at hnone
    | joinIncoming => simp [teardownStep, hs, hreceiver] at hnone
    | stopOutgoing =>
      cases hstopper : s.threads.queue.stopper
      all_goals
        simp [teardownStep, hs, hstopper, TftpServerThreads.step, ConcurrentQueue.stopperStep]
          at hnone
    | joinOutgoing =>
      rcases hconsumer with hended | ⟨hblocked, -⟩
      · simp [teardownStep, hs, hended] at hnone
      · have hreturned := h.outgoingStopped (hs ▸ notMem_of_lt (hs ▸ h.order) (by decide))
        exact .inr (.inl ⟨hblocked, ⟨hidle, by simp [hreturned]⟩,
          .inr (hconsistent.requested.mpr (by simp [hreturned]))⟩)
    | sessions => exact .inr (.inr (h.joins_endless hthreads hconsistent hs hnone))
    | events => simp [teardownStep, hs] at hnone

/-- **A transfer without an end blocks the destructor**: when it joins the sessions, and only such
sessions are left, no thread can go on. -/
theorem stays_of_endless (hteardown : s.teardown.head? = some .sessions)
    (hreceiver : s.receiver = .ended) (hjoined : Joined s.threads)
    (hidle : ∀ i, s.threads.queue.producers i = .idle)
    (hlist : s.threads.server.sessionList ≠ ∅)
    (hsessions : ∀ p x, s.threads.server.sessions p = some x →
      x.thread = .transferring ∧ endless p)
    {a : Action} (hends : ∀ p, endless p → a ≠ .thread (.store p)) : step s a = none := by
  cases a with
  | receiver o => rw [step, receiverStep, hreceiver]
  | thread a =>
    cases hstep : step s (.thread a) with
    | none => rfl
    | some s' =>
      obtain ⟨hreceive, hstop, threads, hthreads, -⟩ := threadStep_eq_some hstep
      refine absurd (moves_of_step hthreads) (hjoined.not_moves hidle (fun p x hx => ?_)
        hreceive hstop)
      obtain ⟨htransferring, hendless⟩ := hsessions p x hx
      exact ⟨htransferring, fun ha => hends p hendless (by rw [ha])⟩
  | teardown p =>
    obtain ⟨rest, hs⟩ := List.head?_eq_some_iff.mp hteardown
    rw [step, teardownStep, hs]
    dsimp only
    rw [if_neg hlist, Option.map_eq_none_iff, destroySession]
    split
    · cases (hsessions p _ ‹_›).1
    · rfl

/-- The server is destroyed during the transfer to a client that has asked for the time-out 0, and
is silent once it has that. -/
def withoutTimeout : List Action :=
  [.receiver .timedOut, .receiver (.datagram ⟨1, 69⟩ ([0, 1, 97, 0, 111, 99, 116, 101, 116, 0] ++
    [116, 105, 109, 101, 111, 117, 116, 0, 48, 0]))] ++ (duringTransfer.take 23).drop 2

theorem run_withoutTimeout : ((run step start withoutTimeout).map fun s => (s.teardown, s.receiver,
    s.threads.server.sessionList, s.threads.server.sessions 1)) =
      some ([.sessions, .events], .ended, {1}, some ⟨0, false, .transferring⟩) := by
  decide +kernel

/-- The session is joined for ever. -/
theorem returns_or_stuck_withoutTimeout : ∃ s, run step start withoutTimeout = some s ∧
    (∀ a, a ≠ .thread .wake → (∀ p, p = 1 → a ≠ .thread (.store p)) → step s a = none) ∧
      s.teardown ≠ [] ∧ (s.teardown = [] ∨ ConcurrentQueue.Stuck s.threads.queue ∨
        ∃ p, p = 1 ∧ Joins s p) := by
  obtain ⟨s, hrun, hs⟩ := Option.map_eq_some_iff.mp run_withoutTimeout
  obtain ⟨hteardown, hs⟩ := Prod.mk.inj hs
  obtain ⟨hreceiver, hs⟩ := Prod.mk.inj hs
  obtain ⟨hlist, hsession⟩ := Prod.mk.inj hs
  have h := sound_of_run hrun
  have hjoined : Joined s.threads := h.outgoingJoined (by simp [hteardown])
  have hx (p : Pointer) (x : Session) (hp : s.threads.server.sessions p = some x) :
      x.thread = .transferring ∧ p = 1 := by
    have hone : p = 1 := by simpa [hlist] using (hjoined.listed p).mpr (by simp [hp])
    subst hone
    obtain rfl := Option.some.inj (hsession.symm.trans hp)
    exact ⟨rfl, rfl⟩
  have hidle (i : Option Pointer) : s.threads.queue.producers i = .idle := by
    cases i with
    | none => exact h.idle (by simp [hreceiver])
    | some p => exact h.orderly.idle fun number done hp => nomatch (hx p _ hp).1
  have hstays (a : Action) (_ : a ≠ .thread .wake) (hends : ∀ p, p = 1 → a ≠ .thread (.store p)) :
      step s a = none :=
    stays_of_endless (by rw [hteardown, List.head?_cons]) hreceiver hjoined hidle (by simp [hlist])
      hx hends
  exact ⟨s, hrun, hstays, by simp [hteardown], returns_or_stuck hrun hstays⟩

end TftpTeardown

end Bootpd
