import Bootpd.ConcurrentQueueProgress
import Bootpd.TftpSessionList

/-!
# `tftp_server_v4`: the threads around the real queue

`TftpServerV4` takes `m_events` for a list that is pushed to and popped from in one step. Here the
receiver, the session threads and the responder go through `push` and `pop` of `concurrent_queue`
step by step, with its mutex and its condition variable, and the responder may be asked to stop.
Every run of these threads is a run of `TftpServerV4` if one looks at it through `atomic`: an event
counts as pushed when it gets into the queue, and as popped when it leaves it.

## What is looked through

Between the call of `push` and the moment at which the event is in the queue, the thread that
pushes is on its way. For a session thread `atomic` takes this time for the time in front of
`session_notify`, so that nothing is pending that is not in the queue yet. Between the moment at
which `pop` has taken an event and its return, the responder is on its way, and `atomic` has it
visiting the event already. Every other step inside the queue shows nothing.

The server of the list is not asked to stop. A stop is not seen in it: a responder that has left its
loop is one that takes no further step. What comes after is in `TftpTeardown`.

## Main definitions

* `TftpServerThreads.State.atomic` — the server with a list for its queue
* `TftpServerThreads.Shows`, `TftpServerThreads.Follows` — what a step shows, and a run of the list
  that goes along with a run of the threads, step by step

## Main results

* `TftpServerThreads.simulates` — a step of a thread is one of the server, or is not seen
* `TftpServerThreads.refines` — one run of the server goes along with every run of the threads
* `TftpServerThreads.alive_of_run` — a session is not destroyed while it is being notified
-/

namespace Bootpd

open SocketUdp Transition TftpServerV4

namespace TftpServerThreads

/-! ### The threads -/

/-- The server with a queue that is used step by step. -/
structure State where
  /-- `m_events`. The responder is its consumer; the receiver, and the session thread of each
  address, are its producers. -/
  queue : ConcurrentQueue.State EventType (Option Pointer)
  /-- The rest of the server. Its `events` is not used, and a session thread that has called
  `session_notify` is `finished`, though it may still be in `push`. -/
  server : TftpServerV4.State

/-- One step of one thread: in the queue, or around it as in `TftpServerV4.Action`. -/
inductive Action where
  /-- The receiver has received, and calls `push` if there is something to push. -/
  | receive (o : RecvOutcome)
  /-- The receiver or a session thread, in `push`. -/
  | push (i : Option Pointer)
  /-- The responder, in the loop and in `pop`. -/
  | responder
  /-- The responder wakes for no reason. -/
  | wake
  /-- The one who calls `request_stop` for the responder. -/
  | stop
  | visit (sys : System) (allocated : Option Pointer)
  | emplace
  | destroy
  | store (session : Pointer)
  /-- A session thread calls `session_notify(this)`. -/
  | notify (session : Pointer)

/-- The responder is in `pop`, or in front of it. -/
def responderStep (s : State) : Option State :=
  match s.server.responder, s.queue.consumer with
  | .popping, .leaving (some event) =>
    (ConcurrentQueue.consumerStep s.queue).map fun queue =>
      ⟨queue, { s.server with responder := .visiting event }⟩
  | .popping, _ => (ConcurrentQueue.consumerStep s.queue).map fun queue => { s with queue }
  | _, _ => none

/-- The destructor of a session returns when its thread has. -/
def destroyStep (s : State) : Option State :=
  match s.server.responder with
  | .destroying p =>
    if s.queue.producers (some p) = .idle then
      (TftpServerV4.step s.server .destroy).map fun server => { s with server }
    else none
  | _ => none

/-- `session_notify(this)` begins: the session thread calls `push`. -/
def notifyStep (s : State) (p : Pointer) : Option State :=
  match s.server.sessions p with
  | some ⟨number, done, .notifying⟩ =>
    (ConcurrentQueue.step s.queue (.call (some p) (.notify p number))).map fun queue =>
      ⟨queue, { s.server with
        sessions := Function.update s.server.sessions p (some ⟨number, done, .finished⟩) }⟩
  | _ => none

/-- A step, or `none` where the thread cannot go on. -/
def step (s : State) : Action → Option State
  | .receive o =>
    match received o with
    | some (source, bits) =>
      (ConcurrentQueue.step s.queue (.call none (.packet source bits))).map fun queue =>
        { s with queue }
    | none => some s
  | .push i => (ConcurrentQueue.producerStep s.queue i).map fun queue => { s with queue }
  | .responder => responderStep s
  | .wake => (ConcurrentQueue.step s.queue .wake).map fun queue => { s with queue }
  | .stop => (ConcurrentQueue.stopperStep s.queue).map fun queue => { s with queue }
  | .visit sys allocated =>
    (TftpServerV4.step s.server (.visit sys allocated)).map fun server => { s with server }
  | .emplace => (TftpServerV4.step s.server .emplace).map fun server => { s with server }
  | .destroy => destroyStep s
  | .store p => (TftpServerV4.step s.server (.store p)).map fun server => { s with server }
  | .notify p => notifyStep s p

/-- The threads after `start`. -/
def start : State := ⟨ConcurrentQueue.start, TftpServerV4.start⟩

/-! ### What the threads amount to -/

/-- A session thread that is in `push`, in front of the queue, has not notified yet. -/
def beforePush (queue : ConcurrentQueue.State EventType (Option Pointer)) (p : Pointer)
    (x : Session) : Session :=
  if (queue.producers (some p)).inCall = [] then x else { x with thread := .notifying }

/-- The server with a list for its queue. -/
def State.atomic (s : State) : TftpServerV4.State :=
  { s.server with
    events := s.queue.queue
    responder :=
      match s.queue.consumer.inHand with
      | event :: _ => .visiting event
      | [] => s.server.responder
    sessions := fun p => (s.server.sessions p).map (beforePush s.queue p) }

/-- What the queue and the rest of the server have to do with each other. -/
structure Sound (s : State) : Prop where
  /-- The responder has returned from `pop` before it visits. -/
  inHand : s.server.responder ≠ .popping → s.queue.consumer.inHand = []
  packet : ∀ event ∈ (s.queue.producers none).inCall, ∃ source bits,
    event = .packet source bits ∧ received (.datagram source bits) = some (source, bits)
  notify : ∀ p, ∀ event ∈ (s.queue.producers (some p)).inCall, ∃ number done,
    event = .notify p number ∧ s.server.sessions p = some ⟨number, done, .finished⟩

variable {s s' : State}

theorem sound_start : Sound start :=
  ⟨fun h => absurd rfl h, by rintro _ ⟨⟩, by rintro _ _ ⟨⟩⟩

/-- A session that has not called `session_notify`. -/
theorem Sound.inCall_eq_nil (h : Sound s) {p : Pointer}
    (hp : ∀ number done, s.server.sessions p ≠ some ⟨number, done, .finished⟩) :
    (s.queue.producers (some p)).inCall = [] := by
  rw [List.eq_nil_iff_forall_not_mem]
  intro event hevent
  obtain ⟨number, done, -, hsession⟩ := h.notify p event hevent
  exact hp number done hsession

theorem beforePush_of_nil {queue : ConcurrentQueue.State EventType (Option Pointer)} {p : Pointer}
    (h : (queue.producers (some p)).inCall = []) (x : Session) : beforePush queue p x = x :=
  if_pos h

theorem sessions_congr {queue : ConcurrentQueue.State EventType (Option Pointer)} {p : Pointer}
    (h : (queue.producers (some p)).inCall = (s.queue.producers (some p)).inCall) :
    (s.server.sessions p).map (beforePush queue p) = s.atomic.sessions p := by
  show _ = (s.server.sessions p).map (beforePush s.queue p)
  congr 1
  funext x
  rw [beforePush, beforePush, h]

/-- What the queue does is not seen, unless an event gets in or out. -/
theorem atomic_queue {queue : ConcurrentQueue.State EventType (Option Pointer)}
    (hconsumer : queue.consumer.inHand = s.queue.consumer.inHand)
    (hproducers : ∀ p, (queue.producers (some p)).inCall = (s.queue.producers (some p)).inCall) :
    ({ s with queue } : State).atomic = { s.atomic with events := queue.queue } := by
  have hsessions : (fun p => (s.server.sessions p).map (beforePush queue p)) =
      s.atomic.sessions := funext fun p => sessions_congr (hproducers p)
  simp only [State.atomic, hconsumer] at hsessions ⊢
  rw [hsessions]

theorem eq_datagram_of_received {o : RecvOutcome} {source : AddressV4} {bits : List UInt8}
    (ho : received o = some (source, bits)) : o = .datagram source bits := by
  rw [received] at ho
  split at ho
  · rename_i hresult
    obtain ⟨-, heq⟩ := Option.ite_none_left_eq_some.mp ho
    obtain ⟨rfl, rfl⟩ := Prod.mk.inj (Option.some.inj heq)
    exact eq_datagram_of_recvResult hresult
  · cases ho

/-- A call of `push` is not seen. -/
theorem call_eq {i : Option Pointer} {event : EventType}
    {queue queue' : ConcurrentQueue.State EventType (Option Pointer)}
    (hcall : ConcurrentQueue.step queue (.call i event) = some queue') :
    queue.producers i = .idle ∧ queue'.queue = queue.queue ∧ queue'.consumer = queue.consumer ∧
      queue'.producers = Function.update queue.producers i (.locking event) := by
  rw [ConcurrentQueue.step] at hcall
  split at hcall
  · obtain rfl := Option.some.inj hcall
    exact ⟨‹_›, rfl, rfl, rfl⟩
  · cases hcall

/-- A responder that wakes is still in `pop`. -/
theorem wake_eq {queue queue' : ConcurrentQueue.State EventType (Option Pointer)}
    (hwake : ConcurrentQueue.step queue .wake = some queue') :
    queue'.queue = queue.queue ∧ queue'.consumer.inHand = queue.consumer.inHand ∧
      queue'.producers = queue.producers := by
  rw [ConcurrentQueue.step] at hwake
  split at hwake
  · rename_i hblocked
    obtain rfl := Option.some.inj hwake
    exact ⟨rfl, by rw [hblocked]; rfl, rfl⟩
  · cases hwake

/-- What an action of the threads is for the server: its own action, the one that `push` or `pop`
completes, or none. -/
inductive Shows : Action → Option TftpServerV4.Action → Prop
  | receive (o : RecvOutcome) : Shows (.receive o) none
  | wake : Shows .wake none
  | stop : Shows .stop none
  | notify (p : Pointer) : Shows (.notify p) none
  | push (i : Option Pointer) : Shows (.push i) none
  /-- A datagram gets into the queue. -/
  | received (source : AddressV4) (bits : List UInt8) :
    Shows (.push none) (some (.receive (.datagram source bits)))
  /-- A notification gets into the queue. -/
  | notified (p : Pointer) : Shows (.push (some p)) (some (.notify p))
  | responder : Shows .responder none
  /-- An event leaves the queue. -/
  | popped : Shows .responder (some .pop)
  | visit (sys : System) (allocated : Option Pointer) :
    Shows (.visit sys allocated) (some (.visit sys allocated))
  | emplace : Shows .emplace (some .emplace)
  | destroy : Shows .destroy (some .destroy)
  | store (p : Pointer) : Shows (.store p) (some (.store p))

/-- The server does what an action of the threads shows. -/
def Follows (a : Action) (t t' : TftpServerV4.State) : Prop :=
  ∃ b, Shows a b ∧ run TftpServerV4.step t b.toList = some t'

theorem Follows.of_eq {a : Action} {t t' : TftpServerV4.State} (ha : Shows a none)
    (h : t' = t) : Follows a t t' := ⟨none, ha, congrArg some h.symm⟩

theorem Follows.of_step {a : Action} {t t' : TftpServerV4.State} {b : TftpServerV4.Action}
    (ha : Shows a (some b)) (h : TftpServerV4.step t b = some t') : Follows a t t' :=
  ⟨some b, ha, by rw [Option.toList_some, run, h]; rfl⟩

/-! ### The steps of the queue -/

/-- **The receiver or a session thread** in `push`. -/
theorem Sound.push_step (h : Sound s) {i : Option Pointer}
    {queue : ConcurrentQueue.State EventType (Option Pointer)}
    (hstep : ConcurrentQueue.producerStep s.queue i = some queue) :
    Sound { s with queue } ∧ Follows (.push i) s.atomic ({ s with queue } : State).atomic := by
  obtain ⟨hothers, -, -⟩ := ConcurrentQueue.others_producerStep hstep
  obtain ⟨hhand, hpushes⟩ := ConcurrentQueue.pushes_or_stays hstep
  have hsub (j : Option Pointer) : ∀ event ∈ (queue.producers j).inCall,
      event ∈ (s.queue.producers j).inCall := by
    intro event hevent
    by_cases hj : j = i
    · subst hj
      rcases hpushes with ⟨value, -, hcall, -⟩ | ⟨-, hcall⟩
      · rw [hcall] at hevent
        cases hevent
      · exact hcall ▸ hevent
    · rwa [hothers j hj] at hevent
  have hsound : Sound { s with queue } :=
    ⟨fun hs => hhand.trans (h.inHand hs), fun event hevent => h.packet event (hsub none _ hevent),
      fun p event hevent => h.notify p event (hsub (some p) _ hevent)⟩
  refine ⟨hsound, ?_⟩
  rcases hpushes with ⟨value, hcall, hcall', hqueue⟩ | ⟨hqueue, hcall⟩
  · cases i with
    | none =>
      obtain ⟨source, bits, rfl, hreceived⟩ := h.packet value (by simp [hcall])
      refine .of_step (.received source bits) ?_
      rw [atomic_queue hhand fun p => by rw [hothers (some p) (by simp)], hqueue]
      simp only [TftpServerV4.step, hreceived]
      rfl
    | some p =>
      obtain ⟨number, done, rfl, hsession⟩ := h.notify p value (by simp [hcall])
      refine .of_step (.notified p) ?_
      have hp : s.atomic.sessions p = some ⟨number, done, .notifying⟩ := by
        simp [State.atomic, hsession, beforePush, hcall]
      have hsessions : (fun q => (s.server.sessions q).map (beforePush queue q)) =
          Function.update s.atomic.sessions p (some ⟨number, done, .finished⟩) := by
        funext q
        by_cases hq : q = p
        · subst hq
          rw [Function.update_self, hsession]
          exact congrArg some (beforePush_of_nil hcall' _)
        · rw [Function.update_of_ne hq]
          exact sessions_congr (by rw [hothers (some q) (by simpa using hq)])
      have hatomic : ({ s with queue } : State).atomic = { s.atomic with
          sessions := Function.update s.atomic.sessions p (some ⟨number, done, .finished⟩)
          events := s.atomic.events ++ [.notify p number] } := by
        simp only [State.atomic, hhand, hqueue] at hsessions ⊢
        rw [hsessions]
      simp only [TftpServerV4.step, hp, hatomic]
  · refine .of_eq (.push i) ((atomic_queue hhand fun p => ?_).trans (by rw [hqueue]; rfl))
    by_cases hp : some p = i
    · rw [hp, hcall]
    · rw [hothers _ hp]

/-- **The responder** in the loop and in `pop`. -/
theorem Sound.responder_step (h : Sound s) (hstep : responderStep s = some s') :
    Sound s' ∧ Follows .responder s.atomic s'.atomic := by
  rw [responderStep] at hstep
  split at hstep
  · -- `pop` returns, and the event is being visited already.
    rename_i event hpopping hleaving
    obtain ⟨queue, hqueue, rfl⟩ := Option.map_eq_some_iff.mp hstep
    obtain rfl := ConcurrentQueue.consumerStep_of_leaving hleaving hqueue
    refine ⟨⟨fun _ => rfl, h.packet, h.notify⟩, .of_eq .responder ?_⟩
    simp only [State.atomic, hleaving, ConcurrentQueue.Consumer.inHand]
    rfl
  · rename_i hpopping hleaving
    obtain ⟨queue, hqueue, rfl⟩ := Option.map_eq_some_iff.mp hstep
    obtain ⟨hproducers, -, -⟩ := ConcurrentQueue.producers_consumerStep hqueue
    refine ⟨⟨fun hs => absurd hpopping hs, hproducers ▸ h.packet, hproducers ▸ h.notify⟩, ?_⟩
    rcases ConcurrentQueue.takes_or_stays (fun value => hleaving value) hqueue with
      ⟨event, hevents, hhand, hhand'⟩ | ⟨hevents, hhand⟩
    · refine .of_step .popped ?_
      have hresponder : s.atomic.responder = .popping := by simp [State.atomic, hhand, hpopping]
      have hevents' : s.atomic.events = event :: queue.queue := hevents
      have hsessions : (fun p => (s.server.sessions p).map (beforePush queue p)) =
          s.atomic.sessions := funext fun p => sessions_congr (by rw [hproducers])
      have hatomic : ({ s with queue } : State).atomic =
          { s.atomic with events := queue.queue, responder := .visiting event } := by
        simp only [State.atomic, hhand'] at hsessions ⊢
        rw [hsessions]
      simp only [TftpServerV4.step, hresponder, hevents', hatomic]
    · exact .of_eq .responder
        ((atomic_queue hhand fun p => by rw [hproducers]).trans (by rw [hevents]; rfl))
  · cases hstep

/-! ### The other steps -/

/-- Outside `pop` the responder is where the server has it. -/
theorem Sound.responder_eq (h : Sound s) (hs : s.server.responder ≠ .popping) :
    s.atomic.responder = s.server.responder := by
  simp [State.atomic, h.inHand hs]

/-- A step of the server at an address where nobody is in `push`. -/
theorem atomic_update (server : TftpServerV4.State) {p : Pointer} {x : Option Session}
    (hp : (s.queue.producers (some p)).inCall = [])
    (hsessions : server.sessions = Function.update s.server.sessions p x) :
    (⟨s.queue, server⟩ : State).atomic.sessions = Function.update s.atomic.sessions p x := by
  funext q
  show (server.sessions q).map (beforePush s.queue q) = _
  rw [hsessions]
  by_cases hq : q = p
  · subst hq
    rw [Function.update_self, Function.update_self]
    cases x with
    | none => rfl
    | some x => exact congrArg some (beforePush_of_nil hp x)
  · rw [Function.update_of_ne hq, Function.update_of_ne hq]
    rfl

/-- What is in `push` stays there. -/
theorem Sound.update (h : Sound s) {server : TftpServerV4.State} {p : Pointer}
    {x : Option Session} (hp : (s.queue.producers (some p)).inCall = [])
    (hsessions : server.sessions = Function.update s.server.sessions p x)
    (hhand : server.responder ≠ .popping → s.queue.consumer.inHand = []) :
    Sound ⟨s.queue, server⟩ := by
  refine ⟨hhand, h.packet, fun q event hevent => ?_⟩
  by_cases hq : q = p
  · subst hq
    rw [hp] at hevent
    cases hevent
  · obtain ⟨number, done, heq, hsession⟩ := h.notify q event hevent
    refine ⟨number, done, heq, ?_⟩
    show server.sessions q = _
    rw [hsessions, Function.update_of_ne hq]
    exact hsession

/-- **A session thread** calls `session_notify`. -/
theorem Sound.notify_step (h : Sound s) {p : Pointer} (hstep : notifyStep s p = some s') :
    Sound s' ∧ Follows (.notify p) s.atomic s'.atomic := by
  rw [notifyStep] at hstep
  split at hstep
  · rename_i number done hsession
    obtain ⟨queue, hcall, rfl⟩ := Option.map_eq_some_iff.mp hstep
    obtain ⟨hidle, hqueue, hconsumer, hproducers⟩ := call_eq hcall
    have hnil : (s.queue.producers (some p)).inCall = [] := by rw [hidle]; rfl
    have hp : (queue.producers (some p)).inCall = [.notify p number] := by
      rw [hproducers, Function.update_self]
      rfl
    have hothers (j : Option Pointer) (hj : j ≠ some p) :
        queue.producers j = s.queue.producers j := by rw [hproducers, Function.update_of_ne hj]
    refine ⟨⟨fun hs => (congrArg _ hconsumer).trans (h.inHand hs), ?_, fun q event hevent => ?_⟩,
      .of_eq (.notify p) ?_⟩
    · intro event hevent
      exact h.packet event (hothers none (by simp) ▸ hevent)
    · by_cases hq : q = p
      · subst hq
        rw [hp] at hevent
        obtain rfl := List.mem_singleton.mp hevent
        exact ⟨number, done, rfl, Function.update_self ..⟩
      · obtain ⟨number', done', heq, hsession'⟩ :=
          h.notify q event (hothers (some q) (by simpa using hq) ▸ hevent)
        exact ⟨number', done', heq, (Function.update_of_ne hq ..).trans hsession'⟩
    · -- It has not pushed yet.
      have hsessions : (fun q => (Function.update s.server.sessions p
          (some ⟨number, done, .finished⟩) q).map (beforePush queue q)) = s.atomic.sessions := by
        funext q
        by_cases hq : q = p
        · subst hq
          show _ = (s.server.sessions q).map (beforePush s.queue q)
          rw [Function.update_self, hsession, Option.map_some, Option.map_some,
            beforePush_of_nil hnil, beforePush, hp]
          rfl
        · rw [Function.update_of_ne hq]
          exact sessions_congr (by rw [hothers (some q) (by simpa using hq)])
      simp only [State.atomic, hqueue, hconsumer] at hsessions ⊢
      rw [hsessions]
  · cases hstep

/-- A session at an address where nobody is in `push`. -/
theorem session_eq {p : Pointer} {x : Option Session}
    (hp : (s.queue.producers (some p)).inCall = []) (hx : s.server.sessions p = x) :
    s.atomic.sessions p = x := by
  show (s.server.sessions p).map (beforePush s.queue p) = x
  rw [hx]
  cases x with
  | none => rfl
  | some x => exact congrArg some (beforePush_of_nil hp x)

/-- The destructor of a session returns. -/
theorem Sound.destroy_step (h : Sound s) (hstep : destroyStep s = some s') :
    Sound s' ∧ Follows .destroy s.atomic s'.atomic := by
  rw [destroyStep] at hstep
  split at hstep
  · rename_i p hdestroying
    obtain ⟨hidle, hstep⟩ := Option.ite_none_right_eq_some.mp hstep
    obtain ⟨server, hserver, rfl⟩ := Option.map_eq_some_iff.mp hstep
    have hnil : (s.queue.producers (some p)).inCall = [] := by rw [hidle]; rfl
    have hhand := h.inHand (by simp [hdestroying])
    have hresponder := h.responder_eq (by simp [hdestroying])
    rw [hdestroying] at hresponder
    cases steps_of_step hserver with
    | @dangles q hs hp =>
      obtain rfl := Responder.destroying.inj (hdestroying.symm.trans hs)
      refine ⟨⟨fun _ => hhand, h.packet, h.notify⟩, .of_step .destroy ?_⟩
      simp only [TftpServerV4.step, hresponder, session_eq hnil hp]
      simp only [State.atomic, hhand]
    | @destroys q session hs hp hfinished =>
      obtain rfl := Responder.destroying.inj (hdestroying.symm.trans hs)
      refine ⟨h.update hnil rfl fun _ => hhand, .of_step .destroy ?_⟩
      simp only [TftpServerV4.step, hresponder, session_eq hnil hp, hfinished, if_true]
      rw [← atomic_update { s.server with
        sessions := Function.update s.server.sessions p none, responder := .popping } hnil rfl]
      simp only [State.atomic, hhand]
  · cases hstep

/-- The responder enters a session into the list. -/
theorem Sound.emplace_step (h : Sound s) {server : TftpServerV4.State}
    (hstep : TftpServerV4.step s.server .emplace = some server) :
    Sound { s with server } ∧ Follows .emplace s.atomic ({ s with server } : State).atomic := by
  cases steps_of_step hstep with
  | @drops p hs hp =>
    have hhand := h.inHand (by simp [hs])
    have hresponder := h.responder_eq (by simp [hs])
    refine ⟨⟨fun _ => hhand, h.packet, h.notify⟩, .of_step .emplace ?_⟩
    have hlisted : p ∈ s.atomic.sessionList := hp
    simp only [TftpServerV4.step, hresponder, hs, hlisted, if_true]
    simp only [State.atomic, hhand]
  | @emplaces p hs hp =>
    have hhand := h.inHand (by simp [hs])
    have hresponder := h.responder_eq (by simp [hs])
    refine ⟨⟨fun _ => hhand, h.packet, h.notify⟩, .of_step .emplace ?_⟩
    have hlisted : p ∉ s.atomic.sessionList := hp
    simp only [TftpServerV4.step, hresponder, hs, hlisted, if_false]
    simp only [State.atomic, hhand]

/-- A session thread sets `m_done`. -/
theorem Sound.store_step (h : Sound s) {p : Pointer} {server : TftpServerV4.State}
    (hstep : TftpServerV4.step s.server (.store p) = some server) :
    Sound { s with server } ∧ Follows (.store p) s.atomic ({ s with server } : State).atomic := by
  cases steps_of_step hstep with
  | @stores _ number done hp =>
    have hnil := h.inCall_eq_nil (p := p) (by simp [hp])
    refine ⟨h.update hnil rfl h.inHand, .of_step (.store p) ?_⟩
    simp only [TftpServerV4.step, session_eq hnil hp]
    rw [← atomic_update { s.server with
      sessions := Function.update s.server.sessions p (some ⟨number, true, .notifying⟩)
      marked := s.server.marked ++ [number] } hnil rfl]
    rfl

/-- The responder handles a datagram. -/
theorem Sound.visitDatagram_step (h : Sound s) {sys : System} {allocated : Option Pointer}
    {source : AddressV4} {bits : List UInt8} {server : TftpServerV4.State}
    (hs : s.server.responder = .visiting (.packet source bits))
    (hvisit : visitDatagram s.server sys allocated source bits = some server) :
    Sound { s with server } ∧
      visitDatagram s.atomic sys allocated source bits =
        some ({ s with server } : State).atomic := by
  have hhand := h.inHand (by simp [hs])
  have hio : s.atomic.io = s.server.io := rfl
  rw [visitDatagram] at hvisit ⊢
  rw [hio]
  rcases hexec : Imperative.exec (visitEvent sys source bits) s.server.io with ⟨result, io⟩
  rw [hexec] at hvisit
  dsimp only at hvisit ⊢
  split at hvisit
  · rename_i p
    obtain ⟨⟨hnull, hfree⟩, hvisit⟩ := Option.ite_none_right_eq_some.mp hvisit
    obtain rfl := Option.some.inj hvisit
    have hnil := h.inCall_eq_nil (p := p) (by simp [hfree])
    refine ⟨h.update hnil rfl fun _ => hhand, ?_⟩
    have hcreated : s.atomic.created = s.server.created := rfl
    rw [if_pos ⟨hnull, session_eq hnil hfree⟩, hcreated,
      ← atomic_update { s.server with
        io, responder := .emplacing p, created := s.server.created + 1
        sessions := Function.update s.server.sessions p
          (some ⟨s.server.created, false, .transferring⟩) } hnil rfl]
    simp only [State.atomic, hhand]
  · obtain rfl := Option.some.inj hvisit
    refine ⟨⟨fun _ => hhand, h.packet, h.notify⟩, ?_⟩
    simp only [State.atomic, hhand]

/-- The responder handles a notification. -/
theorem Sound.visitNotify_step (h : Sound s) {who : Pointer} {number : ℕ}
    (hs : s.server.responder = .visiting (.notify who number)) :
    Sound { s with server := visitNotify s.server who } ∧
      visitNotify s.atomic who =
        ({ s with server := visitNotify s.server who } : State).atomic := by
  have hhand := h.inHand (by simp [hs])
  have hsessions : (visitNotify s.server who).sessions = s.server.sessions := by
    rw [visitNotify]
    split_ifs
    · rfl
    · split
      · rfl
      · split_ifs <;> rfl
  refine ⟨⟨fun _ => hhand, h.packet, hsessions ▸ h.notify⟩, ?_⟩
  have hatomic : s.atomic.sessions who = (s.server.sessions who).map (beforePush s.queue who) := rfl
  have hlist : s.atomic.sessionList = s.server.sessionList := rfl
  rw [visitNotify, visitNotify, hatomic, hlist]
  split_ifs with hnull
  · simp only [State.atomic, hhand]
  · cases hsession : s.server.sessions who with
    | none => simp only [Option.map_none, State.atomic, hhand]
    | some x =>
      have hdone : (beforePush s.queue who x).done = x.done ∧
          (beforePush s.queue who x).number = x.number := by
        rw [beforePush]
        split <;> exact ⟨rfl, rfl⟩
      rw [Option.map_some]
      simp only [hdone.1, hdone.2]
      split_ifs <;> simp only [State.atomic, hhand]

/-! ### The threads and the server -/

/-- **A step of a thread** is one of the server, or is not seen. -/
theorem Sound.atomic_step {a : Action} (h : Sound s) (hstep : step s a = some s') :
    Sound s' ∧ Follows a s.atomic s'.atomic := by
  cases a with
  | receive o =>
    rw [step] at hstep
    split at hstep
    · rename_i source bits ho
      obtain ⟨queue, hcall, rfl⟩ := Option.map_eq_some_iff.mp hstep
      obtain ⟨hidle, hqueue, hconsumer, hproducers⟩ := call_eq hcall
      have hothers (p : Pointer) : queue.producers (some p) = s.queue.producers (some p) := by
        rw [hproducers, Function.update_of_ne (by simp)]
      refine ⟨⟨fun hs => (congrArg _ hconsumer).trans (h.inHand hs), fun event hevent => ?_,
        fun p event hevent => h.notify p event (hothers p ▸ hevent)⟩, .of_eq (.receive o) ?_⟩
      · rw [hproducers, Function.update_self] at hevent
        exact ⟨source, bits, List.mem_singleton.mp hevent, eq_datagram_of_received ho ▸ ho⟩
      · rw [atomic_queue (by rw [hconsumer]) fun p => by rw [hothers p], hqueue]
        rfl
    · obtain rfl := Option.some.inj hstep
      exact ⟨h, .of_eq (.receive o) rfl⟩
  | push i =>
    obtain ⟨queue, hqueue, rfl⟩ := Option.map_eq_some_iff.mp hstep
    exact h.push_step hqueue
  | responder => exact h.responder_step hstep
  | wake =>
    obtain ⟨queue, hwake, rfl⟩ := Option.map_eq_some_iff.mp hstep
    obtain ⟨hqueue, hhand, hproducers⟩ := wake_eq hwake
    refine ⟨⟨fun hs => hhand.trans (h.inHand hs), hproducers ▸ h.packet,
      hproducers ▸ h.notify⟩, .of_eq .wake ?_⟩
    rw [atomic_queue hhand fun p => by rw [hproducers], hqueue]
    rfl
  | stop =>
    obtain ⟨queue, hstop, rfl⟩ := Option.map_eq_some_iff.mp hstep
    obtain ⟨hqueue, hhand, hproducers⟩ := ConcurrentQueue.stays_stopperStep hstop
    refine ⟨⟨fun hs => hhand.trans (h.inHand hs), hproducers ▸ h.packet,
      hproducers ▸ h.notify⟩, .of_eq .stop ?_⟩
    rw [atomic_queue hhand fun p => by rw [hproducers], hqueue]
    rfl
  | visit sys allocated =>
    obtain ⟨server, hserver, rfl⟩ := Option.map_eq_some_iff.mp hstep
    cases steps_of_step hserver with
    | visitsPacket hs hvisit =>
      obtain ⟨hsound, hatomic⟩ := h.visitDatagram_step hs hvisit
      refine ⟨hsound, .of_step (.visit sys allocated) ?_⟩
      simp only [TftpServerV4.step, h.responder_eq (by simp [hs]), hs, hatomic]
    | visitsNotify hs =>
      obtain ⟨hsound, hatomic⟩ := h.visitNotify_step hs
      refine ⟨hsound, .of_step (.visit sys allocated) ?_⟩
      simp only [TftpServerV4.step, h.responder_eq (by simp [hs]), hs, hatomic]
  | emplace =>
    obtain ⟨server, hserver, rfl⟩ := Option.map_eq_some_iff.mp hstep
    exact h.emplace_step hserver
  | destroy => exact h.destroy_step hstep
  | store p =>
    obtain ⟨server, hserver, rfl⟩ := Option.map_eq_some_iff.mp hstep
    exact h.store_step hserver
  | notify p => exact h.notify_step hstep

theorem keeps_sound : Keeps step Sound := fun _ _ _ h hstep => (h.atomic_step hstep).1

/-- What every run of the threads keeps. -/
theorem sound_of_run {as : List Action} (hrun : run step start as = some s) : Sound s :=
  keeps_sound.run sound_start hrun

/-- **One step of the threads is at most one of the server**, and the one that it shows. -/
theorem simulates : Simulates step TftpServerV4.step State.atomic Shows Sound :=
  fun _ _ _ h hstep => (h.atomic_step hstep).2

theorem consistent_atomic {as : List Action} (hrun : run step start as = some s) :
    Consistent s.atomic := by
  obtain ⟨bs, hall, hbs⟩ := simulates.run keeps_sound sound_start hrun
  have hend := hbs as.length
  rw [List.take_length, hrun] at hend
  exact consistent_run hend

/-- **The threads refine the server**: whatever order the threads run in, and wherever they are
interrupted, one run of the server with a list for its queue goes along with them. For each action
of a thread it takes the action that this one shows, or none, and after every one of them it is in
the state that the threads amount to. -/
theorem refines {as : List Action} (hrun : run step start as = some s) :
    ∃ bs, List.Forall₂ Shows as bs ∧
      ∀ n, run TftpServerV4.step TftpServerV4.start (bs.take n).reduceOption =
        (run step start (as.take n)).map State.atomic :=
  simulates.run keeps_sound sound_start hrun

/-- A request arrives, and the responder takes it. -/
def request : List Action :=
  [.receive (.datagram ⟨1, 69⟩ [0, 1, 97, 0, 111, 99, 116, 101, 116, 0]), .push none, .push none,
    .push none, .push none, .responder, .responder, .responder, .responder, .responder]

/-- The responder has the request, and the mutex. -/
theorem refines_request : ∃ s, run step start request = some s ∧ s.queue.mutex ≠ none ∧
    ∃ bs, List.Forall₂ Shows request bs ∧
      ∀ n, run TftpServerV4.step TftpServerV4.start (bs.take n).reduceOption =
        (run step start (request.take n)).map State.atomic :=
  ⟨_, rfl, by decide, refines (show run step start request = some _ from rfl)⟩

/-! ### The sessions that notify -/

/-- `p` has called `session_notify`, and that has not been handled: the notification is in `push`,
in the queue, on its way out of `pop`, or with the responder. -/
def State.Notifies (s : State) (p : Pointer) (number : ℕ) : Prop :=
  .notify p number ∈ (s.queue.producers (some p)).inCall ∨ .notify p number ∈ s.queue.queue ∨
    .notify p number ∈ s.queue.consumer.inHand ∨
      s.server.responder = .visiting (.notify p number)

theorem State.atomic_responder (s : State) : s.atomic.responder = s.server.responder ∨
    ∃ event, s.atomic.responder = .visiting event := by
  cases hhand : s.queue.consumer.inHand with
  | nil => exact .inl (by simp [State.atomic, hhand])
  | cons event rest => exact .inr ⟨event, by simp [State.atomic, hhand]⟩

/-- A notification that is out of `push` is one that the server has. -/
theorem Sound.mem_pending (h : Sound s) {p : Pointer} {number : ℕ}
    (hnotifies : s.Notifies p number)
    (hcall : .notify p number ∉ (s.queue.producers (some p)).inCall) :
    .notify p number ∈ s.atomic.pending := by
  rcases hnotifies with hcall' | hqueue | hhand | hresponder
  · exact absurd hcall' hcall
  · rw [State.pending]
    split
    · exact List.mem_cons_of_mem _ hqueue
    · exact hqueue
  · have hs : s.atomic.responder = .visiting (.notify p number) := by
      simp [State.atomic, ConcurrentQueue.Consumer.inHand_of_mem hhand]
    rw [State.pending, hs]
    exact List.mem_cons_self
  · rw [State.pending, h.responder_eq (by simp [hresponder]), hresponder]
    exact List.mem_cons_self

/-- **No dangling notification**: as long as a notification is on its way, the session that it
points to is in memory, is the one that notified, and has `m_done` set; and it is in the list or
about to be. So the responder never reads a session that has been destroyed. -/
theorem alive_of_run {as : List Action} (hrun : run step start as = some s) :
    s.server.responder ≠ .undefined ∧ ∀ p number, s.Notifies p number →
      s.server.sessions p = some ⟨number, true, .finished⟩ ∧
        (p ∈ s.server.sessionList ∨ s.server.responder = .emplacing p) := by
  have h := sound_of_run hrun
  have hconsistent := consistent_atomic hrun
  have hemplacing (p : Pointer) (hp : s.atomic.responder = .emplacing p) :
      s.server.responder = .emplacing p := by
    rcases s.atomic_responder with hs | ⟨event, hs⟩
    · exact hs ▸ hp
    · cases hs.symm.trans hp
  have hlisted {p : Pointer} {x : Session} (hlive : Live s.atomic p x)
      (hp : s.atomic.responder ≠ .destroying p) :
      p ∈ s.server.sessionList ∨ s.server.responder = .emplacing p := by
    by_cases hs : s.atomic.responder = .emplacing p
    · exact .inr (hemplacing p hs)
    · exact .inl (hlive.listed.mpr ⟨hs, hp⟩)
  refine ⟨fun hs => hconsistent.defined ((h.responder_eq (by simp [hs])).trans hs),
    fun p number hnotifies => ?_⟩
  by_cases hcall : .notify p number ∈ (s.queue.producers (some p)).inCall
  · -- To the server it has not notified yet.
    obtain ⟨number', done, heq, hsession⟩ := h.notify p _ hcall
    obtain ⟨-, rfl⟩ := EventType.notify.inj heq
    have hp : s.atomic.sessions p = some ⟨number, done, .notifying⟩ := by
      simp [State.atomic, hsession, beforePush, List.ne_nil_of_mem hcall]
    have hlive := hconsistent.live p _ hp
    obtain ⟨rfl, -⟩ := hlive.done (by simp)
    have hdestroying : s.atomic.responder ≠ .destroying p := fun hs =>
      absurd (hlive.finished.mpr (.inr hs)) (by simp)
    exact ⟨hsession, hlisted hlive hdestroying⟩
  · have hpending := h.mem_pending hnotifies hcall
    cases hp : s.atomic.sessions p with
    | none => exact absurd hpending ((hconsistent.free p hp).own number)
    | some x =>
      have hlive := hconsistent.live p x hp
      obtain ⟨rfl, hdestroying⟩ := hlive.own number hpending
      have hfinished := hlive.finished.mpr (.inl hpending)
      have hdone := (hlive.done (by simp [hfinished])).1
      refine ⟨?_, hlisted hlive hdestroying⟩
      obtain ⟨x', hsession, hx'⟩ := Option.map_eq_some_iff.mp hp
      rw [beforePush] at hx'
      split at hx'
      · subst hx'
        rw [hsession, ← hdone, ← hfinished]
      · subst hx'
        cases hfinished

/-- A session thread in `push`, and the responder in front of `pop`. -/
theorem alive_of_run_push : ∃ s, run step start (request ++ [.responder, .responder,
      .visit (.serving ⟨[], by decide⟩) (some 1), .emplace, .store 1, .notify 1, .push (some 1)]) =
        some s ∧ s.Notifies 1 0 ∧ s.queue.mutex ≠ none ∧
    (s.server.responder ≠ .undefined ∧ ∀ p number, s.Notifies p number →
      s.server.sessions p = some ⟨number, true, .finished⟩ ∧
        (p ∈ s.server.sessionList ∨ s.server.responder = .emplacing p)) :=
  ⟨_, rfl, .inl List.mem_cons_self, by decide, alive_of_run (show run step start (request ++
    [.responder, .responder, .visit (.serving ⟨[], by decide⟩) (some 1), .emplace, .store 1,
      .notify 1, .push (some 1)]) = some _ from rfl)⟩

end TftpServerThreads

end Bootpd
