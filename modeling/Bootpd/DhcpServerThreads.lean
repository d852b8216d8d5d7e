import Bootpd.ConcurrentQueueProgress
import Bootpd.DhcpOutcomes
import Bootpd.DhcpReplySize

/-!
# `dhcp_server_v4`: both threads, and `cease`

The receiver pushes what arrives, the responder pops and answers, and a third thread calls `cease`.
An action is one atomic step of one of them: of the queue, as in `ConcurrentQueue`, or of the loop
around a call of it. Answering a datagram is one step, since nothing it touches is touched by
another thread.

## What the system decides

The socket times out after 500 ms, so a receive always ends. What it ends with is not decided by
the program: an action of the receiver carries the outcome, and a statement about every run is
about every sequence of arrivals, time-outs and failures, at every moment of the other threads. The
responder may wake for no reason. What the calls of the responder come to is in `System`, as it is
for a session.

## Two ways to stop

`cease` asks both threads to stop before it joins either, and the receiver may go on for a datagram
that has been received already. So datagrams can be left in the queue when both threads have ended.
And the responder can miss the notification of its stop: then it waits for ever, and `cease` with
it. Both are part of the results. And a datagram may lead the responder outside of an array; there
the program has no behaviour, and the responder no further step.

## Main definitions

* `DhcpServerThreads.State`, `DhcpServerThreads.step` — the threads, and one step of one of them
* `DhcpServerThreads.Accounted`, `DhcpServerThreads.Ceasing` — the two invariants: where the
  datagrams are, and how far `cease` has got

## Main results

* `DhcpServerThreads.answers_of_run` — every datagram that has been handled has its answer, in the
  order of arrival
* `DhcpServerThreads.dropped_of_ceased` — what becomes of the others
* `DhcpServerThreads.handled_after_stop` — how much is done after the stop
* `DhcpServerThreads.shutdown` — `cease` returns, or the responder waits for ever
* `DhcpServerThreads.sizes_of_run` — how long the datagrams are that it sends
* `DhcpServerThreads.outcomes_of_run` — which datagrams are answered, and which is the last
-/

namespace Bootpd

open Imperative SocketUdp Transition

/-- What is in `m_packets`. -/
abbrev QueuedPacket := AddressV4 × List UInt8

namespace DhcpServerThreads

open DhcpServerV4

/-! ### The threads -/

/-- One pass of the loop of `thread_incoming`: the datagram for the queue, if there is one. -/
def received (o : RecvOutcome) : Option QueuedPacket :=
  match recvResult o with
  | .ok (source, packet) => if packet.length < 1 then none else some (source, packet)
  | .error _ => none

/-- Where the receiver is in `thread_incoming`. -/
inductive Receiver where
  /-- `while (!st.stop_requested())` -/
  | looping
  /-- In `recv`. -/
  | receiving
  /-- In `push`. -/
  | pushing
  | ended
deriving DecidableEq

/-- What `cease` consists of. -/
inductive CeaseStep where
  | stopIncoming
  | stopOutgoing
  | joinIncoming
  | joinOutgoing
deriving DecidableEq

/-- `cease`. -/
def ceaseSteps : List CeaseStep := [.stopIncoming, .stopOutgoing, .joinIncoming, .joinOutgoing]

/-- The server between `start` and the end of `cease`: its queue, its two threads and the one that
calls `cease`. `received` and `handled` are for the statements, and no step reads them. -/
structure State where
  /-- `m_packets`, with the responder as its consumer and the receiver as its producer. -/
  queue : ConcurrentQueue.State QueuedPacket Unit
  receiver : Receiver
  /-- The stop token of the receiver. -/
  incomingStop : Bool
  /-- What `cease` has still to do. -/
  cease : List CeaseStep
  io : IoState
  /-- The datagrams that have been passed to `push`. -/
  received : List QueuedPacket
  /-- The datagrams that the responder is done with. -/
  handled : List QueuedPacket

/-- One step of one thread. -/
inductive Action where
  /-- The receiver, and how a receive ends. -/
  | receiver (o : RecvOutcome)
  /-- The receiver, in `push`. -/
  | push
  | responder
  /-- The responder wakes for no reason. -/
  | wake
  | cease

/-- The next step of `thread_incoming`. An exception of `recv` is caught, as a time-out is, and an
empty datagram is dropped. -/
def receiverStep (s : State) (o : RecvOutcome) : Option State :=
  match s.receiver with
  | .looping => some { s with receiver := if s.incomingStop then .ended else .receiving }
  | .receiving =>
    match received o with
    | none => some { s with receiver := .looping }
    | some packet =>
      (ConcurrentQueue.step s.queue (.call () packet)).map fun queue =>
        { s with queue, receiver := .pushing, received := s.received ++ [packet] }
  | .pushing =>
    if s.queue.producers () = .idle then some { s with receiver := .looping } else none
  | .ended => none

/-- The responder has a datagram behind `pop`, and is in `pop` or in front of it otherwise. -/
def responderStep (sys : System) (clients : ClientMapType) (s : State) : Option State :=
  match s.queue.consumer with
  | .leaving (some packet) =>
    match exec (threadOutgoing sys clients packet.1 packet.2) s.io with
    | (.ok _, io) =>
      (ConcurrentQueue.consumerStep s.queue).map fun queue =>
        { s with queue, io, handled := s.handled ++ [packet] }
    | (.error _, _) => none
  | _ => (ConcurrentQueue.consumerStep s.queue).map fun queue => { s with queue }

/-- The next step of `cease`. `request_stop` of the responder is the one of the queue, which runs
the callback; a join waits. -/
def ceaseStep (s : State) : Option State :=
  match s.cease with
  | [] => none
  | .stopIncoming :: cease => some { s with incomingStop := true, cease }
  | .stopOutgoing :: cease =>
    if s.queue.stopper = .returned then some { s with cease }
    else (ConcurrentQueue.stopperStep s.queue).map fun queue => { s with queue }
  | .joinIncoming :: cease => if s.receiver = .ended then some { s with cease } else none
  | .joinOutgoing :: cease => if s.queue.consumer = .ended then some { s with cease } else none

variable (sys : System) (clients : ClientMapType)

/-- A step, or `none` where the thread cannot go on. -/
def step (s : State) : Action → Option State
  | .receiver o => receiverStep s o
  | .push => (ConcurrentQueue.producerStep s.queue ()).map fun queue => { s with queue }
  | .responder => responderStep sys clients s
  | .wake => (ConcurrentQueue.step s.queue .wake).map fun queue => { s with queue }
  | .cease => ceaseStep s

/-- The socket when the threads start: nothing has been sent, and it times out after 500 ms. -/
def startIo : IoState := ⟨[], 500, 500⟩

/-- The server after `start`. -/
def start : State := ⟨ConcurrentQueue.start, .looping, false, ceaseSteps, startIo, [], []⟩

/-! ### What a step can do -/

/-- One case for each way an action goes. -/
inductive Steps (s : State) : Action → State → Prop where
  | loops {o : RecvOutcome} (hs : s.receiver = .looping) :
      Steps s (.receiver o) { s with receiver := if s.incomingStop then .ended else .receiving }
  | ignores {o : RecvOutcome} (hs : s.receiver = .receiving) (ho : received o = none) :
      Steps s (.receiver o) { s with receiver := .looping }
  | calls {o : RecvOutcome} {packet : QueuedPacket}
      {queue : ConcurrentQueue.State QueuedPacket Unit} (hs : s.receiver = .receiving)
      (ho : received o = some packet)
      (hqueue : ConcurrentQueue.step s.queue (.call () packet) = some queue) :
      Steps s (.receiver o)
        { s with queue, receiver := .pushing, received := s.received ++ [packet] }
  | returns {o : RecvOutcome} (hs : s.receiver = .pushing)
      (hidle : s.queue.producers () = .idle) :
      Steps s (.receiver o) { s with receiver := .looping }
  | pushes {queue : ConcurrentQueue.State QueuedPacket Unit}
      (hqueue : ConcurrentQueue.producerStep s.queue () = some queue) :
      Steps s .push { s with queue }
  | handles {packet : QueuedPacket} {io : IoState}
      {queue : ConcurrentQueue.State QueuedPacket Unit}
      (hs : s.queue.consumer = .leaving (some packet))
      (hexec : exec (threadOutgoing sys clients packet.1 packet.2) s.io = (.ok (), io))
      (hqueue : ConcurrentQueue.consumerStep s.queue = some queue) :
      Steps s .responder { s with queue, io, handled := s.handled ++ [packet] }
  | pops {queue : ConcurrentQueue.State QueuedPacket Unit}
      (hs : ∀ packet, s.queue.consumer ≠ .leaving (some packet))
      (hqueue : ConcurrentQueue.consumerStep s.queue = some queue) :
      Steps s .responder { s with queue }
  | wakes {queue : ConcurrentQueue.State QueuedPacket Unit}
      (hqueue : ConcurrentQueue.step s.queue .wake = some queue) : Steps s .wake { s with queue }
  | stopsIncoming {cease : List CeaseStep} (hs : s.cease = .stopIncoming :: cease) :
      Steps s .cease { s with incomingStop := true, cease }
  | stopped {cease : List CeaseStep} (hs : s.cease = .stopOutgoing :: cease)
      (hstopper : s.queue.stopper = .returned) : Steps s .cease { s with cease }
  | stopsOutgoing {cease : List CeaseStep} {queue : ConcurrentQueue.State QueuedPacket Unit}
      (hs : s.cease = .stopOutgoing :: cease)
      (hqueue : ConcurrentQueue.stopperStep s.queue = some queue) : Steps s .cease { s with queue }
  | joinsIncoming {cease : List CeaseStep} (hs : s.cease = .joinIncoming :: cease)
      (hended : s.receiver = .ended) : Steps s .cease { s with cease }
  | joinsOutgoing {cease : List CeaseStep} (hs : s.cease = .joinOutgoing :: cease)
      (hended : s.queue.consumer = .ended) : Steps s .cease { s with cease }

variable {sys clients} {s s' : State}

/-- **The cases of a step.** -/
theorem steps_of_step {a : Action} (hstep : step sys clients s a = some s') :
    Steps sys clients s a s' := by
  cases a with
  | receiver o =>
    rw [step, receiverStep] at hstep
    split at hstep
    · obtain rfl := Option.some.inj hstep
      exact .loops ‹_›
    · split at hstep
      · obtain rfl := Option.some.inj hstep
        exact .ignores ‹_› ‹_›
      · obtain ⟨queue, hqueue, rfl⟩ := Option.map_eq_some_iff.mp hstep
        exact .calls ‹_› ‹_› hqueue
    · obtain ⟨hidle, hstep⟩ := Option.ite_none_right_eq_some.mp hstep
      obtain rfl := Option.some.inj hstep
      exact .returns ‹_› hidle
    · cases hstep
  | push =>
    obtain ⟨queue, hqueue, rfl⟩ := Option.map_eq_some_iff.mp hstep
    exact .pushes hqueue
  | responder =>
    rw [step, responderStep] at hstep
    split at hstep
    · split at hstep
      · obtain ⟨queue, hqueue, rfl⟩ := Option.map_eq_some_iff.mp hstep
        exact .handles ‹_› ‹_› hqueue
      · cases hstep
    · rename_i hs
      obtain ⟨queue, hqueue, rfl⟩ := Option.map_eq_some_iff.mp hstep
      exact .pops hs hqueue
  | wake =>
    obtain ⟨queue, hqueue, rfl⟩ := Option.map_eq_some_iff.mp hstep
    exact .wakes hqueue
  | cease =>
    rw [step, ceaseStep] at hstep
    split at hstep
    · cases hstep
    · obtain rfl := Option.some.inj hstep
      exact .stopsIncoming ‹_›
    · split at hstep
      · obtain rfl := Option.some.inj hstep
        exact .stopped ‹_› ‹_›
      · obtain ⟨queue, hqueue, rfl⟩ := Option.map_eq_some_iff.mp hstep
        exact .stopsOutgoing ‹_› hqueue
    · obtain ⟨hended, hstep⟩ := Option.ite_none_right_eq_some.mp hstep
      obtain rfl := Option.some.inj hstep
      exact .joinsIncoming ‹_› hended
    · obtain ⟨hended, hstep⟩ := Option.ite_none_right_eq_some.mp hstep
      obtain rfl := Option.some.inj hstep
      exact .joinsOutgoing ‹_› hended

/-! ### What every run keeps -/

/-- Where every datagram is, and what has been answered. -/
structure Accounted (sys : System) (clients : ClientMapType) (s : State) : Prop where
  reached : ∃ as, run ConcurrentQueue.step ConcurrentQueue.start as = some s.queue
  values : s.received = s.handled ++ (s.queue.held ++ (s.queue.producers ()).inCall)
  idle : s.receiver ≠ .pushing → s.queue.producers () = .idle
  answered : exec (answerAll sys clients s.handled) startIo = (.ok (), s.io)

/-- How far `cease` has come. -/
structure Ceasing (s : State) : Prop where
  incomingStopped : .stopIncoming ∉ s.cease → s.incomingStop = true
  outgoingStopped : .stopOutgoing ∉ s.cease → s.queue.stopRequested = true
  incomingJoined : .joinIncoming ∉ s.cease → s.receiver = .ended
  outgoingJoined : .joinOutgoing ∉ s.cease → s.queue.consumer = .ended
  notifying : s.queue.stopper = .notifying → ∃ cease, s.cease = .stopOutgoing :: cease
  length : s.cease.length ≤ 4

theorem accounted_start : Accounted sys clients start :=
  ⟨⟨[], rfl⟩, rfl, fun _ => rfl, rfl⟩

theorem ceasing_start : Ceasing start :=
  ⟨by decide, by decide, by decide, by decide, by rintro ⟨⟩, by decide⟩

/-- One more datagram. -/
theorem exec_answerAll_concat {packets : List QueuedPacket} {packet : QueuedPacket}
    {io io' io'' : IoState} (h : exec (answerAll sys clients packets) io = (.ok (), io'))
    (hlast : exec (threadOutgoing sys clients packet.1 packet.2) io' = (.ok (), io'')) :
    exec (answerAll sys clients (packets ++ [packet])) io = (.ok (), io'') := by
  induction packets generalizing io with
  | nil =>
    obtain rfl : io = io' := congrArg Prod.snd h
    rw [List.nil_append, answerAll, exec_bind_ok hlast]
    rfl
  | cons first packets ih =>
    rw [answerAll] at h
    rcases hfirst : exec (threadOutgoing sys clients first.1 first.2) io with ⟨e | u, t⟩
    · rw [exec_bind_error hfirst] at h
      cases h
    · rw [exec_bind_ok hfirst] at h
      rw [List.cons_append, answerAll, exec_bind_ok hfirst]
      exact ih h

/-- **A step** loses no datagram. -/
theorem Accounted.step {a : Action} (h : Accounted sys clients s)
    (hstep : DhcpServerThreads.step sys clients s a = some s') : Accounted sys clients s' := by
  obtain ⟨hreached, hvalues, hidle, hanswered⟩ := h
  cases steps_of_step hstep with
  | loops hs => exact ⟨hreached, hvalues, fun _ => hidle (by simp [hs]), hanswered⟩
  | ignores hs ho => exact ⟨hreached, hvalues, fun _ => hidle (by simp [hs]), hanswered⟩
  | @calls o packet queue hs ho hqueue =>
    refine ⟨reached_step hreached hqueue, ?_, fun h => absurd rfl h, hanswered⟩
    have hproducer := hidle (by simp [hs])
    rw [ConcurrentQueue.step, hproducer] at hqueue
    obtain rfl := Option.some.inj hqueue
    show s.received ++ [packet] = _
    rw [hvalues, hproducer]
    simp [ConcurrentQueue.State.held, ConcurrentQueue.Producer.inCall]
  | returns hs hproducer => exact ⟨hreached, hvalues, fun _ => hproducer, hanswered⟩
  | @pushes queue hqueue =>
    have hreaches : ConcurrentQueue.step s.queue (.producer ()) = some queue := hqueue
    refine ⟨reached_step hreached hreaches, ?_, fun hs => ?_, hanswered⟩
    · exact hvalues.trans (congrArg _ (ConcurrentQueue.given_producerStep hqueue).symm)
    · rw [ConcurrentQueue.producerStep, hidle hs] at hqueue
      cases hqueue
  | @handles packet io queue hs hexec hqueue =>
    have hreaches : ConcurrentQueue.step s.queue .consumer = some queue := hqueue
    refine ⟨reached_step hreached hreaches, ?_, fun h => ?_,
      exec_answerAll_concat hanswered hexec⟩
    · obtain rfl := ConcurrentQueue.consumerStep_of_leaving hs hqueue
      rw [hvalues]
      simp [ConcurrentQueue.State.held, ConcurrentQueue.Consumer.inHand, hs]
    · rw [(ConcurrentQueue.producers_consumerStep hqueue).1]
      exact hidle h
  | @pops queue hs hqueue =>
    obtain ⟨hproducers, -, -⟩ := ConcurrentQueue.producers_consumerStep hqueue
    have hreaches : ConcurrentQueue.step s.queue .consumer = some queue := hqueue
    refine ⟨reached_step hreached hreaches, ?_, fun h => ?_, hanswered⟩
    · show s.received = s.handled ++ (queue.held ++ (queue.producers ()).inCall)
      rw [ConcurrentQueue.held_consumerStep hs hqueue, hproducers]
      exact hvalues
    · show queue.producers () = .idle
      rw [hproducers]
      exact hidle h
  | @wakes queue hqueue =>
    refine ⟨reached_step hreached hqueue, ?_, fun h => ?_, hanswered⟩
    all_goals
      rw [ConcurrentQueue.step] at hqueue
      split at hqueue
      · rename_i hblocked
        obtain rfl := Option.some.inj hqueue
        first
        | exact hidle h
        | simpa [ConcurrentQueue.State.held, ConcurrentQueue.Consumer.inHand, hblocked]
            using hvalues
      · cases hqueue
  | stopsIncoming hs => exact ⟨hreached, hvalues, hidle, hanswered⟩
  | stopped hs hstopper => exact ⟨hreached, hvalues, hidle, hanswered⟩
  | @stopsOutgoing cease queue hs hqueue =>
    obtain ⟨hheld, hproducers⟩ := ConcurrentQueue.held_stopperStep hqueue
    have hreaches : ConcurrentQueue.step s.queue .stopper = some queue := hqueue
    refine ⟨reached_step hreached hreaches, ?_, fun h => ?_, hanswered⟩
    · show s.received = s.handled ++ (queue.held ++ (queue.producers ()).inCall)
      rw [hheld, hproducers]
      exact hvalues
    · show queue.producers () = .idle
      rw [hproducers]
      exact hidle h
  | joinsIncoming hs hended => exact ⟨hreached, hvalues, hidle, hanswered⟩
  | joinsOutgoing hs hended => exact ⟨hreached, hvalues, hidle, hanswered⟩

/-- **Every run** accounts for its datagrams. -/
theorem accounted_of_run {as : List Action} (hrun : run (step sys clients) start as = some s) :
    Accounted sys clients s :=
  Keeps.run (fun _ _ _ h hstep => h.step hstep) accounted_start hrun

/-! ### The answers -/

/-- A pass of the loop that ends. -/
theorem log_of_threadOutgoing {packet : QueuedPacket} {io io' : IoState}
    (h : exec (threadOutgoing sys clients packet.1 packet.2) io = (.ok (), io')) :
    ∃ es, io'.log = io.log ++ es ∧ AtMostOne (RepliesWith clients packet.1 packet.2) es := by
  obtain ⟨es, hlog, hes⟩ := logs_respond_replies sys clients packet.1 packet.2 io
  refine ⟨es, ?_, hes⟩
  rw [threadOutgoing, exec_bind_ok (exec_observing ..)] at h
  rw [← hlog, ← congrArg (fun r => r.2.log) h]
  split <;> rfl

/-- The datagrams of a queue, answered one after the other. -/
theorem log_of_answerAll {R : QueuedPacket → List Event → Prop}
    (hR : ∀ {packet io io'},
      exec (threadOutgoing sys clients packet.1 packet.2) io = (.ok (), io') →
        ∃ es, io'.log = io.log ++ es ∧ R packet es)
    {packets : List QueuedPacket} {io io' : IoState}
    (h : exec (answerAll sys clients packets) io = (.ok (), io')) :
    ∃ ess : List (List Event), io'.log = io.log ++ ess.flatten ∧ List.Forall₂ R packets ess := by
  induction packets generalizing io with
  | nil =>
    obtain rfl : io = io' := congrArg Prod.snd h
    exact ⟨[], by simp, .nil⟩
  | cons packet packets ih =>
    rw [answerAll] at h
    rcases hfirst : exec (threadOutgoing sys clients packet.1 packet.2) io with ⟨e | u, t⟩
    · rw [exec_bind_error hfirst] at h
      cases h
    · rw [exec_bind_ok hfirst] at h
      obtain ⟨es, hlog, hes⟩ := hR hfirst
      obtain ⟨ess, hlog', hess⟩ := ih h
      refine ⟨es :: ess, ?_, .cons hes hess⟩
      rw [hlog', hlog, List.flatten_cons, List.append_assoc]

/-- **The answers**: whatever the threads do, the datagrams are handled in the order in which they
arrived, none twice and none left out, and each of them has at most one answer, which is its
own. -/
theorem answers_of_run {as : List Action} (hrun : run (step sys clients) start as = some s) :
    s.handled <+: s.received ∧ ∃ ess : List (List Event), s.io.log = ess.flatten ∧
      List.Forall₂ (fun packet es => AtMostOne (Answers clients packet.1 packet.2) es)
        s.handled ess := by
  have h := accounted_of_run hrun
  obtain ⟨ess, hlog, hess⟩ := log_of_answerAll log_of_threadOutgoing h.answered
  exact ⟨h.values ▸ List.prefix_append .., ess, hlog,
    hess.imp fun _ _ hes => hes.mono fun _ hd => hd.answers⟩

theorem length_nil_lt : ([] : List UInt8).length < 2 ^ 63 := by decide

/-- A system on which nothing fails. -/
def sampleSystem : System := .serving ⟨[], length_nil_lt⟩

/-- A client, and a DISCOVER it sends. -/
def sampleClients : ClientMapType :=
  AList.singleton (lit "00-00-00-00-00-00") ⟨0, 0, 0, 0, [], [], .empty⟩

def sampleDiscover : List UInt8 :=
  [1, 1, 6, 0] ++ List.replicate 232 0 ++ [0x63, 0x82, 0x53, 0x63, 53, 1, 1, 55, 1, 1, 255]

/-- A datagram arrives, and is pushed. -/
def arrival (bits : List UInt8) : List Action :=
  [.receiver .timedOut, .receiver (.datagram ⟨1, 68⟩ bits), .push, .push, .push, .push,
    .receiver .timedOut]

set_option maxRecDepth 4000 in
/-- The DISCOVER is handled and answered. -/
theorem answers_of_run_discover : ∃ s, run (step sampleSystem sampleClients) start
      (arrival sampleDiscover ++ List.replicate 7 .responder) = some s ∧
    s.handled.length = 1 ∧ s.io.log.length = 1 ∧ s.handled <+: s.received ∧
      ∃ ess : List (List Event), s.io.log = ess.flatten ∧ List.Forall₂
        (fun packet es => AtMostOne (Answers sampleClients packet.1 packet.2) es)
        s.handled ess := by
  have hrun : (run (step sampleSystem sampleClients) start
      (arrival sampleDiscover ++ List.replicate 7 .responder)).map
        (fun s => (s.handled.length, s.io.log.length)) = some (1, 1) := by decide +kernel
  obtain ⟨s, hs, hlengths⟩ := Option.map_eq_some_iff.mp hrun
  obtain ⟨hhandled, hlog⟩ := Prod.mk.inj hlengths
  exact ⟨s, hs, hhandled, hlog, answers_of_run hs⟩

/-- What is sent is the reply to one of the datagrams. -/
theorem repliesWith_of_attempted {packets : List QueuedPacket} {ess : List (List Event)}
    (h : List.Forall₂ (fun packet es => AtMostOne (RepliesWith clients packet.1 packet.2) es)
      packets ess) {d : Datagram} (hd : Attempted ess.flatten d) :
    ∃ packet ∈ packets, RepliesWith clients packet.1 packet.2 d := by
  induction h with
  | nil => simp [Attempted] at hd
  | @cons packet es packets ess hes _ ih =>
    rw [List.flatten_cons] at hd
    rcases attempted_append hd with hd | hd
    · exact ⟨packet, List.mem_cons_self, hes.of_attempted hd⟩
    · obtain ⟨packet', hmem, hreplies⟩ := ih hd
      exact ⟨packet', List.mem_cons_of_mem packet hmem, hreplies⟩

/-- **No datagram is too long**: whatever is configured, received and asked for, everything the
server sends fits one frame. -/
theorem sizes_of_run {platform : Platform} {cfg : ConfigIni} {address : AddressV4}
    (hclients : initializeClients platform cfg = .ok (address, clients)) {as : List Action}
    (hrun : run (step sys clients) start as = some s) {d : Datagram}
    (hd : Attempted s.io.log d) : d.bits.length ≤ replyBound platform ∧ d.bits.length ≤ 1057 := by
  obtain ⟨ess, hlog, hess⟩ :=
    log_of_answerAll log_of_threadOutgoing (accounted_of_run hrun).answered
  rw [hlog] at hd
  obtain ⟨packet, -, hreplies⟩ := repliesWith_of_attempted hess hd
  have hle := length_reply_le hclients hreplies
  exact ⟨hle, hle.trans (replyBound_le platform)⟩

set_option maxRecDepth 4000 in
/-- The DISCOVER of a client that is configured. -/
theorem sizes_of_run_discover : ∃ address clients s d,
    initializeClients samplePlatform (sampleConfig (lit "00-00-00-00-00-00")) =
        .ok (address, clients) ∧
      run (step sampleSystem clients) start
        (arrival sampleDiscover ++ List.replicate 7 .responder) = some s ∧
      Attempted s.io.log d ∧ d.bits.length ≤ replyBound samplePlatform ∧
      d.bits.length ≤ 1057 := by
  have hrun : (fun r => (run (step sampleSystem r.2) start (arrival sampleDiscover ++
      List.replicate 7 .responder)).map fun s => s.io.log.any fun ev => ev matches .sent _) <$>
        initializeClients samplePlatform (sampleConfig (lit "00-00-00-00-00-00")) =
      .ok (some true) := by decide +kernel
  obtain ⟨⟨address, clients⟩, hclients, hrun⟩ := map_eq_ok hrun
  obtain ⟨s, hs, hany⟩ := Option.map_eq_some_iff.mp hrun
  obtain ⟨ev, hmem, hsent⟩ := List.any_eq_true.mp hany
  cases ev with
  | sent d =>
    exact ⟨address, clients, s, d, hclients, hs, .inl hmem, sizes_of_run hclients hs (.inl hmem)⟩
  | _ => cases hsent

/-! ### `cease` -/

/-- What the queue does takes nothing back from `cease`. -/
theorem Ceasing.queue_step {a : ConcurrentQueue.Action QueuedPacket Unit}
    {queue : ConcurrentQueue.State QueuedPacket Unit} {io : IoState} {handled : List QueuedPacket}
    (h : Ceasing s) (hqueue : ConcurrentQueue.step s.queue a = some queue)
    (hstopper : a = .stopper → ∃ cease, s.cease = .stopOutgoing :: cease) :
    Ceasing { s with queue, io, handled } where
  incomingStopped := h.incomingStopped
  outgoingStopped hmem := (ConcurrentQueue.lasts hqueue).1 (h.outgoingStopped hmem)
  incomingJoined := h.incomingJoined
  outgoingJoined hmem := (ConcurrentQueue.lasts hqueue).2 (h.outgoingJoined hmem)
  notifying hs := by
    by_cases ha : a = .stopper
    · exact hstopper ha
    · exact h.notifying ((ConcurrentQueue.stopper_eq ha hqueue).symm.trans hs)
  length := h.length

/-- A receiver that has not ended has not been joined. -/
theorem Ceasing.receiver_step (h : Ceasing s) (hs : s.receiver ≠ .ended) (receiver : Receiver)
    (received : List QueuedPacket) : Ceasing { s with receiver, received } :=
  ⟨h.incomingStopped, h.outgoingStopped, fun hmem => absurd (h.incomingJoined hmem) hs,
    h.outgoingJoined, h.notifying, h.length⟩

/-- `cease` goes on to its next step. -/
theorem Ceasing.cease_step {first : CeaseStep} {cease : List CeaseStep} (h : Ceasing s)
    (hs : s.cease = first :: cease) (incomingStop : Bool)
    (hincoming : first = .stopIncoming ∨ s.incomingStop = true → incomingStop = true)
    (houtgoing : first = .stopOutgoing →
      s.queue.stopRequested = true ∧ s.queue.stopper ≠ .notifying)
    (hjoined : first = .joinIncoming → s.receiver = .ended)
    (hjoined' : first = .joinOutgoing → s.queue.consumer = .ended) :
    Ceasing { s with incomingStop, cease } := by
  have hmem {x : CeaseStep} (hx : x ∉ cease) : first = x ∨ x ∉ s.cease := by
    rw [hs, List.mem_cons, not_or]
    by_cases hfirst : first = x
    · exact .inl hfirst
    · exact .inr ⟨Ne.symm hfirst, hx⟩
  constructor
  · intro hx
    exact hincoming ((hmem hx).imp id h.incomingStopped)
  · intro hx
    exact (hmem hx).elim (fun hfirst => (houtgoing hfirst).1) h.outgoingStopped
  · intro hx
    exact (hmem hx).elim hjoined h.incomingJoined
  · intro hx
    exact (hmem hx).elim hjoined' h.outgoingJoined
  · intro hstopper
    obtain ⟨rest, hrest⟩ := h.notifying hstopper
    obtain ⟨rfl, -⟩ := List.cons.inj (hs.symm.trans hrest)
    exact absurd hstopper (houtgoing rfl).2
  · have hlength := h.length
    rw [hs, List.length_cons] at hlength
    exact Nat.le_of_succ_le hlength

theorem Ceasing.step {a : Action} (h : Ceasing s) (hqueue : ConcurrentQueue.Consistent s.queue)
    (hstep : DhcpServerThreads.step sys clients s a = some s') : Ceasing s' := by
  cases steps_of_step hstep with
  | loops hs => exact h.receiver_step (by simp [hs]) _ _
  | ignores hs ho => exact h.receiver_step (by simp [hs]) _ _
  | calls hs ho hcall =>
    exact Ceasing.receiver_step (h.queue_step hcall (by simp)) (by simp [hs]) .pushing _
  | returns hs hidle => exact h.receiver_step (by simp [hs]) _ _
  | pushes hpush => exact h.queue_step (a := .producer ()) hpush (by simp)
  | handles hs hexec hpop => exact h.queue_step (a := .consumer) hpop (by simp)
  | pops hs hpop => exact h.queue_step (a := .consumer) hpop (by simp)
  | wakes hwake => exact h.queue_step hwake (by simp)
  | stopsOutgoing hs hstop => exact h.queue_step (a := .stopper) hstop fun _ => ⟨_, hs⟩
  | stopsIncoming hs => exact h.cease_step hs true (by simp) (by simp) (by simp) (by simp)
  | stopped hs hstopper =>
    have hrequested := hqueue.requested.mpr (by simp [hstopper])
    exact h.cease_step hs s.incomingStop (by simp) (fun _ => ⟨hrequested, by simp [hstopper]⟩)
      (by simp) (by simp)
  | joinsIncoming hs hended =>
    exact h.cease_step hs s.incomingStop (by simp) (by simp) (fun _ => hended) (by simp)
  | joinsOutgoing hs hended =>
    exact h.cease_step hs s.incomingStop (by simp) (by simp) (by simp) fun _ => hended

theorem ceasing_of_run {as : List Action} (hrun : run (step sys clients) start as = some s) :
    Ceasing s := by
  have hkeeps : Keeps (step sys clients) fun s => Accounted sys clients s ∧ Ceasing s := by
    intro s a s' h hstep
    obtain ⟨as, has⟩ := h.1.reached
    exact ⟨h.1.step hstep, h.2.step (ConcurrentQueue.consistent_run has) hstep⟩
  exact (hkeeps.run ⟨accounted_start, ceasing_start⟩ hrun).2

/-- **What is dropped**: when `cease` has returned, both threads have ended and nothing happens any
more, and the datagrams that are still in the queue are those that arrived and have not been
handled. -/
theorem dropped_of_ceased {as : List Action} (hrun : run (step sys clients) start as = some s)
    (hcease : s.cease = []) :
    s.receiver = .ended ∧ s.queue.consumer = .ended ∧
      s.received = s.handled ++ s.queue.queue ∧ ∀ a, step sys clients s a = none := by
  have h := ceasing_of_run hrun
  have haccounted := accounted_of_run hrun
  have hreceiver := h.incomingJoined (by simp [hcease])
  have hconsumer := h.outgoingJoined (by simp [hcease])
  have hidle := haccounted.idle (by simp [hreceiver])
  refine ⟨hreceiver, hconsumer, ?_, fun a => ?_⟩
  · rw [haccounted.values, hidle]
    simp [ConcurrentQueue.State.held, hconsumer, ConcurrentQueue.Consumer.inHand,
      ConcurrentQueue.Producer.inCall]
  · cases a with
    | receiver o => simp [step, receiverStep, hreceiver]
    | push => simp [step, ConcurrentQueue.producerStep, hidle]
    | responder => simp [step, responderStep, ConcurrentQueue.consumerStep, hconsumer]
    | wake => simp [step, ConcurrentQueue.step, hconsumer]
    | cease => simp [step, ceaseStep, hcease]

/-- A datagram that arrives in front of the stop, and is dropped. -/
theorem dropped_of_ceased_one : ∃ s, run (step sampleSystem sampleClients) start
      (arrival [1] ++ [.cease, .cease, .cease, .receiver .timedOut, .responder, .cease, .cease]) =
        some s ∧ s.queue.queue ≠ [] ∧ s.receiver = .ended ∧ s.queue.consumer = .ended ∧
      s.received = s.handled ++ s.queue.queue ∧ ∀ a, step sampleSystem sampleClients s a = none :=
  ⟨_, rfl, by decide, dropped_of_ceased (show run (step sampleSystem sampleClients) start
    (arrival [1] ++ [.cease, .cease, .cease, .receiver .timedOut, .responder, .cease, .cease]) =
      some _ from rfl) rfl⟩

/-! ### After the stop -/

/-- Both threads have been asked to stop. -/
structure Stopped (s : State) : Prop where
  incoming : s.incomingStop = true
  outgoing : s.queue.stopRequested = true

/-- A stop is not taken back. -/
theorem stop_lasts {a : Action} (hstep : step sys clients s a = some s') :
    (s.incomingStop = true → s'.incomingStop = true) ∧
      (s.queue.stopRequested = true → s'.queue.stopRequested = true) := by
  cases steps_of_step hstep with
  | loops | ignores | returns | stopped | joinsIncoming | joinsOutgoing => exact ⟨id, id⟩
  | stopsIncoming => exact ⟨fun _ => rfl, id⟩
  | calls hs ho hcall => exact ⟨id, (ConcurrentQueue.lasts hcall).1⟩
  | pushes hpush => exact ⟨id, (ConcurrentQueue.lasts (a := .producer ()) hpush).1⟩
  | handles hs hexec hpop => exact ⟨id, (ConcurrentQueue.lasts (a := .consumer) hpop).1⟩
  | pops hs hpop => exact ⟨id, (ConcurrentQueue.lasts (a := .consumer) hpop).1⟩
  | wakes hwake => exact ⟨id, (ConcurrentQueue.lasts hwake).1⟩
  | stopsOutgoing hs hstop => exact ⟨id, (ConcurrentQueue.lasts (a := .stopper) hstop).1⟩

theorem keeps_stopped : Keeps (step sys clients) Stopped := fun _ _ _ h hstep =>
  ⟨(stop_lasts hstep).1 h.incoming, (stop_lasts hstep).2 h.outgoing⟩

/-- How many datagrams the receiver can still receive. -/
def Receiver.due : Receiver → ℕ
  | .receiving => 1
  | _ => 0

/-- A call of `push` leaves the consumer alone. -/
theorem consumer_call {packet : QueuedPacket}
    {queue queue' : ConcurrentQueue.State QueuedPacket Unit}
    (hcall : ConcurrentQueue.step queue (.call () packet) = some queue') :
    queue'.consumer = queue.consumer ∧ queue'.stopper = queue.stopper ∧
      queue.producers () = .idle ∧ queue'.producers () = .locking packet := by
  rw [ConcurrentQueue.step] at hcall
  split at hcall
  · obtain rfl := Option.some.inj hcall
    exact ⟨rfl, rfl, ‹_›, by simp⟩
  · cases hcall

/-- A consumer that wakes has been blocked. -/
theorem consumer_wake {queue queue' : ConcurrentQueue.State QueuedPacket Unit}
    (hwake : ConcurrentQueue.step queue .wake = some queue') :
    queue.consumer = .blocked ∧ queue'.consumer = .notified := by
  rw [ConcurrentQueue.step] at hwake
  split at hwake
  · obtain rfl := Option.some.inj hwake
    exact ⟨‹_›, rfl⟩
  · cases hwake

/-- A datagram that is received is the last one. -/
theorem received_step {a : Action} (hstop : s.incomingStop = true)
    (hstep : step sys clients s a = some s') :
    s'.received.length + s'.receiver.due ≤ s.received.length + s.receiver.due := by
  cases steps_of_step hstep with
  | loops hs => simp [hstop, hs, Receiver.due]
  | ignores hs ho => simp [hs, Receiver.due]
  | calls hs ho hcall => simp [hs, Receiver.due]
  | returns hs hidle => simp [hs, Receiver.due]
  | _ => exact le_rfl

/-- A datagram that is handled is the last one. -/
theorem handled_step {a : Action} (hstop : s.queue.stopRequested = true)
    (hstep : step sys clients s a = some s') :
    s'.handled.length + s'.queue.consumer.due ≤ s.handled.length + s.queue.consumer.due := by
  cases steps_of_step hstep with
  | calls hs ho hcall =>
    show s.handled.length + _ ≤ _
    rw [(consumer_call hcall).1]
  | pushes hpush =>
    exact Nat.add_le_add_left (ConcurrentQueue.remaining_producerStep hpush).2.le _
  | handles hs hexec hpop =>
    obtain rfl := ConcurrentQueue.consumerStep_of_leaving hs hpop
    simp [hs, ConcurrentQueue.Consumer.due]
  | pops hs hpop =>
    exact Nat.add_le_add_left (ConcurrentQueue.remaining_consumerStep hstop hpop).2 _
  | wakes hwake =>
    obtain ⟨hblocked, hnotified⟩ := consumer_wake hwake
    simp [hblocked, hnotified, ConcurrentQueue.Consumer.due]
  | stopsOutgoing hs hstopper =>
    exact Nat.add_le_add_left (ConcurrentQueue.remaining_stopperStep hstopper).2.le _
  | _ => exact le_rfl

/-- **After the stop** at most one more datagram is received, and at most one more is handled. -/
theorem handled_after_stop {bs : List Action} (hstopped : Stopped s)
    (hrun : run (step sys clients) s bs = some s') :
    s'.received.length ≤ s.received.length + 1 ∧ s'.handled.length ≤ s.handled.length + 1 := by
  have hreceived : s'.received.length ≤ s.received.length + s.receiver.due :=
    cost_le keeps_stopped (fun _ _ _ h hstep => received_step h.incoming hstep) hstopped hrun
  have hhandled : s'.handled.length ≤ s.handled.length + s.queue.consumer.due :=
    cost_le keeps_stopped (fun _ _ _ h hstep => handled_step h.outgoing hstep) hstopped hrun
  have hdue : s.receiver.due ≤ 1 := by cases s.receiver <;> simp [Receiver.due]
  exact ⟨hreceived.trans (Nat.add_le_add_left hdue _),
    hhandled.trans (Nat.add_le_add_left s.queue.consumer.due_le _)⟩

/-- A receiver and a responder that are asked to stop at once. -/
theorem handled_after_stop_one : ∃ s s', run (step sampleSystem sampleClients) start
      [.receiver .timedOut, .responder, .cease, .cease] = some s ∧
    run (step sampleSystem sampleClients) s (arrival [1]).tail = some s' ∧
      s'.received.length = 1 ∧ s'.received.length ≤ s.received.length + 1 ∧
        s'.handled.length ≤ s.handled.length + 1 :=
  ⟨_, _, rfl, rfl, rfl, handled_after_stop ⟨rfl, rfl⟩
    (show run (step sampleSystem sampleClients) _ (arrival [1]).tail = some _ from rfl)⟩

/-- How many steps the receiver has left, and its call of `push`. -/
def Receiver.remaining : Receiver → ℕ
  | .ended => 0
  | .looping => 1
  | .pushing => 2
  | .receiving => 11

/-- How many steps the threads have left. -/
def State.remaining (s : State) : ℕ :=
  s.receiver.remaining + (s.queue.producers ()).remaining + s.queue.consumer.remaining +
    s.queue.stopper.remaining + s.cease.length

/-- **A step after the stop** is one of those. -/
theorem remaining_step {a : Action} (hstopped : Stopped s) (ha : a ≠ .wake)
    (hstep : step sys clients s a = some s') : s'.remaining < s.remaining := by
  cases steps_of_step hstep with
  | loops hs => simp [State.remaining, hstopped.incoming, hs, Receiver.remaining]
  | ignores hs ho => simp [State.remaining, hs, Receiver.remaining]
  | calls hs ho hcall =>
    obtain ⟨hconsumer, hstopper, hidle, hlocking⟩ := consumer_call hcall
    simp [State.remaining, hs, hconsumer, hstopper, hidle, hlocking, Receiver.remaining,
      ConcurrentQueue.Producer.remaining]
  | returns hs hidle => simp [State.remaining, hs, Receiver.remaining]
  | @pushes queue hpush =>
    have hlt := (ConcurrentQueue.remaining_producerStep hpush).1
    have hstopper := (ConcurrentQueue.others_producerStep hpush).2.1
    simp only [State.remaining, hstopper]
    omega
  | @handles packet io queue hs hexec hpop =>
    have hlt := (ConcurrentQueue.remaining_consumerStep hstopped.outgoing hpop).1
    obtain ⟨hproducers, hstopper, -⟩ := ConcurrentQueue.producers_consumerStep hpop
    simp only [State.remaining, hproducers, hstopper]
    omega
  | @pops queue hs hpop =>
    have hlt := (ConcurrentQueue.remaining_consumerStep hstopped.outgoing hpop).1
    obtain ⟨hproducers, hstopper, -⟩ := ConcurrentQueue.producers_consumerStep hpop
    simp only [State.remaining, hproducers, hstopper]
    omega
  | wakes hwake => exact absurd rfl ha
  | stopsIncoming hs => simp [State.remaining, hs]
  | stopped hs hreturned => simp [State.remaining, hs]
  | @stopsOutgoing cease queue hs hstopper =>
    have hlt := (ConcurrentQueue.remaining_stopperStep hstopper).1
    have hproducers := (ConcurrentQueue.held_stopperStep hstopper).2
    simp only [State.remaining, hproducers]
    omega
  | joinsIncoming hs hended => simp [State.remaining, hs]
  | joinsOutgoing hs hended => simp [State.remaining, hs]

/-- The datagram behind `pop` is one that the program has no behaviour for. -/
def Undefined (sys : System) (clients : ClientMapType) (s : State) : Prop :=
  ∃ packet e, s.queue.consumer = .leaving (some packet) ∧
    (exec (threadOutgoing sys clients packet.1 packet.2) s.io).1 = .error e

/-- The responder goes on if it can in the queue. -/
theorem undefined_of_stays (hconsumer : (ConcurrentQueue.consumerStep s.queue).isSome)
    (hstep : step sys clients s .responder = none) : Undefined sys clients s := by
  obtain ⟨queue, hqueue⟩ := Option.isSome_iff_exists.mp hconsumer
  rw [step, responderStep] at hstep
  split at hstep
  · rename_i packet hs
    split at hstep
    · simp [hqueue] at hstep
    · rename_i e io hexec
      exact ⟨packet, e, hs, by rw [hexec]⟩
  · simp [hqueue] at hstep

/-- **At a standstill** after the stop: `cease` has returned, or the responder waits for ever. -/
theorem ceased_or_stuck {as : List Action} (hrun : run (step sys clients) start as = some s)
    (hstopped : Stopped s) (hstays : ∀ a ≠ .wake, step sys clients s a = none) :
    s.cease = [] ∨ ConcurrentQueue.Stuck s.queue ∨ Undefined sys clients s := by
  have haccounted := accounted_of_run hrun
  have hceasing := ceasing_of_run hrun
  obtain ⟨qs, hqs⟩ := haccounted.reached
  rcases ConcurrentQueue.goes_on_or_over hqs with
    hconsumer | ⟨⟨⟩, hproducer⟩ | hstopper | ⟨hidle, hended | ⟨hblocked, -⟩⟩
  · exact .inr (.inr (undefined_of_stays hconsumer (hstays .responder (by simp))))
  · obtain ⟨queue, hqueue⟩ := Option.isSome_iff_exists.mp hproducer
    simpa [step, hqueue] using hstays .push (by simp)
  · obtain ⟨cease, hcease⟩ := hceasing.notifying hstopper
    simpa [step, ceaseStep, hcease, hstopper, ConcurrentQueue.stopperStep]
      using hstays .cease (by simp)
  · -- The responder has ended, so the receiver and `cease` can only be at their ends.
    have hreceiver : s.receiver = .ended := by
      have hnone := hstays (.receiver .timedOut) (by simp)
      cases hs : s.receiver
      case ended => rfl
      all_goals simp [step, receiverStep, hs, hidle, received, recvResult] at hnone
    have hreturned : s.queue.stopper ≠ .ready :=
      (ConcurrentQueue.consistent_run hqs).requested.mp hstopped.outgoing
    have hnone := hstays .cease (by simp)
    cases hs : s.cease with
    | nil => exact .inl rfl
    | cons first cease =>
      cases first
      case stopOutgoing =>
        cases hstopper : s.queue.stopper
        case ready => exact absurd hstopper hreturned
        all_goals
          simp [step, ceaseStep, hs, hstopper, ConcurrentQueue.stopperStep] at hnone
      all_goals simp [step, ceaseStep, hs, hreceiver, hended] at hnone
  · by_cases hstopper : s.queue.stopper = .notifying
    · obtain ⟨cease, hcease⟩ := hceasing.notifying hstopper
      simpa [step, ceaseStep, hcease, hstopper, ConcurrentQueue.stopperStep]
        using hstays .cease (by simp)
    · exact .inr (.inl ⟨hblocked, ⟨hidle, hstopper⟩, .inr hstopped.outgoing⟩)

/-- That is no more than 36 steps. -/
theorem Ceasing.remaining_le (h : Ceasing s) : s.remaining ≤ 36 := by
  have hreceiver : s.receiver.remaining ≤ 11 := by cases s.receiver <;> simp [Receiver.remaining]
  have hproducer := (s.queue.producers ()).remaining_le
  have hconsumer := s.queue.consumer.remaining_le
  have hstopper := s.queue.stopper.remaining_le
  have hlength := h.length
  rw [State.remaining]
  omega

/-- **The shutdown**: when both threads have been asked to stop, there are at most 36 steps left
until nothing goes on by itself, and then `cease` has returned, unless the responder waits for a
notification that will not come or holds a datagram that the program has no behaviour for. -/
theorem shutdown {as bs : List Action} (hrun : run (step sys clients) start as = some s)
    (hstopped : Stopped s) (hbs : ∀ b ∈ bs, b ≠ .wake)
    (hrest : run (step sys clients) s bs = some s') :
    bs.length ≤ 36 ∧ ((∀ a ≠ .wake, step sys clients s' a = none) →
      s'.cease = [] ∨ ConcurrentQueue.Stuck s'.queue ∨ Undefined sys clients s') := by
  have hlength := length_add_le keeps_stopped
    (fun _ _ _ h ha hstep => remaining_step h ha hstep) hstopped hbs hrest
  have hbound := (ceasing_of_run hrun).remaining_le
  refine ⟨by omega, fun hstays => ?_⟩
  have hall : run (step sys clients) start (as ++ bs) = some s' := by
    rw [run_append, hrun]
    exact hrest
  exact ceased_or_stuck hall (keeps_stopped.run hstopped hrest) hstays

/-- A server that nobody has sent anything. -/
theorem shutdown_idle : ∃ s s', run (step sampleSystem sampleClients) start [.cease, .cease] =
      some s ∧ run (step sampleSystem sampleClients) s
        [.cease, .receiver .timedOut, .responder, .cease, .cease] = some s' ∧ s'.cease = [] ∧
    (5 ≤ 36 ∧ ((∀ a ≠ .wake, step sampleSystem sampleClients s' a = none) →
      s'.cease = [] ∨ ConcurrentQueue.Stuck s'.queue ∨
        Undefined sampleSystem sampleClients s')) :=
  ⟨_, _, rfl, rfl, rfl,
    shutdown (show run (step sampleSystem sampleClients) start [.cease, .cease] = some _ from rfl)
      ⟨rfl, rfl⟩ (by simp) (show run (step sampleSystem sampleClients) _
        [.cease, .receiver .timedOut, .responder, .cease, .cease] = some _ from rfl)⟩

/-! ### Which datagrams are answered -/

/-- What the log has of a datagram that has been handled. -/
inductive Handled (sys : System) (clients : ClientMapType) (packet : QueuedPacket) :
    List Event → Prop where
  | answered {log : List Event} {d : Datagram} (h : Answerable clients packet.2)
      (hd : Answers clients packet.1 packet.2 d) : Handled sys clients packet [attempt sys log d]
  | ignored (hbounds : ¬OutOfBounds clients packet.2) (hanswer : ¬Answerable clients packet.2) :
      Handled sys clients packet []

theorem handled_of_threadOutgoing (hsys : SendsDefined sys) {packet : QueuedPacket}
    {io io' : IoState}
    (h : exec (threadOutgoing sys clients packet.1 packet.2) io = (.ok (), io')) :
    ∃ es, io'.log = io.log ++ es ∧ Handled sys clients packet es := by
  have hcases := threadOutgoing_cases hsys clients packet.1 packet.2 io
  rw [h] at hcases
  generalize hr : ((.ok (), io') : Except Exception Unit × IoState) = r at hcases
  cases hcases with
  | outOfBounds what => cases hr
  | answered hanswer hd =>
    obtain rfl := congrArg Prod.snd hr
    exact ⟨_, rfl, .answered hanswer hd⟩
  | ignored hbounds hanswer =>
    obtain rfl := congrArg Prod.snd hr
    exact ⟨[], by simp, .ignored hbounds hanswer⟩

/-- **Exactly the answerable datagrams are answered**, in any run: the log has one attempt for each
of them that has been handled, in order, and nothing else. The responder gets stuck with a datagram
if and only if it is one of those that make it read outside of an array. -/
theorem outcomes_of_run (hsys : SendsDefined sys) {as : List Action}
    (hrun : run (step sys clients) start as = some s) :
    (∃ ess : List (List Event), s.io.log = ess.flatten ∧
        List.Forall₂ (Handled sys clients) s.handled ess) ∧
      (Undefined sys clients s ↔ ∃ packet, s.queue.consumer = .leaving (some packet) ∧
        OutOfBounds clients packet.2) := by
  refine ⟨log_of_answerAll (handled_of_threadOutgoing hsys) (accounted_of_run hrun).answered,
    ?_, ?_⟩
  · rintro ⟨packet, e, hconsumer, hexec⟩
    refine ⟨packet, hconsumer, ?_⟩
    have hcases := threadOutgoing_cases hsys clients packet.1 packet.2 s.io
    generalize exec (threadOutgoing sys clients packet.1 packet.2) s.io = r at hexec hcases
    cases hcases with
    | outOfBounds what h => exact h
    | answered => cases hexec
    | ignored => cases hexec
  · rintro ⟨packet, hconsumer, hbounds⟩
    have hcases := threadOutgoing_cases hsys clients packet.1 packet.2 s.io
    generalize hr : exec (threadOutgoing sys clients packet.1 packet.2) s.io = r at hcases
    cases hcases with
    | outOfBounds what => exact ⟨packet, _, hconsumer, congrArg Prod.fst hr⟩
    | answered hanswer => exact absurd hbounds hanswer.not_outOfBounds
    | ignored hnot => exact absurd hbounds hnot

set_option maxRecDepth 4000 in
/-- An answer, and a datagram that ends the server. -/
theorem outcomes_of_run_long : ∃ s, run (step sampleSystem sampleClients) start
      (arrival sampleDiscover ++ List.replicate 7 .responder ++ arrival longAddressBits ++
        List.replicate 6 .responder) = some s ∧
    s.handled.length = 1 ∧ s.io.log.length = 1 ∧ Undefined sampleSystem sampleClients s := by
  have hrun : (run (step sampleSystem sampleClients) start
      (arrival sampleDiscover ++ List.replicate 7 .responder ++ arrival longAddressBits ++
        List.replicate 6 .responder)).map (fun s => (s.handled.length, s.io.log.length,
          decide (s.queue.consumer = .leaving (some (⟨1, 68⟩, longAddressBits))))) =
      some (1, 1, true) := by decide +kernel
  obtain ⟨s, hs, heq⟩ := Option.map_eq_some_iff.mp hrun
  obtain ⟨hhandled, heq⟩ := Prod.mk.inj heq
  obtain ⟨hlog, hconsumer⟩ := Prod.mk.inj heq
  exact ⟨s, hs, hhandled, hlog, (outcomes_of_run (sendsDefined_serving _) hs).2.mpr
    ⟨_, of_decide_eq_true hconsumer, outOfBounds_longAddressBits _⟩⟩

end DhcpServerThreads

end Bootpd
