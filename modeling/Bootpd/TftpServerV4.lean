import Bootpd.Lib.Transition
import Bootpd.SocketUdp
import Bootpd.TftpPacket
import Mathlib.Data.Finset.Basic

/-!
# `tftp_server_v4`: the responder and its sessions

The receiver puts datagrams into the event queue, the responder takes one event after the other
out of it and handles it, and every session has a thread of its own that ends by setting `m_done`
and pushing a notification. A step is one atomic action of one of these threads.

## Sessions in memory

A session thread runs as soon as its session is constructed, which is before the session is in
`m_session_list`; what the thread does until it ends is left out. A session lives at an address,
and an address is free again when the session there has been destroyed. So an address in a
notification may be that of another session by the time it is handled, or of none. The source
reads `is_done()` through it all the same; a read where there is no session leads to `undefined`,
and that it never happens is proved in `TftpSessionList`.

Sessions are numbered in the order of their construction, so that two sessions at one address can
be told apart. The numbers, in the sessions and in the events, are not read by any step.

## Scope

The queue is a list here. `TftpServerThreads` has the real one, and shows that nothing else comes
of it. The server is not asked to stop, and there is memory for the entries of its containers; for
a session there may be none, and the request is dropped then as it is by the handler of
`thread_outgoing`.

## Main definitions

* `TftpServerV4.visitEvent` — `visit_event` of a datagram, up to the construction of a session
* `TftpServerV4.State`, `TftpServerV4.step` — the threads, and one step of one of them
* `TftpServerV4.isAnswered` — the datagrams that are answered by an ERROR

## Main results

* `TftpServerV4.steps_of_step` — the cases of a step
* `TftpServerV4.exec_visitEvent_of_answered`, `exec_visitEvent_of_not_answered` — what the main
  socket sends
-/

namespace Bootpd

open Imperative SocketUdp

namespace TftpServerV4

/-! ### Handling an event -/

/-- What a session is created for. -/
inductive Request where
  | rrq (request : TypeRrq)
  | wrq (request : TypeWrq)
deriving DecidableEq

/-- `visit_packet`, up to the construction of a session. -/
def visitPacket (sys : System) (source : AddressV4) : TftpPacket → SessionM (Option Request)
  | .rrq request => return some (.rrq request)
  | .wrq request => return some (.wrq request)
  | .monostate => throw (.logicError (lit "Empty packet, packet parsing failed."))
  | _ => do
    send sys (TftpPacket.makeError .illegalOperation) source
    return none

/-- `visit_event` for a datagram. -/
def visitEvent (sys : System) (source : AddressV4) (packetBits : List UInt8) :
    SessionM (Option Request) := do
  let packet ← liftExcept (TftpPacket.ofBits packetBits)
  visitPacket sys source packet

/-- One pass of the loop of `thread_incoming`: the datagram for the queue, if there is one. -/
def received (o : RecvOutcome) : Option (AddressV4 × List UInt8) :=
  match recvResult o with
  | .ok (source, bits) => if bits.isEmpty then none else some (source, bits)
  | .error _ => none

/-! ### The threads -/

/-- An address in memory; 0 is `nullptr`. -/
abbrev Pointer := ℕ

/-- `event_type`. The number of the session that notifies is not part of the source's event. -/
inductive EventType where
  | packet (source : AddressV4) (bits : List UInt8)
  | notify (who : Pointer) (number : ℕ)
deriving DecidableEq

/-- Where a session thread is. -/
inductive SessionThread where
  /-- In front of `m_done.store(true)`. -/
  | transferring
  /-- In front of `session_notify(this)`. -/
  | notifying
  | finished
deriving DecidableEq

/-- A session in memory. -/
structure Session where
  number : ℕ
  done : Bool
  thread : SessionThread
deriving DecidableEq

/-- Where the responder is. -/
inductive Responder where
  /-- At `m_events.pop(st)`. -/
  | popping
  | visiting (event : EventType)
  /-- A session has been constructed, and is not in the list. -/
  | emplacing (session : Pointer)
  /-- In the destructor of a session, which joins its thread. -/
  | destroying (session : Pointer)
  /-- A session was read that had been destroyed. -/
  | undefined
deriving DecidableEq

/-- The server, without its stop tokens. `created`, `marked` and `erased` are for the statements. -/
structure State where
  events : List EventType
  responder : Responder
  /-- The keys of `m_session_list`. An entry owns the session that its key points to. -/
  sessionList : Finset Pointer
  /-- The sessions in memory. -/
  sessions : Pointer → Option Session
  /-- How many sessions have been constructed. -/
  created : ℕ
  /-- The sessions whose `m_done` has been set. -/
  marked : List ℕ
  /-- The sessions that have been erased from the list. -/
  erased : List ℕ
  io : IoState

/-- One atomic action of the receiver, the responder or a session thread. -/
inductive Action where
  /-- The receiver. -/
  | receive (o : RecvOutcome)
  | pop
  /-- The responder handles its event, with the address for a session if there is memory. -/
  | visit (sys : System) (allocated : Option Pointer)
  | emplace
  | destroy
  /-- `m_done.store(true)` -/
  | store (session : Pointer)
  /-- `session_notify(this)` -/
  | notify (session : Pointer)

/-- The responder handles a datagram. Every exception is caught. -/
def visitDatagram (s : State) (sys : System) (allocated : Option Pointer) (source : AddressV4)
    (bits : List UInt8) : Option State :=
  let (result, io) := exec (visitEvent sys source bits) s.io
  match result, allocated with
  | .ok (some _), some p =>
    if p ≠ 0 ∧ s.sessions p = none then
      some { s with
        io, responder := .emplacing p, created := s.created + 1
        sessions := Function.update s.sessions p (some ⟨s.created, false, .transferring⟩) }
    else none
  | _, _ => some { s with io, responder := .popping }

/-- The responder handles a notification: `visit_event(event_notify_type const&)`. -/
def visitNotify (s : State) (who : Pointer) : State :=
  if who = 0 then { s with responder := .popping }
  else match s.sessions who with
    | none => { s with responder := .undefined }
    | some session =>
      if session.done = true ∧ who ∈ s.sessionList then
        { s with
          sessionList := s.sessionList.erase who, erased := s.erased ++ [session.number]
          responder := .destroying who }
      else { s with responder := .popping }

/-- A step, or `none` where the thread cannot go on. What a session does in its transfer is not
looked at, so `store` is enabled as long as the transfer lasts: it ends at any time, or never if the
action is never taken. -/
def step (s : State) : Action → Option State
  | .receive o =>
    match received o with
    | some (source, bits) => some { s with events := s.events ++ [.packet source bits] }
    | none => some s
  | .pop =>
    match s.responder, s.events with
    | .popping, event :: events => some { s with events, responder := .visiting event }
    | _, _ => none
  | .visit sys allocated =>
    match s.responder with
    | .visiting (.packet source bits) => visitDatagram s sys allocated source bits
    | .visiting (.notify who _) => some (visitNotify s who)
    | _ => none
  | .emplace =>
    match s.responder with
    | .emplacing p =>
      -- An entry that is there stays, and the new session is destroyed.
      if p ∈ s.sessionList then some { s with responder := .destroying p }
      else some { s with sessionList := insert p s.sessionList, responder := .popping }
    | _ => none
  | .destroy =>
    match s.responder with
    | .destroying p =>
      match s.sessions p with
      | none => some { s with responder := .undefined }
      | some session =>
        if session.thread = .finished then
          some { s with sessions := Function.update s.sessions p none, responder := .popping }
        else none
    | _ => none
  | .store p =>
    match s.sessions p with
    | some ⟨number, _, .transferring⟩ =>
      some { s with
        sessions := Function.update s.sessions p (some ⟨number, true, .notifying⟩)
        marked := s.marked ++ [number] }
    | _ => none
  | .notify p =>
    match s.sessions p with
    | some ⟨number, done, .notifying⟩ =>
      some { s with
        sessions := Function.update s.sessions p (some ⟨number, done, .finished⟩)
        events := s.events ++ [.notify p number] }
    | _ => none

/-- What a step can do: one case for each way an action goes. -/
inductive Steps (s : State) : Action → State → Prop where
  | arrives {o : RecvOutcome} {source : AddressV4} {bits : List UInt8}
      (ho : received o = some (source, bits)) :
      Steps s (.receive o) { s with events := s.events ++ [.packet source bits] }
  | ignores {o : RecvOutcome} (ho : received o = none) : Steps s (.receive o) s
  | pops {event : EventType} {events : List EventType} (hs : s.responder = .popping)
      (hevents : s.events = event :: events) :
      Steps s .pop { s with events, responder := .visiting event }
  | visitsPacket {sys : System} {allocated : Option Pointer} {source : AddressV4}
      {bits : List UInt8} {s' : State} (hs : s.responder = .visiting (.packet source bits))
      (hvisit : visitDatagram s sys allocated source bits = some s') :
      Steps s (.visit sys allocated) s'
  | visitsNotify {sys : System} {allocated : Option Pointer} {who : Pointer} {number : ℕ}
      (hs : s.responder = .visiting (.notify who number)) :
      Steps s (.visit sys allocated) (visitNotify s who)
  | drops {p : Pointer} (hs : s.responder = .emplacing p) (hp : p ∈ s.sessionList) :
      Steps s .emplace { s with responder := .destroying p }
  | emplaces {p : Pointer} (hs : s.responder = .emplacing p) (hp : p ∉ s.sessionList) :
      Steps s .emplace { s with sessionList := insert p s.sessionList, responder := .popping }
  | dangles {p : Pointer} (hs : s.responder = .destroying p) (hp : s.sessions p = none) :
      Steps s .destroy { s with responder := .undefined }
  | destroys {p : Pointer} {session : Session} (hs : s.responder = .destroying p)
      (hp : s.sessions p = some session) (hfinished : session.thread = .finished) :
      Steps s .destroy
        { s with sessions := Function.update s.sessions p none, responder := .popping }
  | stores {p : Pointer} {number : ℕ} {done : Bool}
      (hp : s.sessions p = some ⟨number, done, .transferring⟩) :
      Steps s (.store p) { s with
        sessions := Function.update s.sessions p (some ⟨number, true, .notifying⟩)
        marked := s.marked ++ [number] }
  | notifies {p : Pointer} {number : ℕ} {done : Bool}
      (hp : s.sessions p = some ⟨number, done, .notifying⟩) :
      Steps s (.notify p) { s with
        sessions := Function.update s.sessions p (some ⟨number, done, .finished⟩)
        events := s.events ++ [.notify p number] }

/-- **The cases of a step.** -/
theorem steps_of_step {s s' : State} {a : Action} (hstep : step s a = some s') :
    Steps s a s' := by
  cases a with
  | receive o =>
    rw [step] at hstep
    split at hstep <;> obtain rfl := Option.some.inj hstep
    · exact .arrives ‹_›
    · exact .ignores ‹_›
  | pop =>
    rw [step] at hstep
    split at hstep
    · obtain rfl := Option.some.inj hstep
      exact .pops ‹_› ‹_›
    · cases hstep
  | visit sys allocated =>
    rw [step] at hstep
    split at hstep
    · exact .visitsPacket ‹_› hstep
    · obtain rfl := Option.some.inj hstep
      exact .visitsNotify ‹_›
    · cases hstep
  | emplace =>
    rw [step] at hstep
    split at hstep
    · split at hstep <;> obtain rfl := Option.some.inj hstep
      · exact .drops ‹_› ‹_›
      · exact .emplaces ‹_› ‹_›
    · cases hstep
  | destroy =>
    rw [step] at hstep
    split at hstep
    · split at hstep
      · obtain rfl := Option.some.inj hstep
        exact .dangles ‹_› ‹_›
      · obtain ⟨hfinished, hstep⟩ := Option.ite_none_right_eq_some.mp hstep
        obtain rfl := Option.some.inj hstep
        exact .destroys ‹_› ‹_› hfinished
    · cases hstep
  | store p =>
    rw [step] at hstep
    split at hstep
    · obtain rfl := Option.some.inj hstep
      exact .stores ‹_›
    · cases hstep
  | notify p =>
    rw [step] at hstep
    split at hstep
    · obtain rfl := Option.some.inj hstep
      exact .notifies ‹_›
    · cases hstep

/-- The server after `start`. -/
def start : State := ⟨[], .popping, ∅, fun _ => none, 0, [], [], ⟨[], 0, 0⟩⟩

/-! ### What the main socket sends -/

/-- The packets that a session is created for. -/
def isRequest : TftpPacket → Bool
  | .rrq _ | .wrq _ => true
  | _ => false

def isError : TftpPacket → Bool
  | .error _ => true
  | _ => false

/-- The packets that `visit_packet` answers. -/
def isAnswered : TftpPacket → Bool
  | .data _ | .ack _ | .error _ | .oack _ => true
  | _ => false

/-- The bytes decode to a packet of this kind. -/
def readsAs (kind : TftpPacket → Bool) (bits : List UInt8) : Bool :=
  match TftpPacket.ofBits bits with
  | .ok packet => kind packet
  | .error _ => false

/-- The bytes of the answer. -/
def answerBits : List UInt8 :=
  Scalar.encode .network tftpOpcodeError ++
    (Scalar.encode .network ErrorCategoryType.illegalOperation ++
      (TftpPacket.errorCodeToString .illegalOperation ++ [0]))

theorem serialize_answer :
    serializeToVector (TftpPacket.makeError .illegalOperation) = .ok answerBits :=
  TftpPacket.serialize_error _

/-- The answer is an ERROR itself. -/
theorem readsAs_isError_answerBits : readsAs isError answerBits = true := by
  decide +kernel

theorem isAnswered_of_isError {bits : List UInt8} (h : readsAs isError bits = true) :
    readsAs isAnswered bits = true := by
  rw [readsAs] at h ⊢
  split at h
  · rename_i packet hpacket
    cases packet <;> simp_all [isError, isAnswered]
  · cases h

variable {sys : System} {source : AddressV4} {bits : List UInt8}

/-- **What is answered**, by an ERROR, with any outcome. -/
theorem exec_visitEvent_of_answered (h : readsAs isAnswered bits = true) (s : IoState) :
    exec (visitEvent sys source bits) s =
      (sys.sendto s.log ⟨source, answerBits⟩).elim
        (.ok none, s.push (.sent ⟨source, answerBits⟩))
        fun e => (.error e, s.push (.sendFailed ⟨source, answerBits⟩ e)) := by
  rw [readsAs] at h
  split at h
  · rename_i packet hpacket
    have hvisit : visitPacket sys source packet = (do
        send sys (TftpPacket.makeError .illegalOperation) source
        return none) := by
      cases packet with
      | monostate | rrq | wrq => cases h
      | data | ack | error | oack => rfl
    rw [visitEvent, hpacket, exec_bind_ok (exec_liftExcept ..), hvisit, exec_bind,
      exec_send serialize_answer]
    cases sys.sendto s.log ⟨source, answerBits⟩ <;> rfl
  · cases h

/-- **What is not answered**: requests, and what does not decode. -/
theorem exec_visitEvent_of_not_answered (h : readsAs isAnswered bits = false) (s : IoState) :
    (exec (visitEvent sys source bits) s).2 = s := by
  rw [readsAs] at h
  rw [visitEvent]
  cases hpacket : TftpPacket.ofBits bits with
  | error e => rfl
  | ok packet =>
    rw [hpacket] at h
    rw [exec_bind_ok (exec_liftExcept ..)]
    cases packet with
    | monostate | rrq | wrq => rfl
    | data | ack | error | oack => cases h

/-- Nothing but a request makes a session. -/
theorem isRequest_of_exec_visitEvent {request : Request} {s : IoState}
    (h : (exec (visitEvent sys source bits) s).1 = .ok (some request)) :
    readsAs isRequest bits = true := by
  by_cases hanswered : readsAs isAnswered bits = true
  · rw [exec_visitEvent_of_answered hanswered] at h
    cases hsend : sys.sendto s.log ⟨source, answerBits⟩ <;> rw [hsend] at h <;> cases h
  · rw [visitEvent] at h
    rw [readsAs] at hanswered ⊢
    cases hpacket : TftpPacket.ofBits bits with
    | error e =>
      rw [hpacket] at h
      cases h
    | ok packet =>
      rw [hpacket] at h hanswered
      rw [exec_bind_ok (exec_liftExcept ..)] at h
      cases packet with
      | rrq | wrq => rfl
      | monostate => cases h
      | data | ack | error | oack => exact absurd rfl hanswered

end TftpServerV4

end Bootpd
