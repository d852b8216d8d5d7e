import Bootpd.TftpSessionList

/-!
# Two servers that answer each other

The main sockets of two servers send to each other over a network that delivers what is in flight
in any order. A datagram in flight has the source its sender gave it, which may be a forged one;
the servers answer to it.

## An ERROR is answered

`visit_packet` answers every packet that is no request by an ERROR, and an ERROR is no request. So
the answer to an answer is an answer, and one datagram with the source of the other server is enough
for an exchange without an end. `validate_ack` of a session, which also answers what it does not
expect, does not answer an ERROR.

What an exchange comes to can be read off what is in flight at its start. A datagram is `Harmless`
if it is no request and no ERROR and its answer does not go to a server. If all are, the answers
still to be sent are counted, and the count only goes down. If one is not, it is followed round by
round.

## Scope

A request starts a session, and what a session sends is not modelled. So there is none here, and
what is sent is counted as long as none has been constructed. The servers work step by step as in
`TftpServerV4`, in any order, with any answers of their sockets. A datagram to anybody else leaves
the network.

## Main definitions

* `ErrorExchange.Network`, `ErrorExchange.step` — two servers and what is in flight
* `ErrorExchange.Calm` — nothing that is to be handled is answered to a server
* `ErrorExchange.Ends` — a bounded number of datagrams is sent, and no ERROR answered

## Main results

* `ErrorExchange.sent_le` — what is sent when no answer reaches a server
* `ErrorExchange.exists_sent_ge` — what is sent when one does
* `ErrorExchange.ends_iff` — when the exchange ends
* `ErrorExchange.endless` — one forged ERROR
-/

namespace Bootpd

open Imperative SocketUdp Transition TftpServerV4

namespace ErrorExchange

/-! ### The network -/

/-- A datagram in flight. -/
structure Packet where
  source : AddressV4
  target : AddressV4
  bits : List UInt8
deriving DecidableEq

/-- Two servers, and what is in flight. -/
structure Network where
  servers : Bool → TftpServerV4.State
  inFlight : List Packet

inductive Action where
  /-- The datagram at a position in flight arrives. -/
  | deliver (i : ℕ)
  /-- A step of one of the servers, not an arrival. -/
  | server (k : Bool) (a : TftpServerV4.Action)

/-- The server whose main socket has the address. -/
def serverAt (addresses : Bool → AddressV4) (target : AddressV4) : Option Bool :=
  if target = addresses false then some false
  else if target = addresses true then some true
  else none

def sentFrom (source : AddressV4) : Event → Option Packet
  | .sent d => some ⟨source, d.target, d.bits⟩
  | _ => none

/-- What has been sent between two states of a server. -/
def sentBetween (source : AddressV4) (s s' : TftpServerV4.State) : List Packet :=
  (s'.io.log.drop s.io.log.length).filterMap (sentFrom source)

variable (addresses : Bool → AddressV4)

def step (net : Network) : Action → Option Network
  | .deliver i =>
    match net.inFlight[i]? with
    | none => none
    | some d =>
      match serverAt addresses d.target with
      | none => some { net with inFlight := net.inFlight.eraseIdx i }
      | some k =>
        (TftpServerV4.step (net.servers k) (.receive (.datagram d.source d.bits))).map fun s =>
          ⟨Function.update net.servers k s, net.inFlight.eraseIdx i⟩
  | .server _ (.receive (.datagram ..)) => none
  | .server k a =>
    (TftpServerV4.step (net.servers k) a).map fun s =>
      ⟨Function.update net.servers k s,
        net.inFlight ++ sentBetween (addresses k) (net.servers k) s⟩

/-- Two servers after `start`, with `inFlight` on its way. -/
def start (inFlight : List Packet) : Network := ⟨fun _ => TftpServerV4.start, inFlight⟩

def isSent : Event → Bool
  | .sent _ => true
  | _ => false

/-- How many datagrams a server has sent. -/
def sentBy (s : TftpServerV4.State) : ℕ := s.io.log.countP isSent

/-- A sum over the two servers. -/
def Network.total (net : Network) (f : TftpServerV4.State → ℕ) : ℕ :=
  f (net.servers false) + f (net.servers true)

def Network.sent (net : Network) : ℕ := net.total sentBy

/-- All that has been sent is at most `bound` datagrams: there are no sessions. -/
structure SentAtMost (bound : ℕ) (net : Network) : Prop where
  created : ∀ k, (net.servers k).created = 0
  sent : net.sent ≤ bound

/-- A server that handles an ERROR sends nothing. -/
def AnswersNoError (net : Network) : Prop :=
  ∀ k source bits, (net.servers k).responder = .visiting (.packet source bits) →
    readsAs isError bits = true → ∀ sys allocated s,
      TftpServerV4.step (net.servers k) (.visit sys allocated) = some s →
        sentBy s = sentBy (net.servers k)

/-- The exchange ends, whatever the order of deliveries, and no ERROR is answered. -/
structure Ends (inFlight : List Packet) : Prop where
  bounded : ∃ bound, ∀ as net, run (step addresses) (start inFlight) as = some net →
    SentAtMost bound net
  ignored : ∀ as net, run (step addresses) (start inFlight) as = some net → AnswersNoError net

/-! ### A step of a server -/

/-- The datagram of an event. -/
def packetOf : EventType → Option (AddressV4 × List UInt8)
  | .packet source bits => some (source, bits)
  | .notify .. => none

/-- The datagrams that a server has not handled. -/
def packets (s : TftpServerV4.State) : List (AddressV4 × List UInt8) :=
  s.pending.filterMap packetOf

variable {s s' : TftpServerV4.State} {a : TftpServerV4.Action}

/-- A server handles a datagram. -/
structure Handles (source : AddressV4) (bits : List UInt8) (s s' : TftpServerV4.State) :
    Prop where
  packets : packets s = (source, bits) :: packets s'
  io : ∃ sys, s'.io = (exec (visitEvent sys source bits) s.io).2
  created : s'.created = s.created ∨ readsAs isRequest bits = true

/-- A server does something that has nothing to do with datagrams. -/
structure Idles (s s' : TftpServerV4.State) : Prop where
  packets : packets s' = packets s
  io : s'.io = s.io
  created : s'.created = s.created

theorem packets_of_visiting {event : EventType} (h : s.responder = .visiting event) :
    packets s = (packetOf event).toList ++ s.events.filterMap packetOf := by
  rw [packets, pending_of_visiting h]
  cases event <;> rfl

theorem packets_of_ne (h : ∀ event, s.responder ≠ .visiting event) :
    packets s = s.events.filterMap packetOf := by
  rw [packets, pending_of_ne h]

theorem Handles.of_visitDatagram {sys : System} {allocated : Option Pointer} {source : AddressV4}
    {bits : List UInt8} (hs : s.responder = .visiting (.packet source bits))
    (hstep : visitDatagram s sys allocated source bits = some s') : Handles source bits s s' := by
  have hpackets := packets_of_visiting hs
  rw [visitDatagram] at hstep
  dsimp only at hstep
  split at hstep
  · rename_i hrequest
    obtain ⟨-, hstep⟩ := Option.ite_none_right_eq_some.mp hstep
    obtain rfl := Option.some.inj hstep
    exact ⟨hpackets, ⟨sys, rfl⟩, .inr (isRequest_of_exec_visitEvent hrequest)⟩
  · obtain rfl := Option.some.inj hstep
    exact ⟨hpackets, ⟨sys, rfl⟩, .inl rfl⟩

theorem Idles.of_visitNotify {who : Pointer} {number : ℕ}
    (hs : s.responder = .visiting (.notify who number)) : Idles s (visitNotify s who) := by
  have hpackets := packets_of_visiting hs
  rw [visitNotify]
  split
  · exact ⟨hpackets.symm, rfl, rfl⟩
  · split
    · exact ⟨hpackets.symm, rfl, rfl⟩
    · split <;> exact ⟨hpackets.symm, rfl, rfl⟩

/-- **A step of a server**, for the network. -/
theorem idles_or_handles (harrival : ∀ source bits, a ≠ .receive (.datagram source bits))
    (hstep : TftpServerV4.step s a = some s') :
    Idles s s' ∨ ∃ source bits, Handles source bits s s' := by
  cases TftpServerV4.steps_of_step hstep with
  | arrives ho =>
    -- only a datagram is put into the queue
    rename_i o source bits
    cases o with
    | datagram source' bits' => exact absurd rfl (harrival source' bits')
    | timedOut | failed => cases ho
  | ignores => exact .inl ⟨rfl, rfl, rfl⟩
  | pops hs hevents =>
    rename_i event events
    refine .inl ⟨?_, rfl, rfl⟩
    rw [packets_of_visiting rfl, packets_of_ne (by simp [hs]), hevents]
    cases event <;> rfl
  | visitsPacket hs hvisit => exact .inr ⟨_, _, .of_visitDatagram hs hvisit⟩
  | visitsNotify hs => exact .inl (.of_visitNotify hs)
  | drops hs | emplaces hs | dangles hs | destroys hs =>
    have hpackets := packets_of_ne (s := s) (by simp [hs])
    exact .inl ⟨hpackets.symm, rfl, rfl⟩
  | stores => exact .inl ⟨rfl, rfl, rfl⟩
  | notifies hp =>
    rename_i p number done
    refine .inl ⟨?_, rfl, rfl⟩
    have hpending : packets { s with events := s.events ++ [.notify p number] } = packets s := by
      rw [packets, pending_push, List.filterMap_append]
      exact List.append_nil _
    exact hpending

/-- A datagram that is not empty is put into the queue. -/
theorem step_arrive (s : TftpServerV4.State) (source : AddressV4) {bits : List UInt8}
    (hbits : bits ≠ []) : TftpServerV4.step s (.receive (.datagram source bits)) =
      some { s with events := s.events ++ [.packet source bits] } := by
  obtain ⟨byte, rest, rfl⟩ := List.exists_cons_of_ne_nil hbits
  rfl

/-- What arrives is put into the queue, unless it is empty. -/
theorem packets_of_arrival {source : AddressV4} {bits : List UInt8}
    (hstep : TftpServerV4.step s (.receive (.datagram source bits)) = some s') :
    (packets s' = packets s ∨ packets s' = packets s ++ [(source, bits)]) ∧ s'.io = s.io ∧
      s'.created = s.created := by
  by_cases hbits : bits = []
  · subst hbits
    obtain rfl := Option.some.inj hstep
    exact ⟨.inl rfl, rfl, rfl⟩
  · rw [step_arrive s source hbits] at hstep
    obtain rfl := Option.some.inj hstep
    refine ⟨.inr ?_, rfl, rfl⟩
    rw [packets, pending_push, List.filterMap_append]
    rfl

/-- **What handling a datagram sends.** -/
theorem Handles.io_eq {source : AddressV4} {bits : List UInt8} (h : Handles source bits s s') :
    (readsAs isAnswered bits = false ∧ s'.io = s.io) ∨
      readsAs isAnswered bits = true ∧ (s'.io = s.io.push (.sent ⟨source, answerBits⟩) ∨
        ∃ e, s'.io = s.io.push (.sendFailed ⟨source, answerBits⟩ e)) := by
  obtain ⟨sys, hio⟩ := h.io
  cases hanswered : readsAs isAnswered bits with
  | false =>
    rw [exec_visitEvent_of_not_answered hanswered] at hio
    exact .inl ⟨rfl, hio⟩
  | true =>
    rw [exec_visitEvent_of_answered hanswered] at hio
    refine .inr ⟨rfl, ?_⟩
    cases hsend : sys.sendto s.io.log ⟨source, answerBits⟩ with
    | none => exact .inl (by rw [hio, hsend]; rfl)
    | some e => exact .inr ⟨e, by rw [hio, hsend]; rfl⟩

/-! ### A step of the network -/

variable {addresses : Bool → AddressV4} {net net' : Network}

/-- **A step of the network**: a datagram goes elsewhere, or to a server, or a server does
something. -/
theorem step_cases {a : Action} (hstep : step addresses net a = some net') :
    (∃ i d, net.inFlight[i]? = some d ∧ serverAt addresses d.target = none ∧
      net' = ⟨net.servers, net.inFlight.eraseIdx i⟩) ∨
    (∃ i d k s, net.inFlight[i]? = some d ∧ serverAt addresses d.target = some k ∧
      TftpServerV4.step (net.servers k) (.receive (.datagram d.source d.bits)) = some s ∧
      net' = ⟨Function.update net.servers k s, net.inFlight.eraseIdx i⟩) ∨
    ∃ k a s, (∀ source bits, a ≠ .receive (.datagram source bits)) ∧
      TftpServerV4.step (net.servers k) a = some s ∧
      net' = ⟨Function.update net.servers k s,
        net.inFlight ++ sentBetween (addresses k) (net.servers k) s⟩ := by
  cases a with
  | deliver i =>
    cases hi : net.inFlight[i]? with
    | none =>
      rw [step, hi] at hstep
      cases hstep
    | some d =>
      cases hk : serverAt addresses d.target with
      | none =>
        simp only [step, hi, hk, Option.some.injEq] at hstep
        exact .inl ⟨i, d, hi, hk, hstep.symm⟩
      | some k =>
        simp only [step, hi, hk] at hstep
        obtain ⟨s, hs, rfl⟩ := Option.map_eq_some_iff.mp hstep
        exact .inr (.inl ⟨i, d, k, s, hi, hk, hs, rfl⟩)
  | server k a =>
    refine .inr (.inr ⟨k, a, ?_⟩)
    rw [step.eq_def] at hstep
    split at hstep
    · rename_i heq
      cases heq
    · cases hstep
    · rename_i harrival heq
      cases heq
      obtain ⟨s, hs, rfl⟩ := Option.map_eq_some_iff.mp hstep
      exact ⟨s, fun source bits ha => harrival source bits ha, hs, rfl⟩

theorem serverAt_address (addresses : Bool → AddressV4) (k : Bool) :
    (serverAt addresses (addresses k)).isSome = true := by
  rw [serverAt]
  cases k <;> split_ifs <;> simp_all

theorem total_update (net : Network) (f : TftpServerV4.State → ℕ) (k : Bool)
    (s : TftpServerV4.State) (inFlight : List Packet) :
    (Network.mk (Function.update net.servers k s) inFlight).total f + f (net.servers k) =
      net.total f + f s := by
  cases k <;> simp only [Network.total, Function.update_self, ne_eq, reduceCtorEq,
    not_false_eq_true, Function.update_of_ne] <;> omega

/-! ### Exchanges that end -/

variable (addresses) in
/-- The answer to the datagram, if there is one, does not go to a server. -/
structure Harmless (source : AddressV4) (bits : List UInt8) : Prop where
  request : readsAs isRequest bits = false
  error : readsAs isError bits = false
  source : readsAs isAnswered bits = true → serverAt addresses source = none

variable (addresses) in
/-- Nothing that a server has to handle is answered to a server. -/
structure Calm (net : Network) : Prop where
  flying : ∀ d ∈ net.inFlight, (serverAt addresses d.target).isSome = true →
    Harmless addresses d.source d.bits
  queued : ∀ k, ∀ packet ∈ packets (net.servers k), Harmless addresses packet.1 packet.2
  created : ∀ k, (net.servers k).created = 0

/-- The answers a server has still to send. -/
def pendingAnswers (s : TftpServerV4.State) : ℕ :=
  (packets s).countP fun packet => readsAs isAnswered packet.2

variable (addresses) in
/-- The datagram will be answered, when it arrives. -/
def willBeAnswered (d : Packet) : Bool :=
  (serverAt addresses d.target).isSome && readsAs isAnswered d.bits

variable (addresses) in
/-- The answers that are still to be sent. -/
def answersLeft (net : Network) : ℕ :=
  net.inFlight.countP (willBeAnswered addresses) + net.total pendingAnswers

theorem countP_eraseIdx_add (p : Packet → Bool) {l : List Packet} {i : ℕ} {d : Packet}
    (h : l[i]? = some d) :
    (l.eraseIdx i).countP p + (if p d = true then 1 else 0) = l.countP p := by
  obtain ⟨hi, rfl⟩ := List.getElem?_eq_some_iff.mp h
  rw [← (List.getElem_cons_eraseIdx_perm hi).countP_eq p, List.countP_cons]

theorem Calm.of_update (h : Calm addresses net) {k : Bool} {s : TftpServerV4.State}
    {inFlight : List Packet}
    (hinFlight : ∀ d ∈ inFlight, d ∈ net.inFlight ∨ serverAt addresses d.target = none)
    (hpackets : ∀ packet ∈ packets s, packet ∈ packets (net.servers k) ∨
      Harmless addresses packet.1 packet.2)
    (hcreated : s.created = 0) : Calm addresses ⟨Function.update net.servers k s, inFlight⟩ where
  flying d hd hserver := by
    rcases hinFlight d hd with hd | hnone
    · exact h.flying d hd hserver
    · rw [hnone] at hserver
      cases hserver
  queued j packet := by
    show packet ∈ packets (Function.update net.servers k s j) → _
    by_cases hj : j = k
    · subst hj
      rw [Function.update_self]
      exact fun hpacket => (hpackets packet hpacket).elim (h.queued j packet) id
    · rw [Function.update_of_ne hj]
      exact h.queued j packet
  created j := by
    show (Function.update net.servers k s j).created = 0
    by_cases hj : j = k
    · subst hj
      rw [Function.update_self]
      exact hcreated
    · rw [Function.update_of_ne hj]
      exact h.created j

theorem sentBetween_of_io_eq (source : AddressV4) (h : s'.io = s.io) :
    sentBetween source s s' = [] := by
  rw [sentBetween, h, List.drop_length]
  rfl

theorem sentBetween_of_push (source : AddressV4) {ev : Event} (h : s'.io = s.io.push ev) :
    sentBetween source s s' = [ev].filterMap (sentFrom source) := by
  rw [sentBetween, h, IoState.log_push, List.drop_left]

theorem sentBy_of_push {ev : Event} (h : s'.io = s.io.push ev) :
    sentBy s' = sentBy s + (if isSent ev = true then 1 else 0) := by
  rw [sentBy, h, IoState.log_push, List.countP_append, List.countP_singleton]
  rfl

/-- A datagram goes elsewhere. -/
theorem Calm.lose (h : Calm addresses net) (i : ℕ) :
    Calm addresses ⟨net.servers, net.inFlight.eraseIdx i⟩ :=
  ⟨fun d hd => h.flying d (List.mem_of_mem_eraseIdx hd), h.queued, h.created⟩

/-- A datagram arrives. -/
theorem Calm.arrive (h : Calm addresses net) {i : ℕ} {d : Packet} {k : Bool}
    (hi : net.inFlight[i]? = some d) (hk : serverAt addresses d.target = some k)
    (hstep : TftpServerV4.step (net.servers k) (.receive (.datagram d.source d.bits)) = some s) :
    let net' : Network := ⟨Function.update net.servers k s, net.inFlight.eraseIdx i⟩
    Calm addresses net' ∧
      net'.sent + answersLeft addresses net' ≤ net.sent + answersLeft addresses net := by
  intro net'
  obtain ⟨hpackets, hio, hcreated⟩ := packets_of_arrival hstep
  have hd := h.flying d (List.mem_of_getElem? hi) (by rw [hk]; rfl)
  refine ⟨h.of_update (fun d hd => .inl (List.mem_of_mem_eraseIdx hd)) (fun packet hpacket => ?_)
    (hcreated.trans (h.created k)), ?_⟩
  · rcases hpackets with hpackets | hpackets <;> rw [hpackets] at hpacket
    · exact .inl hpacket
    · rcases List.mem_append.mp hpacket with hpacket | hpacket
      · exact .inl hpacket
      · obtain rfl := List.mem_singleton.mp hpacket
        exact .inr hd
  · have hsent : net'.sent + sentBy (net.servers k) = net.sent + sentBy s := total_update ..
    have hleft : net'.total pendingAnswers + pendingAnswers (net.servers k) =
      net.total pendingAnswers + pendingAnswers s := total_update ..
    have hby : sentBy s = sentBy (net.servers k) := by rw [sentBy, hio, sentBy]
    have hpending : pendingAnswers s ≤ pendingAnswers (net.servers k) +
        (if willBeAnswered addresses d = true then 1 else 0) := by
      rcases hpackets with hpackets | hpackets
      · rw [pendingAnswers, hpackets]
        exact Nat.le_add_right ..
      · rw [pendingAnswers, hpackets, List.countP_append, List.countP_singleton, willBeAnswered, hk]
        exact le_rfl
    have hflying := countP_eraseIdx_add (willBeAnswered addresses) hi
    rw [answersLeft, answersLeft]
    show net'.sent + ((net.inFlight.eraseIdx i).countP _ + _) ≤ _
    omega

/-- A server does something that has nothing to do with datagrams. -/
theorem Calm.idle (h : Calm addresses net) {k : Bool} (hidle : Idles (net.servers k) s) :
    let net' : Network := ⟨Function.update net.servers k s,
      net.inFlight ++ sentBetween (addresses k) (net.servers k) s⟩
    Calm addresses net' ∧
      net'.sent + answersLeft addresses net' ≤ net.sent + answersLeft addresses net := by
  intro net'
  have hnone := sentBetween_of_io_eq (addresses k) hidle.io
  refine ⟨h.of_update (fun d hd => ?_) (fun packet hpacket => .inl (hidle.packets ▸ hpacket))
    (hidle.created.trans (h.created k)), ?_⟩
  · rw [hnone, List.append_nil] at hd
    exact .inl hd
  · have hsent : net'.sent + sentBy (net.servers k) = net.sent + sentBy s := total_update ..
    have hleft : net'.total pendingAnswers + pendingAnswers (net.servers k) =
      net.total pendingAnswers + pendingAnswers s := total_update ..
    have hby : sentBy s = sentBy (net.servers k) := by rw [sentBy, hidle.io, sentBy]
    have hpending : pendingAnswers s = pendingAnswers (net.servers k) := by
      rw [pendingAnswers, hidle.packets, pendingAnswers]
    have hflying : net'.inFlight = net.inFlight := by rw [← List.append_nil net.inFlight, ← hnone]
    rw [answersLeft, answersLeft, hflying]
    omega

/-- An answer that goes elsewhere is one that was left. -/
theorem Handles.sent {source : AddressV4} {bits : List UInt8} (h : Handles source bits s s')
    (hsource : readsAs isAnswered bits = true → serverAt addresses source = none)
    (address : AddressV4) :
    (∀ d ∈ sentBetween address s s', serverAt addresses d.target = none) ∧
      sentBy s' + pendingAnswers s' ≤ sentBy s + pendingAnswers s := by
  have hpending : pendingAnswers s =
      pendingAnswers s' + (if readsAs isAnswered bits = true then 1 else 0) := by
    rw [pendingAnswers, h.packets, List.countP_cons, pendingAnswers]
  rw [hpending]
  rcases h.io_eq with ⟨hanswered, hio⟩ | ⟨hanswered, hio | ⟨e, hio⟩⟩
  · have hby : sentBy s' = sentBy s := by rw [sentBy, hio, sentBy]
    rw [sentBetween_of_io_eq address hio]
    exact ⟨by simp, by omega⟩
  · have hby : sentBy s' = sentBy s + 1 := sentBy_of_push hio
    rw [sentBetween_of_push address hio, if_pos hanswered]
    refine ⟨fun d hd => ?_, by omega⟩
    obtain rfl := List.mem_singleton.mp hd
    exact hsource hanswered
  · have hby : sentBy s' = sentBy s := sentBy_of_push hio
    rw [sentBetween_of_push address hio]
    exact ⟨by simp [sentFrom], by omega⟩

/-- A server handles a datagram. -/
theorem Calm.handle (h : Calm addresses net) {k : Bool} {source : AddressV4} {bits : List UInt8}
    (hhandle : Handles source bits (net.servers k) s) :
    let net' : Network := ⟨Function.update net.servers k s,
      net.inFlight ++ sentBetween (addresses k) (net.servers k) s⟩
    Calm addresses net' ∧
      net'.sent + answersLeft addresses net' ≤ net.sent + answersLeft addresses net := by
  intro net'
  have hharmless := h.queued k (source, bits) (by rw [hhandle.packets]; exact List.mem_cons_self)
  obtain ⟨helsewhere, hpaid⟩ := hhandle.sent hharmless.source (addresses k)
  have hcreated : s.created = 0 := by
    rcases hhandle.created with hcreated | hrequest
    · exact hcreated.trans (h.created k)
    · rw [hharmless.request] at hrequest
      cases hrequest
  refine ⟨h.of_update (fun d hd => (List.mem_append.mp hd).imp_right (helsewhere d))
    (fun packet hpacket => .inl ?_) hcreated, ?_⟩
  · rw [hhandle.packets]
    exact List.mem_cons_of_mem _ hpacket
  · have hsent : net'.sent + sentBy (net.servers k) = net.sent + sentBy s := total_update ..
    have hleft : net'.total pendingAnswers + pendingAnswers (net.servers k) =
      net.total pendingAnswers + pendingAnswers s := total_update ..
    have hnone : (sentBetween (addresses k) (net.servers k) s).countP
        (willBeAnswered addresses) = 0 := by
      rw [List.countP_eq_zero]
      intro d hd
      rw [willBeAnswered, helsewhere d hd]
      exact Bool.false_ne_true
    rw [answersLeft, answersLeft]
    show _ + ((net.inFlight ++ _).countP _ + _) ≤ _
    rw [List.countP_append, hnone]
    omega

/-- **A step of a calm network** leaves it calm, and sends nothing but an answer that was left. -/
theorem Calm.step {a : Action} (h : Calm addresses net)
    (hstep : ErrorExchange.step addresses net a = some net') : Calm addresses net' ∧
      net'.sent + answersLeft addresses net' ≤ net.sent + answersLeft addresses net := by
  rcases step_cases hstep with ⟨i, d, hi, hk, rfl⟩ | ⟨i, d, k, s, hi, hk, hs, rfl⟩ |
    ⟨k, a, s, harrival, hs, rfl⟩
  · refine ⟨h.lose i, ?_⟩
    have hflying := countP_eraseIdx_add (willBeAnswered addresses) hi
    rw [answersLeft, answersLeft]
    show net.sent + ((net.inFlight.eraseIdx i).countP _ + net.total _) ≤ _
    omega
  · exact h.arrive hi hk hs
  · rcases idles_or_handles harrival hs with hidle | ⟨source, bits, hhandle⟩
    · exact h.idle hidle
    · exact h.handle hhandle

theorem calm_start {inFlight : List Packet}
    (hrequest : ∀ d ∈ inFlight, readsAs isRequest d.bits = false)
    (h : ∀ d ∈ inFlight, (serverAt addresses d.target).isSome = true →
      readsAs isError d.bits = false ∧
        (readsAs isAnswered d.bits = true → serverAt addresses d.source = none)) :
    Calm addresses (start inFlight) where
  flying d hd hserver := ⟨hrequest d hd, (h d hd hserver).1, (h d hd hserver).2⟩
  queued _ _ hpacket := absurd hpacket List.not_mem_nil
  created _ := rfl

/-- **What is sent** in a run from a calm network. -/
theorem sent_le {as : List Action} {inFlight : List Packet} (h : Calm addresses (start inFlight))
    (hrun : run (step addresses) (start inFlight) as = some net) :
    SentAtMost (answersLeft addresses (start inFlight)) net := by
  have hkeeps : Keeps (step addresses) (Calm addresses) := fun _ _ _ hnet hstep =>
    (hnet.step hstep).1
  refine ⟨(hkeeps.run h hrun).created, ?_⟩
  have hle := cost_le hkeeps (fun _ _ _ hnet hstep => (hnet.step hstep).2) h hrun
  have hzero : (start inFlight).sent = 0 := rfl
  rwa [hzero, Nat.zero_add] at hle

/-! ### Exchanges that do not -/

/-- The responders have nothing to do. -/
def Waiting (net : Network) : Prop :=
  ∀ k, (net.servers k).responder = .popping ∧ (net.servers k).events = []

theorem ne_nil_of_answered {bits : List UInt8} (h : readsAs isAnswered bits = true) :
    bits ≠ [] := by
  rintro rfl
  cases h

/-- A server takes a datagram. -/
theorem run_take {i : ℕ} {d : Packet} {k : Bool} (hi : net.inFlight[i]? = some d)
    (hk : serverAt addresses d.target = some k) (hbits : d.bits ≠ [])
    (hwaiting : Waiting net) :
    run (step addresses) net [.deliver i, .server k .pop] = some
      ⟨Function.update net.servers k { net.servers k with
        events := [], responder := .visiting (.packet d.source d.bits) },
        net.inFlight.eraseIdx i⟩ := by
  obtain ⟨hresponder, hevents⟩ := hwaiting k
  have harrive := step_arrive (net.servers k) d.source hbits
  rw [hevents, List.nil_append] at harrive
  have hdeliver : step addresses net (.deliver i) = some
      ⟨Function.update net.servers k { net.servers k with events := [.packet d.source d.bits] },
        net.inFlight.eraseIdx i⟩ := by
    simp only [step, hi, hk, harrive, Option.map_some]
  refine run_cons_eq_some.mpr ⟨_, hdeliver, run_cons_eq_some.mpr ⟨_, ?_, rfl⟩⟩
  simp only [step, Function.update_self, TftpServerV4.step, hresponder, Option.map_some,
    Function.update_idem, sentBetween, List.drop_length, List.filterMap_nil, List.append_nil]

/-- It answers it. -/
theorem step_answer {source : AddressV4} {bits : List UInt8}
    (hs : s.responder = .visiting (.packet source bits))
    (hanswered : readsAs isAnswered bits = true) :
    TftpServerV4.step s (.visit (.serving ⟨[], by decide⟩) none) = some { s with
      responder := .popping, io := s.io.push (.sent ⟨source, answerBits⟩) } := by
  have hvisit : exec (visitEvent (.serving ⟨[], by decide⟩) source bits) s.io =
      (.ok none, s.io.push (.sent ⟨source, answerBits⟩)) :=
    exec_visitEvent_of_answered hanswered s.io
  rw [TftpServerV4.step, hs]
  dsimp only
  rw [visitDatagram, hvisit]

/-- **A round**: a server answers a datagram, and both wait again. -/
theorem exists_round {i : ℕ} {d : Packet} {k : Bool} (hi : net.inFlight[i]? = some d)
    (hk : serverAt addresses d.target = some k) (hanswered : readsAs isAnswered d.bits = true)
    (hwaiting : Waiting net) :
    ∃ as net', run (step addresses) net as = some net' ∧ Waiting net' ∧
      net'.sent = net.sent + 1 ∧
      net'.inFlight = net.inFlight.eraseIdx i ++ [⟨addresses k, d.source, answerBits⟩] := by
  let s : TftpServerV4.State := { net.servers k with
    events := [], responder := .visiting (.packet d.source d.bits) }
  let s' : TftpServerV4.State := { s with
    responder := .popping, io := s.io.push (.sent ⟨d.source, answerBits⟩) }
  have htake := run_take hi hk (ne_nil_of_answered hanswered) hwaiting
  have hanswer : TftpServerV4.step s (.visit (.serving ⟨[], by decide⟩) none) = some s' :=
    step_answer rfl hanswered
  have hsentBetween : sentBetween (addresses k) s s' =
      [Event.sent ⟨d.source, answerBits⟩].filterMap (sentFrom (addresses k)) :=
    sentBetween_of_push _ rfl
  refine ⟨[.deliver i, .server k .pop] ++ [.server k (.visit (.serving ⟨[], by decide⟩) none)],
    ⟨Function.update net.servers k s', net.inFlight.eraseIdx i ++
      [⟨addresses k, d.source, answerBits⟩]⟩, ?_, fun j => ?_, ?_, rfl⟩
  · rw [run_append, htake]
    show (step addresses _ _).bind some = _
    simp only [step, Function.update_self]
    rw [hanswer, Option.map_some, hsentBetween, Function.update_idem]
    rfl
  · show (Function.update net.servers k s' j).responder = _ ∧
      (Function.update net.servers k s' j).events = _
    by_cases hj : j = k
    · subst hj
      rw [Function.update_self]
      exact ⟨rfl, rfl⟩
    · rw [Function.update_of_ne hj]
      exact hwaiting j
  · have htotal := total_update net sentBy k s' (net.inFlight.eraseIdx i ++
      [⟨addresses k, d.source, answerBits⟩])
    have hpush : s'.io = s.io.push (.sent ⟨d.source, answerBits⟩) := rfl
    have hby : sentBy s' = sentBy s + 1 := sentBy_of_push hpush
    have hs : sentBy s = sentBy (net.servers k) := rfl
    rw [Network.sent, Network.sent]
    omega

variable (addresses) in
/-- Something is in flight whose answer comes back to a server. -/
structure Echoing (net : Network) : Prop where
  waiting : Waiting net
  echo : ∃ d ∈ net.inFlight, willBeAnswered addresses d = true ∧
    (serverAt addresses d.source).isSome = true

/-- An answer is answered. -/
theorem Echoing.round (h : Echoing addresses net) : ∃ as net',
    run (step addresses) net as = some net' ∧ Echoing addresses net' ∧ net.sent < net'.sent := by
  obtain ⟨d, hd, hanswered, hsource⟩ := h.echo
  obtain ⟨i, hi⟩ := List.mem_iff_getElem?.mp hd
  rw [willBeAnswered, Bool.and_eq_true] at hanswered
  obtain ⟨k, hk⟩ := Option.isSome_iff_exists.mp hanswered.1
  obtain ⟨as, net', hrun, hwaiting, hsent, hflying⟩ := exists_round hi hk hanswered.2 h.waiting
  refine ⟨as, net', hrun, ⟨hwaiting, ⟨addresses k, d.source, answerBits⟩, ?_, ?_,
    serverAt_address addresses k⟩, by omega⟩
  · rw [hflying]
    exact List.mem_append_right _ (List.mem_singleton_self _)
  · rw [willBeAnswered, hsource, isAnswered_of_isError readsAs_isError_answerBits]
    rfl

/-- **What is sent** when an answer comes back: any number of datagrams. -/
theorem exists_sent_ge (h : Echoing addresses net) (n : ℕ) :
    ∃ as net', run (step addresses) net as = some net' ∧ n ≤ net'.sent := by
  have hround : ∀ net, Echoing addresses net → ∃ as net',
      run (step addresses) net as = some net' ∧ Echoing addresses net' ∧ net.sent < net'.sent :=
    fun _ h => h.round
  obtain ⟨as, net', hrun, -, hn⟩ := exists_cost_ge hround h n
  exact ⟨as, net', hrun, hn⟩

theorem waiting_start (inFlight : List Packet) : Waiting (start inFlight) := fun _ => ⟨rfl, rfl⟩

/-- **When an exchange ends**: no ERROR is in flight to a server, and nothing else that is answered
has its source at one. -/
theorem ends_iff (addresses : Bool → AddressV4) {inFlight : List Packet}
    (hrequest : ∀ d ∈ inFlight, readsAs isRequest d.bits = false) :
    Ends addresses inFlight ↔
      ∀ d ∈ inFlight, (serverAt addresses d.target).isSome = true →
        readsAs isError d.bits = false ∧
          (readsAs isAnswered d.bits = true → serverAt addresses d.source = none) := by
  constructor
  · intro h d hd htarget
    constructor
    · by_contra herror
      rw [Bool.not_eq_false] at herror
      have hanswered := isAnswered_of_isError herror
      obtain ⟨i, hi⟩ := List.mem_iff_getElem?.mp hd
      obtain ⟨k, hk⟩ := Option.isSome_iff_exists.mp htarget
      have hflying : (start inFlight).inFlight[i]? = some d := hi
      have htake := run_take hflying hk (ne_nil_of_answered hanswered) (waiting_start inFlight)
      have hvisiting := congrArg TftpServerV4.State.responder (Function.update_self k
        { TftpServerV4.start with responder := .visiting (.packet d.source d.bits) }
        (start inFlight).servers)
      have hignored := h.ignored _ _ htake k d.source d.bits hvisiting herror _ _ _
        (step_answer hvisiting hanswered)
      rw [sentBy_of_push rfl] at hignored
      exact absurd hignored (Nat.succ_ne_self _)
    · intro hanswered
      by_contra hsource
      obtain ⟨bound, hbound⟩ := h.bounded
      have hecho : Echoing addresses (start inFlight) :=
        ⟨waiting_start inFlight, d, hd, by rw [willBeAnswered, htarget, hanswered]; rfl,
          Option.isSome_iff_ne_none.mpr hsource⟩
      obtain ⟨as, net, hrun, hsent⟩ := exists_sent_ge hecho (bound + 1)
      exact absurd ((hbound as net hrun).sent) (by omega)
  · intro h
    have hcalm := calm_start hrequest h
    have hkeeps : Keeps (step addresses) (Calm addresses) := fun _ _ _ hnet hstep =>
      (hnet.step hstep).1
    refine ⟨⟨_, fun as net hrun => sent_le hcalm hrun⟩, fun as net hrun => ?_⟩
    intro k source bits hs herror
    have hharmless := (hkeeps.run hcalm hrun).queued k (source, bits) (by
      rw [packets_of_visiting hs]
      exact List.mem_cons_self)
    rw [hharmless.error] at herror
    cases herror

/-- An ACK from elsewhere gets its one answer. -/
theorem ends_iff_ack : Ends (fun k => ⟨if k then 2 else 1, 69⟩)
    [⟨⟨3, 1024⟩, ⟨1, 69⟩, TftpPacket.ackBits 1⟩] :=
  (ends_iff _ (by decide +kernel)).mpr (by decide +kernel)

/-- **One forged ERROR**: the two servers answer each other for ever. -/
theorem endless :
    let addresses (k : Bool) : AddressV4 := ⟨if k then 2 else 1, 69⟩
    readsAs isError answerBits = true ∧ readsAs isRequest answerBits = false ∧
      ∀ n, ∃ as net, run (step addresses) (start [⟨⟨2, 69⟩, ⟨1, 69⟩, answerBits⟩]) as = some net ∧
        n ≤ net.sent :=
  ⟨readsAs_isError_answerBits, by decide +kernel, fun n => exists_sent_ge
    ⟨waiting_start _, _, List.mem_singleton_self _, by decide +kernel, by decide +kernel⟩ n⟩

end ErrorExchange

end Bootpd
