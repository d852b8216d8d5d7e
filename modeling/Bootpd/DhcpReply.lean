import Bootpd.DhcpServerV4

/-!
# What the responder answers

A datagram is answered at most once, and only when it decodes to a DISCOVER or a REQUEST of a
client the server has an entry for. The answer is read here as its receiver reads it, from its
bytes.

Two inputs are left out, since the program has no behaviour for them: a hardware address longer
than its field, and a list of requested parameters that names 0 or 255. `DhcpOutcomes` is about
those.

## Two kinds of statement

`reply_content` is about what may happen, for any sockets: whatever is in the log behind a datagram
is at most one answer, sent or failed, and an answer says what the entry and the request say.
`sent_of_sendto` is about what must happen: a request of a known client whose header fits is
answered, if the one `sendto` works. The loop handles its datagrams one by one, so that the answers
to a whole queue come in its order, and a datagram without an answer has no part in the others.

The options of a reply are those of the entry, among the codes that were asked for and the six that
are always sent, and option 53. Nothing else of the request gets into it but its transaction, its
seconds and its hardware address.

## Main definitions

* `DhcpServerV4.IsReply`, `DhcpServerV4.Answers` — a reply, and a datagram that holds one
* `DhcpServerV4.WellFormed` — the datagrams that the program has a behaviour for
* `DhcpServerV4.answerAll` — the loop over a queue

## Main results

* `DhcpServerV4.reply_content` — what a datagram is answered with, if it is answered
* `DhcpServerV4.sent_of_sendto` — a request that is answered
* `DhcpServerV4.answers_in_order` — the answers to a whole queue
-/

namespace Bootpd

open Imperative SocketUdp

namespace DhcpServerV4

/-- What a datagram decodes to, if it decodes, has a hardware address that fits its field and
asks for options there are. -/
def WellFormed (bits : List UInt8) : Prop :=
  ∀ request, DhcpPacketV4.ofBits bits = .ok request →
    request.hardwareAddressLength.toNat ≤ 16 ∧
      ∀ requested, request.requestedParameters = .ok requested →
        ∀ code ∈ requested, HasSlot code

theorem wellFormed_of_ofBits {bits : List UInt8} (request : DhcpPacketV4)
    (requested : List UInt8) (hrequest : DhcpPacketV4.ofBits bits = .ok request)
    (haddress : request.hardwareAddressLength.toNat ≤ 16)
    (hrequested : request.requestedParameters = .ok requested)
    (hslots : ∀ code ∈ requested, HasSlot code) : WellFormed bits := by
  intro request' hrequest'
  obtain rfl := Except.ok.inj (hrequest.symm.trans hrequest')
  refine ⟨haddress, fun requested' hrequested' => ?_⟩
  obtain rfl := Except.ok.inj (hrequested.symm.trans hrequested')
  exact hslots

/-- The message type a request is answered with. -/
inductive AnsweredWith (request : DhcpPacketV4) : UInt8 → Prop where
  | offer : request.messageType = .ok (some dhcpMessageTypeDiscover) →
      AnsweredWith request dhcpMessageTypeOffer
  | ack : request.messageType = .ok (some dhcpMessageTypeRequest) →
      AnsweredWith request dhcpMessageTypeAck

/-- The reply to a request that asks for the options `requested`, of a client with the entry
`params`. -/
structure IsReply (request : DhcpPacketV4) (params : OfferParams) (requested : List UInt8)
    (reply : DhcpPacketV4) : Prop where
  header : IsHeader request params reply
  messageType : ∃ msgType, AnsweredWith request msgType ∧ reply.messageType = .ok (some msgType)
  options : ∀ i, codeOf i ≠ 53 → reply.options.values i =
    if codeOf i ∈ requested ∨ codeOf i ∈ offeredOptions then params.dhcpOptions.values i else none

/-- A datagram that answers `bits` from `source`. -/
def Answers (clients : ClientMapType) (source : AddressV4) (bits : List UInt8) (d : Datagram) :
    Prop :=
  ∃ request key params requested reply,
    DhcpPacketV4.ofBits bits = .ok request ∧ request.opcode = dhcpOpcodeRequest ∧
    clientKey request = .ok key ∧ clients.lookup key = some params ∧
    request.requestedParameters = .ok requested ∧
    d.target = { AddressV4.everyone with port := source.port } ∧
    DhcpPacketV4.ofBits d.bits = .ok reply ∧ IsReply request params requested reply

/-- Nothing is sent, or one answer, whatever becomes of it. -/
inductive AtMostOne (A : Datagram → Prop) : List Event → Prop where
  | none : AtMostOne A []
  | sent {d : Datagram} : A d → AtMostOne A [.sent d]
  | sendFailed {d : Datagram} (e : Exception) : A d → AtMostOne A [.sendFailed d e]

theorem AtMostOne.mono {A B : Datagram → Prop} {es : List Event} (h : AtMostOne A es)
    (hAB : ∀ d, A d → B d) : AtMostOne B es := by
  cases h with
  | none => exact .none
  | sent hd => exact .sent (hAB _ hd)
  | sendFailed e hd => exact .sendFailed e (hAB _ hd)

variable {request offer : DhcpPacketV4} {params : OfferParams} {requested : List UInt8}

/-! ### The message type -/

theorem isMessageType_eq {mto : Option UInt8} (h : request.messageType = .ok mto)
    (msgType : UInt8) : request.isMessageType msgType = .ok (decide (mto = some msgType)) := by
  rw [DhcpPacketV4.messageType] at h
  rw [DhcpPacketV4.isMessageType, h]
  cases mto with
  | none => rfl
  | some value =>
    simp only [bind, Except.bind, pure, Except.pure, Option.some.injEq]
    rfl

/-- A request that is answered is a DISCOVER or a REQUEST, and the reply gets its message type. -/
theorem setReplyType_eq (h : isDiscoverOrRequest request = .ok true) :
    ∃ msgType, AnsweredWith request msgType ∧
      ∀ offer, setReplyType request offer = offer.setMessageType msgType := by
  obtain ⟨discover, hdiscover, -⟩ := bind_eq_ok h
  obtain ⟨mto, hmto, -⟩ := bind_eq_ok hdiscover
  have htype := isMessageType_eq hmto
  rw [isDiscoverOrRequest, htype, htype] at h
  by_cases h₁ : mto = some dhcpMessageTypeDiscover
  · subst h₁
    refine ⟨_, .offer hmto, fun offer => ?_⟩
    rw [setReplyType, htype]
    rfl
  · by_cases h₃ : mto = some dhcpMessageTypeRequest
    · subst h₃
      refine ⟨_, .ack hmto, fun offer => ?_⟩
      rw [setReplyType, htype, htype]
      rfl
    · simp [bind, Except.bind, h₁, h₃] at h

/-! ### The reply -/

/-- The message type is the last thing a reply gets, and nothing else changes with it. -/
theorem isReply_setMessageType {msgType : UInt8} (hmsgType : AnsweredWith request msgType)
    (hheader : IsHeader request params offer)
    (hvalues : ∀ i, offer.options.values i =
      if codeOf i ∈ requested ∨ codeOf i ∈ offeredOptions then params.dhcpOptions.values i
      else none) :
    ∃ reply, offer.setMessageType msgType = .ok reply ∧
      IsReply request params requested reply.copy := by
  have hset := DhcpOptionsV4.setMessageType_eq offer.options msgType
  refine ⟨{ offer with options := offer.options.put 52 ⟨[msgType], by simp⟩ }, ?_,
    hheader.withOptions _, ⟨msgType, hmsgType, ?_⟩, fun i hi => ?_⟩
  · rw [DhcpPacketV4.setMessageType, hset]
    rfl
  · rw [DhcpPacketV4.messageType, DhcpOptionsV4.messageType_eq]
    simp [DhcpPacketV4.copy, DhcpOptionsV4.copy]
  · have hne : i ≠ 52 := fun h => hi (h ▸ rfl)
    exact (offer.options.values_put_of_ne hne _).trans (hvalues i)

/-- **The reply**, if an offer is made: the offer had a header that fits. -/
theorem isReply_of_makeOffer (hoffer : makeOffer request params = .ok offer)
    (hrequested : request.requestedParameters = .ok requested)
    (hslots : ∀ code ∈ requested, HasSlot code)
    (hreply : isDiscoverOrRequest request = .ok true) :
    ∃ reply, setReplyType request offer = .ok reply ∧
      IsReply request params requested reply.copy := by
  rw [makeOffer_eq params hrequested] at hoffer
  have hfits := (fits_of_offerFor hoffer).1
  obtain ⟨msgType, hmsgType, hset⟩ := setReplyType_eq hreply
  obtain ⟨p, hp, hheader, hvalues⟩ := offerFor_eq_ok hfits hslots
  obtain rfl := Except.ok.inj (hp.symm.trans hoffer)
  rw [hset]
  exact isReply_setMessageType hmsgType hheader hvalues

/-- A reply that is made answers the datagram. -/
theorem answers_bits {clients : ClientMapType} {bits : List UInt8} {reply : DhcpPacketV4}
    {key : StdString} (source : AddressV4) (hrequest : DhcpPacketV4.ofBits bits = .ok request)
    (hopcode : request.opcode = dhcpOpcodeRequest) (hkey : clientKey request = .ok key)
    (hparams : clients.lookup key = some params)
    (hrequested : request.requestedParameters = .ok requested)
    (hreply : IsReply request params requested reply.copy) :
    Answers clients source bits ⟨{ AddressV4.everyone with port := source.port }, reply.bits⟩ :=
  ⟨request, key, params, requested, reply.copy, hrequest, hopcode, hkey, hparams, hrequested, rfl,
    reply.ofBits_bits, hreply⟩

variable {sys : System} {clients : ClientMapType} {source : AddressV4} {bits : List UInt8}

/-- **One datagram**: what handling it logs. -/
theorem logs_respond (sys : System) (clients : ClientMapType) (source : AddressV4)
    (h : WellFormed bits) :
    Logs IoState.log (respond sys clients source bits)
      fun _ es => AtMostOne (Answers clients source bits) es := by
  rw [respond]
  refine logs_liftExcept_bind (fun _ _ => .none) fun request hrequest => ?_
  obtain ⟨-, hcodes⟩ := h request hrequest
  by_cases hopcode : request.opcode = dhcpOpcodeRequest
  · rw [if_neg (not_not.mpr hopcode)]
    refine logs_liftExcept_bind (fun _ _ => .none) fun reply? hreply => ?_
    cases reply? with
    | false => exact Logs.pure .none
    | true =>
      refine logs_liftExcept_bind (fun _ _ => .none) fun key hkey => ?_
      cases hparams : clients.lookup key with
      | none => exact Logs.throw .none
      | some params =>
        refine logs_liftExcept_bind (fun _ _ => .none) fun offer hoffer => ?_
        have hlist := request.options.requestedParameters_eq
        obtain ⟨reply, hset, hisReply⟩ :=
          isReply_of_makeOffer hoffer hlist (hcodes _ hlist) hreply
        refine logs_liftExcept_bind (fun _ _ => .none) fun reply' hreply' => ?_
        obtain rfl := Except.ok.inj (hset.symm.trans hreply')
        have hanswers := answers_bits source hrequest hopcode hkey hparams hlist hisReply
        refine (logs_send reply.serialize_eq _).mono fun r es hes => ?_
        cases hes with
        | sent => exact .sent hanswers
        | failed e => exact .sendFailed e hanswers
  · rw [if_pos hopcode]
    exact Logs.pure .none

/-- One pass of the loop adds nothing to that. -/
theorem logs_threadOutgoing (sys : System) (clients : ClientMapType) (source : AddressV4)
    (h : WellFormed bits) :
    Logs IoState.log (threadOutgoing sys clients source bits)
      fun _ es => AtMostOne (Answers clients source bits) es := by
  have htry : Logs IoState.log (observing (respond sys clients source bits))
      fun _ es => AtMostOne (Answers clients source bits) es :=
    Logs.observing (logs_respond sys clients source h) fun _ _ hes => hes
  refine htry.bind (F := fun _ _ es => es = []) (fun r => ?_) (fun _ _ hes => hes)
    fun _ es _ es' hes hes' => ?_
  · split
    · exact Logs.throw rfl
    · exact Logs.pure rfl
  · rw [hes', List.append_nil]
    exact hes

/-- **What a datagram is answered with**: by nothing, or by one datagram, which decodes to the
reply. -/
theorem reply_content (sys : System) (clients : ClientMapType) (source : AddressV4)
    (h : WellFormed bits) (s : IoState) :
    ∃ es, (exec (threadOutgoing sys clients source bits) s).2.log = s.log ++ es ∧
      AtMostOne (Answers clients source bits) es :=
  logs_threadOutgoing sys clients source h s

set_option maxRecDepth 4000 in
/-- A DISCOVER of a client with an entry is answered. -/
theorem reply_content_discover :
    let bits := [1, 1, 6, 0] ++ List.replicate 232 0 ++
      [0x63, 0x82, 0x53, 0x63, 53, 1, 1, 55, 1, 1, 255]
    let clients : ClientMapType :=
      AList.singleton (lit "00-00-00-00-00-00") ⟨0, 0, 0, 0, [], [], .empty⟩
    let s := (exec (threadOutgoing (.serving ⟨[], by decide⟩) clients ⟨1, 68⟩ bits) ⟨[], 0, 0⟩).2
    s.log ≠ [] ∧ ∃ es, s.log = [] ++ es ∧ AtMostOne (Answers clients ⟨1, 68⟩ bits) es :=
  ⟨by decide +kernel, reply_content _ _ _
    (wellFormed_of_ofBits
      { DhcpPacketV4.default with
        opcode := 1, flags := 0,
        options := (DhcpOptionsV4.empty.put 52 ⟨[1], by decide⟩).put 54 ⟨[1], by decide⟩ }
      [1] (by decide +kernel) (by decide) (by decide +kernel) (by simp [HasSlot])) _⟩

/-- The reply to a datagram, as the calls that make it. -/
def RepliesWith (clients : ClientMapType) (source : AddressV4) (bits : List UInt8)
    (d : Datagram) : Prop :=
  ∃ request key params offer reply, DhcpPacketV4.ofBits bits = .ok request ∧
    request.opcode = dhcpOpcodeRequest ∧ isDiscoverOrRequest request = .ok true ∧
    clientKey request = .ok key ∧ clients.lookup key = some params ∧
    makeOffer request params = .ok offer ∧ setReplyType request offer = .ok reply ∧
    d = ⟨{ AddressV4.everyone with port := source.port }, reply.bits⟩

/-- **A request that is answered**, when its header fits and its reply is sent. -/
theorem sent_of_sendto (source : AddressV4)
    (hrequest : DhcpPacketV4.ofBits bits = .ok request)
    (hopcode : request.opcode = dhcpOpcodeRequest) {msgType : UInt8}
    (hmsgType : AnsweredWith request msgType) {key : StdString}
    (hkey : clientKey request = .ok key) (hparams : clients.lookup key = some params)
    (hheader : HeaderFits request params) (hrequested : request.requestedParameters = .ok requested)
    (hslots : ∀ code ∈ requested, HasSlot code)
    (hsend : ∀ d, RepliesWith clients source bits d → ∀ log, sys.sendto log d = none)
    (s : IoState) :
    ∃ d, exec (threadOutgoing sys clients source bits) s = (.ok (), s.push (.sent d)) ∧
      Answers clients source bits d := by
  have hreply : isDiscoverOrRequest request = .ok true := by
    cases hmsgType with
    | offer h => rw [isDiscoverOrRequest, isMessageType_eq h]; rfl
    | ack h => rw [isDiscoverOrRequest, isMessageType_eq h, isMessageType_eq h]; rfl
  obtain ⟨offer, hmake, -, -⟩ := offerFor_eq_ok hheader hslots
  rw [← makeOffer_eq params hrequested] at hmake
  obtain ⟨reply, hset, hisReply⟩ := isReply_of_makeOffer hmake hrequested hslots hreply
  have hsent := hsend _ ⟨request, key, params, offer, reply, hrequest, hopcode, hreply, hkey,
    hparams, hmake, hset, rfl⟩
  have hrespond : exec (respond sys clients source bits) s = (.ok (), s.push (.sent
      ⟨{ AddressV4.everyone with port := source.port }, reply.bits⟩)) := by
    rw [respond, hrequest, exec_bind_ok (exec_liftExcept ..), if_neg (not_not.mpr hopcode), hreply,
      exec_bind_ok (exec_liftExcept ..), if_pos rfl, hkey, exec_bind_ok (exec_liftExcept ..),
      hparams]
    dsimp only
    rw [hmake, exec_bind_ok (exec_liftExcept ..), hset, exec_bind_ok (exec_liftExcept ..),
      exec_send reply.serialize_eq, hsent]
    rfl
  refine ⟨_, ?_, answers_bits source hrequest hopcode hkey hparams hrequested hisReply⟩
  rw [threadOutgoing, exec_bind_ok (exec_observing ..), hrespond]
  rfl

/-! ### The queue -/

/-- The loop of `thread_outgoing` over the datagrams of the queue. -/
def answerAll (sys : System) (clients : ClientMapType) :
    List (AddressV4 × List UInt8) → SessionM Unit
  | [] => pure ()
  | packet :: packets => do
    threadOutgoing sys clients packet.1 packet.2
    answerAll sys clients packets

/-- **The whole queue**: the datagrams are answered in their order, each by itself. -/
theorem answers_in_order (sys : System) (clients : ClientMapType)
    {packets : List (AddressV4 × List UInt8)} (h : ∀ packet ∈ packets, WellFormed packet.2)
    (s : IoState) :
    ∃ ess : List (List Event), (exec (answerAll sys clients packets) s).2.log =
      s.log ++ ess.flatten ∧ List.Forall₂
        (fun packet es => AtMostOne (Answers clients packet.1 packet.2) es) packets ess := by
  induction packets generalizing s with
  | nil => exact ⟨[], by simp [answerAll], .nil⟩
  | cons packet packets ih =>
    obtain ⟨hpacket, hpackets⟩ := List.forall_mem_cons.mp h
    obtain ⟨es, hlog, hes⟩ := logs_threadOutgoing sys clients packet.1 hpacket s
    rcases hs : exec (threadOutgoing sys clients packet.1 packet.2) s with ⟨e | u, s'⟩ <;>
      rw [hs] at hlog
    · -- Nothing is answered any more after an access outside an array.
      refine ⟨es :: packets.map fun _ => [], ?_, .cons hes ?_⟩
      · rw [answerAll, exec_bind_error hs, hlog]
        simp
      · exact List.forall₂_map_right_iff.mpr (List.forall₂_same.mpr fun _ _ => .none)
    · obtain ⟨ess, hrest, hess⟩ := ih hpackets s'
      refine ⟨es :: ess, ?_, .cons hes hess⟩
      rw [answerAll, exec_bind_ok hs, hrest, hlog, List.flatten_cons, List.append_assoc]

end DhcpServerV4

end Bootpd
