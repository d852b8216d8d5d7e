import Bootpd.DhcpReply

/-!
# What a REQUEST selects

A client that has several offers names the one it takes: by the server identifier, option 54, or
by the address it asks for, option 50. The responder reads neither. A REQUEST of a client it has
an entry for is acknowledged with the offer made from that entry, whatever the REQUEST selects.

## Independence

That the two options are not read is said of two datagrams that differ in them and in nothing else:
the responder does the same for both. Nothing else is used of how the responder works, so this holds
of the log as a whole, answered or not. What an acknowledgement is then comes from `DhcpReply`.

An offer makes no entry anywhere. The table of clients is made when the server starts, and an
address that is offered is neither reserved nor leased; a REQUEST needs no DISCOVER in front of it.

## Main definitions

* `DhcpServerV4.SameButSelection` — two packets that differ in the options 50 and 54 at most
* `DhcpServerV4.Acknowledges` — a datagram that acknowledges the offer made from an entry

## Main results

* `DhcpServerV4.threadOutgoing_eq_of_sameButSelection` — the two options change nothing
* `DhcpServerV4.acknowledges_own_offer` — what a REQUEST is acknowledged with
* `DhcpServerV4.acknowledges_foreign_selection` — one that selects another server's offer
-/

namespace Bootpd

open Imperative SocketUdp

namespace DhcpServerV4

/-- The two packets differ in the options 50 and 54 at most. -/
structure SameButSelection (request request' : DhcpPacketV4) : Prop where
  header : request' = { request with options := request'.options }
  options : ∀ i, codeOf i ≠ 50 → codeOf i ≠ 54 →
    request'.options.values i = request.options.values i

/-- A datagram that acknowledges the offer made from the entry `params`. -/
def Acknowledges (request : DhcpPacketV4) (params : OfferParams) (d : Datagram) : Prop :=
  ∃ offer reply, makeOffer request params = .ok offer ∧ DhcpPacketV4.ofBits d.bits = .ok reply ∧
    reply.messageType = .ok (some dhcpMessageTypeAck) ∧
    reply.yourIpAddressV4 = offer.yourIpAddressV4 ∧
    reply.options.values 53 = offer.options.values 53

variable {request request' : DhcpPacketV4} {params : OfferParams}

/-! ### What the responder reads -/

theorem SameButSelection.messageType_eq (h : SameButSelection request request') :
    request'.messageType = request.messageType := by
  rw [DhcpPacketV4.messageType, DhcpPacketV4.messageType, DhcpOptionsV4.messageType_eq,
    DhcpOptionsV4.messageType_eq, h.options 52 (by decide) (by decide)]

theorem SameButSelection.isMessageType_eq (h : SameButSelection request request')
    (msgType : UInt8) : request'.isMessageType msgType = request.isMessageType msgType := by
  have htype := h.messageType_eq
  rw [DhcpPacketV4.messageType, DhcpPacketV4.messageType] at htype
  rw [DhcpPacketV4.isMessageType, DhcpPacketV4.isMessageType, htype]

theorem SameButSelection.requestedParameters_eq (h : SameButSelection request request') :
    request'.requestedParameters = request.requestedParameters := by
  rw [DhcpPacketV4.requestedParameters, DhcpPacketV4.requestedParameters,
    DhcpOptionsV4.requestedParameters_eq, DhcpOptionsV4.requestedParameters_eq,
    h.options 54 (by decide) (by decide)]

theorem SameButSelection.makeOffer_eq (h : SameButSelection request request')
    (params : OfferParams) : makeOffer request' params = makeOffer request params := by
  have hheader : offerHeader request' params = offerHeader request params := by
    rw [h.header]
    rfl
  rw [makeOffer, makeOffer, hheader, h.requestedParameters_eq]

theorem SameButSelection.setReplyType_eq (h : SameButSelection request request')
    (offer : DhcpPacketV4) : setReplyType request' offer = setReplyType request offer := by
  rw [setReplyType, setReplyType, h.isMessageType_eq, h.isMessageType_eq]

/-- **The selection is not read**: the two datagrams are handled alike. -/
theorem threadOutgoing_eq_of_sameButSelection (sys : System) (clients : ClientMapType)
    (source : AddressV4) {bits bits' : List UInt8}
    (hrequest : DhcpPacketV4.ofBits bits = .ok request)
    (hrequest' : DhcpPacketV4.ofBits bits' = .ok request')
    (h : SameButSelection request request') :
    threadOutgoing sys clients source bits' = threadOutgoing sys clients source bits := by
  have hopcode : request'.opcode = request.opcode := by rw [h.header]
  have hkey : clientKey request' = clientKey request := by
    rw [h.header]
    rfl
  have htype : isDiscoverOrRequest request' = isDiscoverOrRequest request := by
    rw [isDiscoverOrRequest, isDiscoverOrRequest, h.isMessageType_eq, h.isMessageType_eq]
  have hok (p : DhcpPacketV4) (f : DhcpPacketV4 → SessionM Unit) :
      (liftExcept (Except.ok (ε := Exception) p) : SessionM DhcpPacketV4) >>= f = f p := rfl
  rw [threadOutgoing, threadOutgoing, respond, respond, hrequest, hrequest', hok, hok, hopcode,
    hkey, htype]
  simp only [h.makeOffer_eq, h.setReplyType_eq]

/-! ### What is acknowledged -/

/-- A reply to a REQUEST takes its address and its server identifier from the offer. -/
theorem acknowledges_of_isReply {requested : List UInt8} {offer reply : DhcpPacketV4}
    {d : Datagram} (htype : request.messageType = .ok (some dhcpMessageTypeRequest))
    (hoffer : makeOffer request params = .ok offer) (hheader : IsHeader request params offer)
    (hserver : offer.options.values 53 = params.dhcpOptions.values 53)
    (hreply : DhcpPacketV4.ofBits d.bits = .ok reply)
    (h : IsReply request params requested reply) : Acknowledges request params d := by
  obtain ⟨msgType, hanswered, hmsgType⟩ := h.messageType
  have hack : msgType = dhcpMessageTypeAck := by
    cases hanswered with
    | offer hdiscover => cases hdiscover.symm.trans htype
    | ack => rfl
  have hoption := h.options 53 (by decide)
  rw [if_pos (.inr (by decide))] at hoption
  refine ⟨offer, reply, hoffer, hreply, by rw [hmsgType, hack], ?_, hoption.trans hserver.symm⟩
  exact h.header.yourAddress.trans hheader.yourAddress.symm

/-- Without an offer nothing is sent. -/
theorem log_threadOutgoing_of_error (sys : System) {clients : ClientMapType} (source : AddressV4)
    {bits : List UInt8} {key : StdString} {e : Exception}
    (hrequest : DhcpPacketV4.ofBits bits = .ok request) (hkey : clientKey request = .ok key)
    (hparams : clients.lookup key = some params) (hoffer : makeOffer request params = .error e)
    (s : IoState) : (exec (threadOutgoing sys clients source bits) s).2.log = s.log := by
  have hrespond : ∃ r, exec (respond sys clients source bits) s = (r, s) := by
    rw [respond, hrequest, exec_bind_ok (exec_liftExcept ..)]
    split
    · exact ⟨_, rfl⟩
    · cases hreply : isDiscoverOrRequest request with
      | error e => exact ⟨.error e, rfl⟩
      | ok reply? =>
        rw [exec_bind_ok (exec_liftExcept ..)]
        cases reply? with
        | false => exact ⟨_, rfl⟩
        | true =>
          rw [if_pos rfl, hkey, exec_bind_ok (exec_liftExcept ..), hparams]
          dsimp only
          rw [hoffer]
          exact ⟨.error e, rfl⟩
  obtain ⟨r, hr⟩ := hrespond
  rw [threadOutgoing, exec_bind_ok (exec_observing ..), hr]
  split <;> rfl

/-- **What a REQUEST is acknowledged with**, if its client has an entry: whatever it selects, it is
handled as the REQUEST without that selection, and an acknowledgement has the address and the
server identifier of the offer for the client. Where making the offer leaves the option tables,
the program has no behaviour. -/
theorem acknowledges_own_offer (sys : System) {clients : ClientMapType} (source : AddressV4)
    {bits : List UInt8} {key : StdString} (hrequest : DhcpPacketV4.ofBits bits = .ok request)
    (htype : request.messageType = .ok (some dhcpMessageTypeRequest))
    (hkey : clientKey request = .ok key) (hparams : clients.lookup key = some params) :
    (∀ bits' request', DhcpPacketV4.ofBits bits' = .ok request' →
      SameButSelection request request' →
      threadOutgoing sys clients source bits' = threadOutgoing sys clients source bits) ∧
    ∀ s, (∃ what, makeOffer request params = .error (.undefinedBehaviour what)) ∨
      ∃ es, (exec (threadOutgoing sys clients source bits) s).2.log = s.log ++ es ∧
        AtMostOne (Acknowledges request params) es := by
  refine ⟨fun bits' request' hrequest' h =>
    threadOutgoing_eq_of_sameButSelection sys clients source hrequest hrequest' h, fun s => ?_⟩
  refine or_iff_not_imp_left.mpr fun _ => ?_
  cases hoffer : makeOffer request params with
  | error e =>
    have hlog := log_threadOutgoing_of_error sys source hrequest hkey hparams hoffer s
    exact ⟨[], by rw [hlog, List.append_nil], .none⟩
  | ok offer =>
    have hlist : request.requestedParameters = .ok _ := request.options.requestedParameters_eq
    have hisOffer := isOffer_of_makeOffer hlist hoffer
    obtain ⟨es, hlog, hes⟩ := logs_threadOutgoing sys clients source
      (wellFormed_of_ofBits request _ hrequest hisOffer.fits.hardwareAddress hlist hisOffer.slots) s
    refine ⟨es, hlog, hes.mono fun d hd => ?_⟩
    obtain ⟨request', key', params', requested, reply, hrequest', -, hkey', hparams', -, -, hbits,
      hreply⟩ := hd
    obtain rfl := Except.ok.inj (hrequest.symm.trans hrequest')
    obtain rfl := Except.ok.inj (hkey.symm.trans hkey')
    obtain rfl := Option.some.inj (hparams.symm.trans hparams')
    exact acknowledges_of_isReply htype hoffer hisOffer.header (hisOffer.values_offered (by decide))
      hbits hreply

/-! ### A REQUEST for another server -/

/-- A REQUEST that selects the offer of 10.0.0.9 and the address 10.0.0.7. -/
def foreignSelection : DhcpPacketV4 :=
  { DhcpPacketV4.default with
    opcode := 1, flags := 0,
    options := ((DhcpOptionsV4.empty.put 52 ⟨[3], by decide⟩).put 53
      ⟨[10, 0, 0, 9], by decide⟩).put 49 ⟨[10, 0, 0, 7], by decide⟩ }

/-- Its bytes. -/
def foreignSelectionBits : List UInt8 :=
  [1, 1, 6, 0] ++ List.replicate 232 0 ++
    [0x63, 0x82, 0x53, 0x63, 53, 1, 3, 54, 4, 10, 0, 0, 9, 50, 4, 10, 0, 0, 7, 255]

/-- The entry of a client that is offered 10.0.0.2 by 10.0.0.1. -/
def ownEntry : OfferParams :=
  ⟨0, 0x0A000002, 0x0A000001, 0, [], [], DhcpOptionsV4.empty.put 53 ⟨[10, 0, 0, 1], by decide⟩⟩

/-- The offer made from it. -/
def ownOffer : DhcpPacketV4 :=
  { DhcpPacketV4.default with
    opcode := 2, flags := 0x8000, yourIpAddressV4 := 0x0A000002, serverIpAddressV4 := 0x0A000001,
    options := DhcpOptionsV4.empty.put 53 ⟨[10, 0, 0, 1], by decide⟩ }

set_option maxRecDepth 4000 in
theorem ofBits_foreignSelectionBits :
    DhcpPacketV4.ofBits foreignSelectionBits = .ok foreignSelection := by
  decide +kernel

theorem messageType_foreignSelection :
    foreignSelection.messageType = .ok (some dhcpMessageTypeRequest) := by
  decide +kernel

theorem clientKey_foreignSelection :
    clientKey foreignSelection = .ok (lit "00-00-00-00-00-00") := by
  decide +kernel

theorem lookup_ownEntry : (AList.singleton (lit "00-00-00-00-00-00") ownEntry :
    ClientMapType).lookup (lit "00-00-00-00-00-00") = some ownEntry :=
  List.dlookup_cons_eq ..

set_option maxRecDepth 4000 in
theorem makeOffer_foreignSelection : makeOffer foreignSelection ownEntry = .ok ownOffer := by
  decide +kernel

set_option maxRecDepth 4000 in
/-- Without its selection the REQUEST is handled alike. -/
theorem acknowledges_own_offer_foreignSelection :
    let clients : ClientMapType := AList.singleton (lit "00-00-00-00-00-00") ownEntry
    let sys : System := .serving ⟨[], by decide⟩
    threadOutgoing sys clients ⟨1, 68⟩ ([1, 1, 6, 0] ++ List.replicate 232 0 ++
        [0x63, 0x82, 0x53, 0x63, 53, 1, 3, 255]) =
      threadOutgoing sys clients ⟨1, 68⟩ foreignSelectionBits := by
  intro clients sys
  refine (acknowledges_own_offer sys ⟨1, 68⟩ ofBits_foreignSelectionBits
    messageType_foreignSelection clientKey_foreignSelection lookup_ownEntry).1 _
    { foreignSelection with options := DhcpOptionsV4.empty.put 52 ⟨[3], by decide⟩ }
    (by decide +kernel) ⟨rfl, fun i haddress hserver => ?_⟩
  have hi : i ≠ 49 := fun h => haddress (h ▸ rfl)
  have hi' : i ≠ 53 := fun h => hserver (h ▸ rfl)
  change _ = (((DhcpOptionsV4.empty.put 52 _).put 53 _).put 49 _).values i
  rw [DhcpOptionsV4.values_put_of_ne _ hi, DhcpOptionsV4.values_put_of_ne _ hi']

/-- **A REQUEST that selects another server's offer** is acknowledged. -/
theorem acknowledges_foreign_selection :
    let clients : ClientMapType := AList.singleton (lit "00-00-00-00-00-00") ownEntry
    DhcpPacketV4.ofBits foreignSelectionBits = .ok foreignSelection ∧
      foreignSelection.messageType = .ok (some dhcpMessageTypeRequest) ∧
      clientKey foreignSelection = .ok (lit "00-00-00-00-00-00") ∧
      makeOffer foreignSelection ownEntry = .ok ownOffer ∧
      foreignSelection.options.values 53 = some ⟨[10, 0, 0, 9], by decide⟩ ∧
      ownOffer.options.values 53 = some ⟨[10, 0, 0, 1], by decide⟩ ∧
      foreignSelection.options.values 49 = some ⟨[10, 0, 0, 7], by decide⟩ ∧
      ownOffer.yourIpAddressV4 = 0x0A000002 ∧
      ∃ d reply, (exec (threadOutgoing (.serving ⟨[], by decide⟩) clients ⟨1, 68⟩
          foreignSelectionBits) ⟨[], 0, 0⟩).2.log = [.sent d] ∧
        DhcpPacketV4.ofBits d.bits = .ok reply ∧
        reply.messageType = .ok (some dhcpMessageTypeAck) := by
  intro clients
  refine ⟨ofBits_foreignSelectionBits, messageType_foreignSelection, clientKey_foreignSelection,
    makeOffer_foreignSelection, by decide +kernel, by decide +kernel, by decide +kernel, rfl, ?_⟩
  have hlist : foreignSelection.requestedParameters = .ok [] := by decide +kernel
  have hsend : ∀ d, RepliesWith clients ⟨1, 68⟩ foreignSelectionBits d →
      ∀ log, (System.serving ⟨[], by decide⟩).sendto log d = none := fun _ _ _ => rfl
  obtain ⟨d, hexec, request, key, params, requested, reply, hrequest, -, -, -, -, -, hreply,
    hisReply⟩ := sent_of_sendto ⟨1, 68⟩
      ofBits_foreignSelectionBits rfl (.ack messageType_foreignSelection)
      clientKey_foreignSelection lookup_ownEntry ⟨by decide, by decide, by decide⟩ hlist (by simp)
      hsend ⟨[], 0, 0⟩
  obtain rfl := Except.ok.inj (ofBits_foreignSelectionBits.symm.trans hrequest)
  obtain ⟨msgType, hanswered, hmsgType⟩ := hisReply.messageType
  refine ⟨d, reply, by rw [hexec]; rfl, hreply, ?_⟩
  cases hanswered with
  | offer hdiscover => cases hdiscover.symm.trans messageType_foreignSelection
  | ack => exact hmsgType

end DhcpServerV4

end Bootpd
