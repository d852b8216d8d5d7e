import Bootpd.DhcpConfiguration
import Bootpd.DhcpReply

/-!
# What becomes of a datagram

Whatever bytes arrive, the responder does one of three things: it answers, it goes on without an
answer, or it reads outside of an array. Which of them is decided by the bytes and by the table of
the clients. A sender needs no entry in the table for the third: a length of the hardware address
that is too large is enough.

## The classification

The three conditions are on the datagram and the table only. `Answerable` has a DISCOVER or a
REQUEST of a client with an entry, a header that fits, and requested codes that there are.
`OutOfBounds` has the two ways out of an array: a printed hardware address that goes past its field,
and a requested code that is 0 or 255, of a client that gets as far as an offer. The rest is caught
or ignored: bytes that do not decode, other messages, unknown clients, names that are too long.

What `sendto` comes to is not among the conditions. An answer that it refuses is an outcome like one
that it sends, and the exception is caught.

## Main definitions

* `DhcpServerV4.Answerable`, `DhcpServerV4.OutOfBounds` — the two kinds of datagrams that are not
  ignored
* `DhcpServerV4.Outcome` — what one pass of the loop does

## Main results

* `DhcpPacketV4.ofBits_error` — the one exception of the decoder
* `DhcpServerV4.threadOutgoing_cases` — the three cases
* `DhcpServerV4.outcome_iff` — which datagrams they are
-/

namespace Bootpd

open Imperative SocketUdp SerdesReader

/-! ### What decoding throws -/

namespace SerdesReader

theorem truncates_array {o : ByteOrder} (T : Type) [Scalar T] (n : ℕ) :
    Truncates (array T n : Reader o (List.Vector T n)) := by
  induction n with
  | zero => exact Truncates.pure _
  | succ n ih => exact truncates_scalar.bind fun _ => ih.bind fun _ => .pure _

end SerdesReader

namespace DhcpOptionsV4

/-- A code that is neither a pad byte nor the end marker has a slot. -/
theorem truncates_readOption (options : DhcpOptionsV4) : Truncates (readOption options) := by
  refine truncates_scalar.bind fun code => ?_
  by_cases hzero : code = 0
  · rw [if_pos hzero]
    exact Truncates.pure _
  · by_cases hend : code = 0xff
    · rw [if_neg hzero, if_pos hend]
      exact Truncates.pure _
    · obtain ⟨i, hi, -⟩ := slot_eq_ok ⟨hzero, hend⟩
      rw [if_neg hzero, if_neg hend, hi]
      exact truncates_scalar.bind fun _ => (truncates_array ..).bind fun _ => .pure _

theorem truncates_read (options : DhcpOptionsV4) : Truncates (read options) := by
  refine Triple.bind (Q := fun _ _ => True) ⟨fun _ _ => trivial, ?_⟩ fun s => ?_
  · rintro s e s' - ⟨⟩
  · split_ifs
    · exact Truncates.pure _
    · refine truncates_scalar.bind fun cookie => ?_
      dsimp only
      split_ifs
      · exact Truncates.pure _
      · refine Triple.loop (I := fun _ _ => True) decreases_readOption (fun options => ?_) _
        refine (truncates_readOption options).mono (fun _ _ => trivial) (fun r _ _ => ?_)
          fun _ _ => id
        cases r <;> trivial

end DhcpOptionsV4

/-- **A failed decode** throws the reader's exception and no other. -/
theorem DhcpPacketV4.ofBits_error {bits : List UInt8} {e : Exception}
    (h : ofBits bits = .error e) : e = notEnoughData := by
  have hread : Truncates DhcpPacketV4.read :=
    truncates_scalar.bind fun _ => truncates_scalar.bind fun _ => truncates_scalar.bind fun _ =>
    truncates_scalar.bind fun _ => truncates_scalar.bind fun _ => truncates_scalar.bind fun _ =>
    truncates_scalar.bind fun _ => truncates_scalar.bind fun _ => truncates_scalar.bind fun _ =>
    truncates_scalar.bind fun _ => truncates_scalar.bind fun _ => (truncates_array ..).bind fun _ =>
    (truncates_array ..).bind fun _ => (truncates_array ..).bind fun _ =>
    (DhcpOptionsV4.truncates_read _).bind fun _ => .pure _
  exact hread.error trivial (Prod.ext h rfl)

namespace DhcpServerV4

variable {sys : System} {clients : ClientMapType} {source : AddressV4} {bits : List UInt8}
  {request : DhcpPacketV4} {params : OfferParams} {key : StdString}

/-! ### Which datagrams there are -/

/-- A datagram whose client is looked up: it decodes to a DISCOVER or a REQUEST. -/
structure Asks (bits : List UInt8) (request : DhcpPacketV4) : Prop where
  decoded : DhcpPacketV4.ofBits bits = .ok request
  opcode : request.opcode = dhcpOpcodeRequest
  messageType : ∃ msgType, AnsweredWith request msgType

/-- The client has an entry, and what the header of the offer is made of fits. -/
structure Offered (clients : ClientMapType) (bits : List UInt8) (request : DhcpPacketV4)
    (key : StdString) (params : OfferParams) : Prop extends Asks bits request where
  printed : clientKey request = .ok key
  entry : clients.lookup key = some params
  fits : HeaderFits request params

/-- The codes a request asks for. -/
def requestedCodes (request : DhcpPacketV4) : List UInt8 :=
  request.requestedParameters.toOption.getD []

theorem requestedParameters_eq_ok (request : DhcpPacketV4) :
    request.requestedParameters = .ok (requestedCodes request) := by
  have hcodes : request.requestedParameters = .ok _ := request.options.requestedParameters_eq
  rw [requestedCodes, hcodes]
  rfl

/-- A datagram with an answer. -/
inductive Answerable (clients : ClientMapType) (bits : List UInt8) : Prop where
  | intro {request : DhcpPacketV4} {key : StdString} {params : OfferParams}
      (hoffered : Offered clients bits request key params)
      (hslots : ∀ code ∈ requestedCodes request, HasSlot code)

/-- A datagram that makes the responder read outside of an array. -/
inductive OutOfBounds (clients : ClientMapType) (bits : List UInt8) : Prop where
  /-- Behind the hardware address, whether there is an entry or not. -/
  | hardwareAddress {request : DhcpPacketV4} (hasks : Asks bits request)
      (hlength : 16 < request.hardwareAddressLength.toNat)
  /-- In the table of the options, where a code without a slot is asked for. -/
  | option {request : DhcpPacketV4} {key : StdString} {params : OfferParams} {code : UInt8}
      (hoffered : Offered clients bits request key params)
      (hcode : code ∈ requestedCodes request) (hslot : ¬HasSlot code)

/-- No datagram is of both kinds. -/
theorem Answerable.not_outOfBounds (h : Answerable clients bits) : ¬OutOfBounds clients bits := by
  obtain ⟨hoffered, hslots⟩ := h
  rintro (⟨hasks, hlength⟩ | ⟨hoffered', hcode, hslot⟩)
  · obtain rfl := Except.ok.inj (hasks.decoded.symm.trans hoffered.decoded)
    exact absurd hoffered.fits.hardwareAddress (Nat.not_le.mpr hlength)
  · obtain rfl := Except.ok.inj (hoffered'.decoded.symm.trans hoffered.decoded)
    exact hslot (hslots _ hcode)

/-! ### The stages of an answer -/

theorem messageType_error {e : Exception} (h : request.messageType = .error e) :
    e = notEnoughData := by
  rw [DhcpPacketV4.messageType, DhcpOptionsV4.messageType_eq] at h
  cases hvalue : request.options.values 52 with
  | none => simp [hvalue] at h
  | some buffer =>
    rcases hbytes : buffer.bytes with _ | ⟨msgType, bytes⟩
    · simpa [hvalue, hbytes, eq_comm] using h
    · simp [hvalue, hbytes] at h

theorem isDiscoverOrRequest_of_answeredWith {msgType : UInt8}
    (h : AnsweredWith request msgType) : isDiscoverOrRequest request = .ok true := by
  cases h with
  | offer h => rw [isDiscoverOrRequest, isMessageType_eq h]; rfl
  | ack h => rw [isDiscoverOrRequest, isMessageType_eq h, isMessageType_eq h]; rfl

/-- Any other packet is passed over. -/
theorem isDiscoverOrRequest_of_not (h : ¬∃ msgType, AnsweredWith request msgType) :
    isDiscoverOrRequest request = .ok false ∨
      isDiscoverOrRequest request = .error notEnoughData := by
  cases htype : request.messageType with
  | error e =>
    obtain rfl := messageType_error htype
    rw [DhcpPacketV4.messageType] at htype
    exact .inr (by rw [isDiscoverOrRequest, DhcpPacketV4.isMessageType, htype]; rfl)
  | ok mto =>
    have hdiscover : mto ≠ some dhcpMessageTypeDiscover := by
      rintro rfl
      exact h ⟨_, .offer htype⟩
    have hrequest : mto ≠ some dhcpMessageTypeRequest := by
      rintro rfl
      exact h ⟨_, .ack htype⟩
    refine .inl ?_
    rw [isDiscoverOrRequest, isMessageType_eq htype, isMessageType_eq htype,
      decide_eq_false hdiscover, decide_eq_false hrequest]
    rfl

/-- The exceptions that the loop catches. -/
def Caught (r : Except Exception Unit) : Prop := ∀ what, r ≠ .error (.undefinedBehaviour what)

theorem caught_ok (u : Unit) : Caught (.ok u) := by rintro _ ⟨⟩

/-- A packet whose client is not looked up. -/
theorem exec_respond_of_not_asks (h : ¬∃ request, Asks bits request) (s : IoState) :
    ∃ r, exec (respond sys clients source bits) s = (r, s) ∧ Caught r := by
  rw [respond]
  cases hrequest : DhcpPacketV4.ofBits bits with
  | error e =>
    obtain rfl := DhcpPacketV4.ofBits_error hrequest
    exact ⟨_, rfl, by rintro _ ⟨⟩⟩
  | ok request =>
    rw [exec_bind_ok (exec_liftExcept ..)]
    by_cases hopcode : request.opcode = dhcpOpcodeRequest
    · rw [if_neg (not_not.mpr hopcode)]
      rcases isDiscoverOrRequest_of_not fun htype => h ⟨_, hrequest, hopcode, htype⟩ with
        hfalse | herror
      · rw [hfalse]
        exact ⟨_, rfl, caught_ok _⟩
      · rw [herror]
        exact ⟨_, rfl, by rintro _ ⟨⟩⟩
    · rw [if_pos hopcode]
      exact ⟨_, rfl, caught_ok _⟩

/-- A client whose address cannot be printed. -/
theorem Asks.exec_respond_of_error (h : Asks bits request) {e : Exception}
    (hkey : clientKey request = .error e) (s : IoState) :
    exec (respond sys clients source bits) s = (.error e, s) := by
  obtain ⟨msgType, htype⟩ := h.messageType
  rw [respond, h.decoded, exec_bind_ok (exec_liftExcept ..), if_neg (not_not.mpr h.opcode),
    isDiscoverOrRequest_of_answeredWith htype, exec_bind_ok (exec_liftExcept ..), if_pos rfl, hkey]
  rfl

/-- A client without an entry. -/
theorem Asks.exec_respond_of_none (h : Asks bits request) (hkey : clientKey request = .ok key)
    (hentry : clients.lookup key = none) (s : IoState) :
    exec (respond sys clients source bits) s =
      (.error (.runtimeError (lit "No configuration found for client : " ++ key)), s) := by
  obtain ⟨msgType, htype⟩ := h.messageType
  rw [respond, h.decoded, exec_bind_ok (exec_liftExcept ..), if_neg (not_not.mpr h.opcode),
    isDiscoverOrRequest_of_answeredWith htype, exec_bind_ok (exec_liftExcept ..), if_pos rfl, hkey,
    exec_bind_ok (exec_liftExcept ..), hentry]
  rfl

/-- A client with an entry. -/
theorem Asks.exec_respond_of_some (h : Asks bits request) (hkey : clientKey request = .ok key)
    (hentry : clients.lookup key = some params) (s : IoState) :
    exec (respond sys clients source bits) s = exec (do
      let offer ← liftExcept (makeOffer request params)
      let offer ← liftExcept (setReplyType request offer)
      send sys offer { AddressV4.everyone with port := source.port } : SessionM Unit) s := by
  obtain ⟨msgType, htype⟩ := h.messageType
  rw [respond, h.decoded, exec_bind_ok (exec_liftExcept ..), if_neg (not_not.mpr h.opcode),
    isDiscoverOrRequest_of_answeredWith htype, exec_bind_ok (exec_liftExcept ..), if_pos rfl, hkey,
    exec_bind_ok (exec_liftExcept ..), hentry]

/-- A hardware address that is longer than its array. -/
theorem clientKey_of_long (h : 16 < request.hardwareAddressLength.toNat) :
    clientKey request =
      .error (.undefinedBehaviour (lit "m_client_hardware_address")) := by
  have hsize : ¬request.hardwareAddress.size < 1 := by
    show ¬request.hardwareAddressLength.toNat < 1
    omega
  have hread : request.hardwareAddress.read = _ := if_neg (Nat.not_le.mpr h)
  rw [clientKey, macAddressToString, if_neg hsize, hread]
  rfl

theorem clientKey_of_empty (h : request.hardwareAddressLength.toNat < 1) :
    clientKey request = .error (.runtimeError (lit "address is empty")) := by
  have hsize : request.hardwareAddress.size < 1 := h
  rw [clientKey, macAddressToString, if_pos hsize]
  rfl

/-! ### The cases -/

/-- What a log has of a datagram that is given to `sendto`. -/
def attempt (sys : System) (log : List Event) (d : Datagram) : Event :=
  (sys.sendto log d).elim (.sent d) (.sendFailed d)

/-- What a send throws is an exception like any other. -/
def SendsDefined (sys : System) : Prop :=
  ∀ log d what, sys.sendto log d ≠ some (.undefinedBehaviour what)

/-- What one pass of the loop does. -/
inductive Outcome (sys : System) (clients : ClientMapType) (source : AddressV4)
    (bits : List UInt8) (s : IoState) : Except Exception Unit × IoState → Prop where
  | outOfBounds (what : StdString) (h : OutOfBounds clients bits) :
      Outcome sys clients source bits s (.error (.undefinedBehaviour what), s)
  | answered {d : Datagram} (h : Answerable clients bits) (hd : Answers clients source bits d) :
      Outcome sys clients source bits s (.ok (), s.push (attempt sys s.log d))
  | ignored (hbounds : ¬OutOfBounds clients bits) (hanswer : ¬Answerable clients bits) :
      Outcome sys clients source bits s (.ok (), s)

theorem exec_threadOutgoing_of_caught {s s' : IoState} {r : Except Exception Unit}
    (h : exec (respond sys clients source bits) s = (r, s')) (hr : Caught r) :
    exec (threadOutgoing sys clients source bits) s = (.ok (), s') := by
  rw [threadOutgoing, exec_bind_ok (exec_observing ..), h]
  dsimp only
  split
  · exact absurd rfl (hr _)
  · rfl

theorem exec_threadOutgoing_of_undefined {s s' : IoState} {what : StdString}
    (h : exec (respond sys clients source bits) s = (.error (.undefinedBehaviour what), s')) :
    exec (threadOutgoing sys clients source bits) s =
      (.error (.undefinedBehaviour what), s') := by
  rw [threadOutgoing, exec_bind_ok (exec_observing ..), h]
  rfl

/-- What is passed over. -/
theorem outcome_of_caught {s : IoState} {r : Except Exception Unit}
    (hexec : exec (respond sys clients source bits) s = (r, s)) (hr : Caught r)
    (hlength : ∀ request, Asks bits request → request.hardwareAddressLength.toNat ≤ 16)
    (hoffered : ∀ request key params, ¬Offered clients bits request key params) :
    Outcome sys clients source bits s (exec (threadOutgoing sys clients source bits) s) := by
  rw [exec_threadOutgoing_of_caught hexec hr]
  refine .ignored ?_ ?_
  · rintro (⟨hasks, hlong⟩ | ⟨h, -, -⟩)
    · exact absurd (hlength _ hasks) (Nat.not_le.mpr hlong)
    · exact hoffered _ _ _ h
  · rintro ⟨h, -⟩
    exact hoffered _ _ _ h

theorem Asks.unique {request' : DhcpPacketV4} (h : Asks bits request) (h' : Asks bits request') :
    request' = request :=
  Except.ok.inj (h'.decoded.symm.trans h.decoded)

/-- **A client with an entry**, and a header that fits or not. -/
theorem Asks.outcome_of_some (hsys : SendsDefined sys) (h : Asks bits request)
    (hkey : clientKey request = .ok key) (hentry : clients.lookup key = some params)
    (hlength : request.hardwareAddressLength.toNat ≤ 16) (s : IoState) :
    Outcome sys clients source bits s (exec (threadOutgoing sys clients source bits) s) := by
  have hexec : exec (respond sys clients source bits) s = _ :=
    h.exec_respond_of_some hkey hentry s
  have hcodes := requestedParameters_eq_ok request
  have hmake := makeOffer_eq params hcodes
  by_cases hfits : HeaderFits request params
  · have hoffered : Offered clients bits request key params := ⟨h, hkey, hentry, hfits⟩
    by_cases hslots : ∀ code ∈ requestedCodes request, HasSlot code
    · obtain ⟨msgType, htype⟩ := h.messageType
      obtain ⟨offer, hoffer, -, -⟩ := offerFor_eq_ok hfits hslots
      obtain ⟨reply, hset, hreply⟩ := isReply_of_makeOffer (hmake.trans hoffer) hcodes hslots
        (isDiscoverOrRequest_of_answeredWith htype)
      have hanswers := answers_bits source h.decoded h.opcode hkey hentry hcodes hreply
      rw [hmake, hoffer, exec_bind_ok (exec_liftExcept ..), hset,
        exec_bind_ok (exec_liftExcept ..), exec_send reply.serialize_eq] at hexec
      have hanswered : Outcome sys clients source bits s _ :=
        .answered ⟨hoffered, hslots⟩ hanswers
      rw [attempt] at hanswered
      generalize hd : (⟨{ AddressV4.everyone with port := source.port }, reply.bits⟩ :
        Datagram) = d at *
      cases hsend : sys.sendto s.log d with
      | none =>
        rw [hsend] at hexec hanswered
        rwa [exec_threadOutgoing_of_caught hexec (caught_ok _)]
      | some e =>
        rw [hsend] at hexec hanswered
        have hcaught : Caught (.error e) := fun what heq =>
          hsys _ _ what (hsend.trans (congrArg some (Except.error.inj heq)))
        rwa [exec_threadOutgoing_of_caught hexec hcaught]
    · rw [hmake, offerFor_eq_undefined hfits hslots] at hexec
      obtain ⟨code, hcode, hslot⟩ : ∃ code ∈ requestedCodes request, ¬HasSlot code := by
        simpa using hslots
      rw [exec_threadOutgoing_of_undefined hexec]
      exact .outOfBounds _ (.option hoffered hcode hslot)
  · obtain ⟨what, herror⟩ := offerFor_eq_logicError hfits
    rw [hmake, herror] at hexec
    refine outcome_of_caught hexec (by rintro _ ⟨⟩)
      (fun request' h' => h.unique h' ▸ hlength) fun request' key' params' h' => ?_
    obtain rfl := h.unique h'.toAsks
    obtain rfl := Except.ok.inj (h'.printed.symm.trans hkey)
    obtain rfl := Option.some.inj (h'.entry.symm.trans hentry)
    exact hfits h'.fits

/-- **The three cases.** -/
theorem threadOutgoing_cases (hsys : SendsDefined sys) (clients : ClientMapType)
    (source : AddressV4) (bits : List UInt8) (s : IoState) :
    Outcome sys clients source bits s (exec (threadOutgoing sys clients source bits) s) := by
  by_cases hasks : ∃ request, Asks bits request
  · obtain ⟨request, h⟩ := hasks
    by_cases hlong : 16 < request.hardwareAddressLength.toNat
    · rw [exec_threadOutgoing_of_undefined (h.exec_respond_of_error (clientKey_of_long hlong) s)]
      exact .outOfBounds _ (.hardwareAddress h hlong)
    have hlength := Nat.not_lt.mp hlong
    by_cases hempty : request.hardwareAddressLength.toNat < 1
    · have hkey := clientKey_of_empty hempty
      refine outcome_of_caught (h.exec_respond_of_error hkey s) (by rintro _ ⟨⟩)
        (fun request' h' => h.unique h' ▸ hlength) fun request' key' params' h' => ?_
      obtain rfl := h.unique h'.toAsks
      cases h'.printed.symm.trans hkey
    have hkey := clientKey_eq_ok ⟨Nat.not_lt.mp hempty, hlength⟩
    cases hentry : clients.lookup (lowercase (dashedHex (addressBytes request))) with
    | none =>
      refine outcome_of_caught (h.exec_respond_of_none hkey hentry s) (by rintro _ ⟨⟩)
        (fun request' h' => h.unique h' ▸ hlength) fun request' key' params' h' => ?_
      obtain rfl := h.unique h'.toAsks
      obtain rfl := Except.ok.inj (h'.printed.symm.trans hkey)
      cases h'.entry.symm.trans hentry
    | some params => exact h.outcome_of_some hsys hkey hentry hlength s
  · obtain ⟨r, hexec, hr⟩ := exec_respond_of_not_asks hasks s
    exact outcome_of_caught hexec hr (fun request h => absurd ⟨request, h⟩ hasks)
      fun request _ _ h => hasks ⟨request, h.toAsks⟩

theorem push_ne (s : IoState) (ev : Event) : s.push ev ≠ s := fun h => by
  simpa using congrArg (fun s => s.log.length) h

/-- **What becomes of a datagram**, for all bytes and all tables of clients: the datagrams that
have no defined handling, those that are answered, and those that leave no trace. -/
theorem outcome_iff (hsys : SendsDefined sys) (clients : ClientMapType) (source : AddressV4)
    (bits : List UInt8) (s : IoState) :
    ((∃ what, exec (threadOutgoing sys clients source bits) s =
        (.error (.undefinedBehaviour what), s)) ↔ OutOfBounds clients bits) ∧
      ((∃ d, exec (threadOutgoing sys clients source bits) s =
          (.ok (), s.push (attempt sys s.log d)) ∧ Answers clients source bits d) ↔
        Answerable clients bits) ∧
      (exec (threadOutgoing sys clients source bits) s = (.ok (), s) ↔
        ¬OutOfBounds clients bits ∧ ¬Answerable clients bits) := by
  have hcases := threadOutgoing_cases hsys clients source bits s
  generalize exec (threadOutgoing sys clients source bits) s = r at hcases
  cases hcases with
  | outOfBounds what h =>
    have hanswer : ¬Answerable clients bits := fun hanswer => hanswer.not_outOfBounds h
    exact ⟨iff_of_true ⟨what, rfl⟩ h, iff_of_false (by simp) hanswer, by simp [h]⟩
  | answered h hd =>
    have hbounds := h.not_outOfBounds
    exact ⟨iff_of_false (by simp) hbounds, iff_of_true ⟨_, rfl, hd⟩ h, by simp [push_ne, h]⟩
  | ignored hbounds hanswer =>
    exact ⟨iff_of_false (by simp) hbounds,
      iff_of_false (by simp [Ne.symm (push_ne s _)]) hanswer, by simp [hbounds, hanswer]⟩

/-- A DISCOVER with a length of 17. -/
def longAddressBits : List UInt8 :=
  [1, 1, 17, 0] ++ List.replicate 232 0 ++ [0x63, 0x82, 0x53, 0x63, 53, 1, 1, 255]

theorem sendsDefined_serving (file : File) : SendsDefined (.serving file) := by
  rintro _ _ _ ⟨⟩

set_option maxRecDepth 4000 in
/-- It needs no client to be configured. -/
theorem outOfBounds_longAddressBits (clients : ClientMapType) :
    OutOfBounds clients longAddressBits := by
  have hread : (fun request : DhcpPacketV4 => (request.opcode, request.messageType,
      request.hardwareAddressLength)) <$> DhcpPacketV4.ofBits longAddressBits =
      .ok (1, .ok (some 1), 17) := by decide +kernel
  obtain ⟨request, hrequest, heq⟩ := map_eq_ok hread
  obtain ⟨hopcode, heq⟩ := Prod.mk.inj heq
  obtain ⟨htype, hlength⟩ := Prod.mk.inj heq
  exact .hardwareAddress ⟨hrequest, hopcode, _, .offer htype⟩ (by rw [hlength]; decide)

theorem outcome_iff_long : ∃ what,
    exec (threadOutgoing (.serving ⟨[], by decide⟩) ∅ ⟨1, 68⟩ longAddressBits) ⟨[], 0, 0⟩ =
      (.error (.undefinedBehaviour what), ⟨[], 0, 0⟩) :=
  (outcome_iff (sendsDefined_serving _) ∅ ⟨1, 68⟩ longAddressBits ⟨[], 0, 0⟩).1.mpr
    (outOfBounds_longAddressBits ∅)

end DhcpServerV4

end Bootpd
