import Bootpd.DhcpPacketV4
import Bootpd.SocketUdp

/-!
# `dhcp_server_v4`: the responder

`thread_outgoing` takes one datagram after the other and handles each by itself: decode, look the
client up by its hardware address, build the offer, send it. An exception ends the handling of the
datagram and nothing else.

## One pass of the loop

`respond` is the body of the `try`, and `threadOutgoing` catches what it throws. What is undefined
is not caught: the model stops there. An answer is broadcast, to the port that the datagram came
from. Log messages are left out.

## Building an offer

`make_offer` sets the header from the request and the entry of the client, in a chain of setters,
and then assigns options twice: those that the request asks for, and six that no one has to ask for.
`offerFor` has the requested codes as an argument of its own, so that what an offer consists of can
be said of the list. A code that has no entry in the option table is read through `assign` all the
same, and that is where an offer may leave its table.

## Main definitions

* `DhcpServerV4.respond`, `DhcpServerV4.threadOutgoing` — one datagram
* `DhcpServerV4.makeOffer`, `DhcpServerV4.clientKey` — the offer, and the key of a client
* `DhcpServerV4.IsOffer`, `DhcpServerV4.StaysInTable` — what an offer is, and that it is defined

## Main results

* `DhcpServerV4.offerFor_eq_ok` — what an offer consists of
* `DhcpServerV4.staysInTable_iff` — when building an offer stays inside the option tables
-/

namespace Bootpd

open Imperative SocketUdp

/-! ### `mac_address_to_string` and `lowercase` -/

/-- `to_hex`. -/
def toHex (value : UInt8) : StdString :=
  let x := lit "0123456789ABCDEF"
  [x.getD ((value >>> 4) &&& 0xf).toNat 0, x.getD (value &&& 0xf).toNat 0]

/-- `mac_address_to_string`. -/
def macAddressToString (data : Span) : Except Exception StdString :=
  if data.size < 1 then .error (.runtimeError (lit "address is empty"))
  else do
    let bytes ← data.read
    return match bytes with
      | [] => []
      | front :: rest => toHex front ++ rest.flatMap fun byte => lit "-" ++ toHex byte

/-- `std::tolower` in the "C" locale. -/
def tolower (c : UInt8) : UInt8 := if 65 ≤ c ∧ c ≤ 90 then c + 32 else c

def lowercase (value : StdString) : StdString := value.map tolower

example : (lowercase <$> macAddressToString (.of [0, 0x1b, 0xfe])).toOption =
    some (lit "00-1b-fe") := by decide

/-! ### The server -/

/-- `dhcp_server_v4::offer_params`. -/
structure OfferParams where
  clientAddress : UInt32
  yourAddress : UInt32
  serverAddress : UInt32
  gatewayAddress : UInt32
  bootFileName : StdString
  serverHostName : StdString
  dhcpOptions : DhcpOptionsV4

/-- `dhcp_server_v4::client_map_type`. -/
abbrev ClientMapType := UnorderedMap StdString OfferParams

namespace DhcpServerV4

/-- The options an offer has, asked for or not. -/
def offeredOptions : List UInt8 := [54, 51, 58, 59, 7, 15]

/-- The chain of `make_offer` in front of its options. -/
def offerHeader (source : DhcpPacketV4) (params : OfferParams) :
    Except Exception DhcpPacketV4 := do
  let p := DhcpPacketV4.default.setOpcode dhcpOpcodeResponse
  let p := p.setHardwareType dhcpHardwareTypeEthernet
  let p ← p.setHardwareAddress source.hardwareAddress
  let p := (p.setNumberOfHops 0).setFlags dhcpFlagsBroadcast
  let p := (p.setSecondsElapsed source.secondsElapsed).setTransactionId source.transactionId
  let p := (p.setClientAddress params.clientAddress).setYourAddress params.yourAddress
  let p := (p.setServerAddress params.serverAddress).setGatewayAddress params.gatewayAddress
  let p ← p.setBootFileName params.bootFileName
  p.setServerHostName params.serverHostName

/-- `make_offer`. -/
def makeOffer (source : DhcpPacketV4) (params : OfferParams) : Except Exception DhcpPacketV4 := do
  let p ← offerHeader source params
  let requested ← source.requestedParameters
  let p ← p.assignOptions params.dhcpOptions requested
  let p ← p.assignOptions params.dhcpOptions offeredOptions
  return p.copy

/-- The condition of `thread_outgoing` on the message type. -/
def isDiscoverOrRequest (packet : DhcpPacketV4) : Except Exception Bool := do
  if ← packet.isMessageType dhcpMessageTypeDiscover then return true
  packet.isMessageType dhcpMessageTypeRequest

/-- The message type of the reply. -/
def setReplyType (packet offer : DhcpPacketV4) : Except Exception DhcpPacketV4 := do
  if ← packet.isMessageType dhcpMessageTypeDiscover then
    offer.setMessageType dhcpMessageTypeOffer
  else if ← packet.isMessageType dhcpMessageTypeRequest then
    offer.setMessageType dhcpMessageTypeAck
  else return offer

/-- The key of a packet in `m_clients`. -/
def clientKey (packet : DhcpPacketV4) : Except Exception StdString :=
  lowercase <$> macAddressToString packet.hardwareAddress

/-- The body of the `try` in `thread_outgoing`, for a datagram from the queue. -/
def respond (sys : System) (clients : ClientMapType) (source : AddressV4)
    (packetBits : List UInt8) : SessionM Unit := do
  let packet ← liftExcept (DhcpPacketV4.ofBits packetBits)
  if packet.opcode ≠ dhcpOpcodeRequest then return
  if ← liftExcept (isDiscoverOrRequest packet) then
    let macAddress ← liftExcept (clientKey packet)
    match clients.lookup macAddress with
    | none =>
      throw (.runtimeError (lit "No configuration found for client : " ++ macAddress))
    | some params =>
      let offer ← liftExcept (makeOffer packet params)
      let offer ← liftExcept (setReplyType packet offer)
      send sys offer { AddressV4.everyone with port := source.port }

/-- One pass of the loop of `thread_outgoing`, with a datagram from the queue. Every exception is
caught. -/
def threadOutgoing (sys : System) (clients : ClientMapType) (source : AddressV4)
    (packetBits : List UInt8) : SessionM Unit := do
  match ← observing (respond sys clients source packetBits) with
  | .error (.undefinedBehaviour what) => throw (.undefinedBehaviour what)
  | _ => return

variable {source request : DhcpPacketV4} {params : OfferParams} {requested : List UInt8}

/-! ### Offers -/

/-- The fields of an offer fit theirs. -/
structure HeaderFits (source : DhcpPacketV4) (params : OfferParams) : Prop where
  hardwareAddress : source.hardwareAddressLength.toNat ≤ 16
  bootFileName : params.bootFileName.length ≤ 128
  serverHostName : params.serverHostName.length ≤ 64

/-- The header of an offer: the source's transaction and hardware address, and the rest from the
client's entry. -/
structure IsHeader (source : DhcpPacketV4) (params : OfferParams) (p : DhcpPacketV4) : Prop where
  opcode : p.opcode = dhcpOpcodeResponse
  hardwareType : p.hardwareType = dhcpHardwareTypeEthernet
  hardwareAddressLength : p.hardwareAddressLength = source.hardwareAddressLength
  numberOfHops : p.numberOfHops = 0
  transactionId : p.transactionId = source.transactionId
  secondsElapsed : p.secondsElapsed = source.secondsElapsed
  flags : p.flags = dhcpFlagsBroadcast
  clientAddress : p.clientIpAddressV4 = params.clientAddress
  yourAddress : p.yourIpAddressV4 = params.yourAddress
  serverAddress : p.serverIpAddressV4 = params.serverAddress
  gatewayAddress : p.gatewayIpAddressV4 = params.gatewayAddress
  /-- The bytes of the hardware address, and zeros. -/
  clientHardwareAddress : p.clientHardwareAddress.toList =
    source.clientHardwareAddress.toList.take source.hardwareAddressLength.toNat ++
      List.replicate (16 - source.hardwareAddressLength.toNat) 0
  serverHostName : p.serverHostName.toList = params.serverHostName ++
    List.replicate (64 - params.serverHostName.length) 0
  bootFileName : p.bootFileName.toList = params.bootFileName ++
    List.replicate (128 - params.bootFileName.length) 0

/-- The options are no part of the header. -/
theorem IsHeader.withOptions {p : DhcpPacketV4} (h : IsHeader source params p)
    (options : DhcpOptionsV4) : IsHeader source params { p with options } :=
  ⟨h.opcode, h.hardwareType, h.hardwareAddressLength, h.numberOfHops, h.transactionId,
    h.secondsElapsed, h.flags, h.clientAddress, h.yourAddress, h.serverAddress, h.gatewayAddress,
    h.clientHardwareAddress, h.serverHostName, h.bootFileName⟩

/-- Taking over the hardware address of another packet. -/
theorem setHardwareAddress_hardwareAddress (p : DhcpPacketV4)
    (h : source.hardwareAddressLength.toNat ≤ 16) :
    ∃ hlen, p.setHardwareAddress source.hardwareAddress = .ok { p with
      hardwareAddressLength := source.hardwareAddressLength
      clientHardwareAddress := copyTo p.clientHardwareAddress
        (source.clientHardwareAddress.toList.take source.hardwareAddressLength.toNat) hlen } := by
  have hread : source.hardwareAddress.read =
      .ok (source.clientHardwareAddress.toList.take source.hardwareAddressLength.toNat) := if_pos h
  obtain ⟨hlen, hset⟩ := p.setHardwareAddress_of_read h hread
  have hlength : UInt8.ofNat source.hardwareAddress.size = source.hardwareAddressLength :=
    UInt8.ofNat_toNat
  rw [hlength] at hset
  exact ⟨hlen, hset⟩

/-- **The header of an offer**, when everything fits. -/
theorem offerHeader_eq_ok (h : HeaderFits source params) :
    ∃ p, offerHeader source params = .ok p ∧ IsHeader source params p ∧ p.options = .empty := by
  obtain ⟨haddress, hboot, hhost⟩ := h
  obtain ⟨hlen, hset⟩ := setHardwareAddress_hardwareAddress
    ((DhcpPacketV4.default.setOpcode dhcpOpcodeResponse).setHardwareType
      dhcpHardwareTypeEthernet) haddress
  have hbytes : (source.clientHardwareAddress.toList.take
      source.hardwareAddressLength.toNat).length = source.hardwareAddressLength.toNat := by
    rw [List.length_take, List.Vector.toList_length, min_eq_left haddress]
  rw [offerHeader, hset]
  simp only [bind, Except.bind, DhcpPacketV4.setBootFileName, dif_pos hboot,
    DhcpPacketV4.setServerHostName, dif_pos hhost]
  refine ⟨_, rfl, ⟨rfl, rfl, rfl, rfl, rfl, rfl, rfl, rfl, rfl, rfl, rfl, ?_, ?_, ?_⟩, rfl⟩
  · exact (toList_copyTo_zeros hlen).trans (by rw [hbytes])
  · exact toList_copyTo_zeros hhost
  · exact toList_copyTo_zeros hboot

/-- What does not fit is a logic error, and no option has been assigned then. -/
theorem offerHeader_eq_error (h : ¬HeaderFits source params) :
    ∃ what, offerHeader source params = .error (.logicError what) := by
  by_cases haddress : source.hardwareAddressLength.toNat ≤ 16
  · obtain ⟨hlen, hset⟩ := setHardwareAddress_hardwareAddress
      ((DhcpPacketV4.default.setOpcode dhcpOpcodeResponse).setHardwareType
        dhcpHardwareTypeEthernet) haddress
    rw [offerHeader, hset]
    by_cases hboot : params.bootFileName.length ≤ 128
    · have hhost : ¬params.serverHostName.length ≤ 64 := fun hhost => h ⟨haddress, hboot, hhost⟩
      simp only [bind, Except.bind, DhcpPacketV4.setBootFileName, dif_pos hboot,
        DhcpPacketV4.setServerHostName, dif_neg hhost]
      exact ⟨_, rfl⟩
    · simp only [bind, Except.bind, DhcpPacketV4.setBootFileName, dif_neg hboot]
      exact ⟨_, rfl⟩
  · have hset : ∀ p : DhcpPacketV4, p.setHardwareAddress source.hardwareAddress =
        .error (.logicError (lit "hardware_address too large")) := fun _ =>
      dif_pos (not_le.mp haddress)
    rw [offerHeader, hset]
    exact ⟨_, rfl⟩

/-- `make_offer` with a list of its own for the requested codes. -/
def offerFor (source : DhcpPacketV4) (params : OfferParams) (requested : List UInt8) :
    Except Exception DhcpPacketV4 := do
  let p ← offerHeader source params
  let p ← p.assignOptions params.dhcpOptions requested
  let p ← p.assignOptions params.dhcpOptions offeredOptions
  return p.copy

theorem makeOffer_eq (params : OfferParams) (h : source.requestedParameters = .ok requested) :
    makeOffer source params = offerFor source params requested := by
  rw [makeOffer, h, offerFor]
  rfl

/-- **An offer**: its header, and the options of the client that are asked for or always
offered. -/
theorem offerFor_eq_ok (h : HeaderFits source params)
    (hrequested : ∀ code ∈ requested, HasSlot code) :
    ∃ p, offerFor source params requested = .ok p ∧ IsHeader source params p ∧
      ∀ i, p.options.values i = if codeOf i ∈ requested ∨ codeOf i ∈ offeredOptions then
        params.dhcpOptions.values i else none := by
  obtain ⟨p, hp, hheader, hempty⟩ := offerHeader_eq_ok h
  have hoffered : ∀ code ∈ offeredOptions, HasSlot code := by simp [offeredOptions, HasSlot]
  obtain ⟨o₁, h₁, -, hvalues₁⟩ :=
    DhcpPacketV4.assignOptions_eq_ok p params.dhcpOptions hrequested
  obtain ⟨o₂, h₂, -, hvalues₂⟩ := DhcpPacketV4.assignOptions_eq_ok { p with options := o₁ }
    params.dhcpOptions hoffered
  refine ⟨DhcpPacketV4.copy { p with options := o₂ }, ?_, hheader.withOptions _, fun i => ?_⟩
  · rw [offerFor, hp]
    simp only [bind, Except.bind, h₁, h₂]
    rfl
  · change o₂.values i = _
    rw [hvalues₂, hvalues₁, hempty]
    by_cases hi : codeOf i ∈ requested <;> by_cases hi' : codeOf i ∈ offeredOptions <;>
      simp [hi, hi', DhcpOptionsV4.empty]

/-! ### The option tables -/

/-- Building an offer reads and writes entries of the option tables only, and requested codes
without an entry assign nothing. -/
structure StaysInTable (source : DhcpPacketV4) (params : OfferParams) : Prop where
  inRange : ∀ what, makeOffer source params ≠ .error (.undefinedBehaviour what)
  ignored : ∀ requested, source.requestedParameters = .ok requested →
    makeOffer source params = offerFor source params (requested.filter fun code => HasSlot code)

/-- A code without an entry that is requested. -/
theorem offerFor_eq_undefined (h : HeaderFits source params)
    (hrequested : ¬∀ code ∈ requested, HasSlot code) :
    offerFor source params requested =
      .error (.undefinedBehaviour (lit "m_values[code - 1u]")) := by
  obtain ⟨p, hp, -, -⟩ := offerHeader_eq_ok h
  rw [offerFor, hp]
  simp only [bind, Except.bind, DhcpPacketV4.assignOptions_eq_error hrequested]

/-- A header that does not fit. -/
theorem offerFor_eq_logicError (h : ¬HeaderFits source params) :
    ∃ what, ∀ requested, offerFor source params requested = .error (.logicError what) := by
  obtain ⟨what, hwhat⟩ := offerHeader_eq_error h
  exact ⟨what, fun requested => by rw [offerFor, hwhat]; rfl⟩

/-- An offer that is made fits, and asks for options there are. -/
theorem fits_of_offerFor {p : DhcpPacketV4} (h : offerFor source params requested = .ok p) :
    HeaderFits source params ∧ ∀ code ∈ requested, HasSlot code := by
  have hfits : HeaderFits source params := by
    by_contra hfits
    obtain ⟨what, hwhat⟩ := offerFor_eq_logicError hfits
    cases (hwhat requested).symm.trans h
  refine ⟨hfits, ?_⟩
  by_contra hslots
  cases (offerFor_eq_undefined hfits hslots).symm.trans h

/-- What an offer that is made consists of. -/
structure IsOffer (source : DhcpPacketV4) (params : OfferParams) (requested : List UInt8)
    (offer : DhcpPacketV4) : Prop where
  fits : HeaderFits source params
  slots : ∀ code ∈ requested, HasSlot code
  header : IsHeader source params offer
  values : ∀ i, offer.options.values i =
    if codeOf i ∈ requested ∨ codeOf i ∈ offeredOptions then params.dhcpOptions.values i else none

theorem isOffer_of_makeOffer {offer : DhcpPacketV4}
    (hrequested : source.requestedParameters = .ok requested)
    (h : makeOffer source params = .ok offer) : IsOffer source params requested offer := by
  rw [makeOffer_eq params hrequested] at h
  obtain ⟨hfits, hslots⟩ := fits_of_offerFor h
  obtain ⟨p, hp, hheader, hvalues⟩ := offerFor_eq_ok hfits hslots
  obtain rfl := Except.ok.inj (hp.symm.trans h)
  exact ⟨hfits, hslots, hheader, hvalues⟩

/-- The options that are always offered are those of the client. -/
theorem IsOffer.values_offered {offer : DhcpPacketV4} (h : IsOffer source params requested offer)
    {i : Fin 254} (hi : codeOf i ∈ offeredOptions) :
    offer.options.values i = params.dhcpOptions.values i := by
  rw [h.values, if_pos (.inr hi)]

/-- **When an offer stays inside the option tables**: the requested codes 0 and 255 have no
entry and are looked up all the same, unless the header of the offer has already failed. -/
theorem staysInTable_iff (source : DhcpPacketV4) (params : OfferParams) :
    StaysInTable source params ↔ (HeaderFits source params →
      ∀ requested, source.requestedParameters = .ok requested →
        ∀ code ∈ requested, code ≠ 0 ∧ code ≠ 255) := by
  constructor
  · intro h hfits requested hrequested
    by_contra hslots
    refine h.inRange (lit "m_values[code - 1u]") ?_
    rw [makeOffer_eq params hrequested]
    exact offerFor_eq_undefined hfits hslots
  · intro h
    have hlist : source.requestedParameters = .ok _ := source.options.requestedParameters_eq
    have heq := makeOffer_eq params hlist
    by_cases hfits : HeaderFits source params
    · have hslots := h hfits _ hlist
      obtain ⟨p, hp, -, -⟩ := offerFor_eq_ok hfits hslots
      refine ⟨by rw [heq, hp]; simp, fun requested hrequested => ?_⟩
      obtain rfl := Except.ok.inj (hlist.symm.trans hrequested)
      have hfilter : ∀ code ∈ (source.options.values 54).elim [] OptionBuffer.bytes,
          decide (HasSlot code) = true := fun code hcode => decide_eq_true (hslots code hcode)
      rw [heq, List.filter_eq_self.mpr hfilter]
    · obtain ⟨what, hwhat⟩ := offerFor_eq_logicError hfits
      refine ⟨by rw [heq, hwhat]; simp, fun requested hrequested => ?_⟩
      rw [heq, hwhat, hwhat]

set_option maxRecDepth 4000 in
/-- **A DISCOVER that asks for option 0**: the offer reaches outside the tables. -/
theorem not_staysInTable_of_requested_zero :
    let bits := [1, 1, 6, 0] ++ List.replicate 232 0 ++
      [0x63, 0x82, 0x53, 0x63, 53, 1, 1, 55, 1, 0, 255]
    let request : DhcpPacketV4 := { DhcpPacketV4.default with
      opcode := 1, flags := 0,
      options := (DhcpOptionsV4.empty.put 52 ⟨[1], by decide⟩).put 54 ⟨[0], by decide⟩ }
    let params : OfferParams := ⟨0, 0, 0, 0, [], [], .empty⟩
    DhcpPacketV4.ofBits bits = .ok request ∧ request.messageType = .ok (some 1) ∧
      ¬StaysInTable request params := by
  refine ⟨by decide +kernel, by decide +kernel, fun h => h.inRange (lit "m_values[code - 1u]") ?_⟩
  decide +kernel

end DhcpServerV4

end Bootpd
