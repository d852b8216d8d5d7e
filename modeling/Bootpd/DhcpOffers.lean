import Bootpd.DhcpIndependence
import Bootpd.DhcpReplySize
import Bootpd.Main

/-!
# From the configuration file to the offer

What a client is offered, end to end: the file is read and parsed, `initialize` makes the table of
it, a DISCOVER arrives from the hardware address that a section is named after, and the datagram
that goes out decodes to an offer with what that section says, and nothing else.

## What is put together

The document gives the store that it describes, by `Main.readConfig`; the store gives a table with
one entry for each section, by `DhcpConfiguration`; the datagram gives the request, and its hardware
address the key, by `DhcpClientKeys` and the printing in lower case; the entry gives the reply, by
`DhcpReply`. None of the modules in between is opened here.

## Scope

The sections of clients are written in lower case, as the responder looks for them. The names in the
section fit their fields in the packet, and the request asks for options that there are. The sockets
send datagrams up to the bound of `DhcpReplySize`. The command line overrides nothing.

## Main definitions

* `Main.Started` — the servers have been made of a document
* `Main.IsDiscover` — the bytes are a DISCOVER of a client with a section
* `Main.SaysWhat` — a reply says what the section of the document says

## Main results

* `Main.offer_of_document` — a DISCOVER is answered with what the document says
-/

namespace Bootpd

open Imperative SocketUdp ConfigIni DhcpServerV4

namespace Main

/-- The store that a document describes. -/
def described (doc : List DocLine) : ConfigIni := assignAll ∅ (assignments [] doc)

/-- What a document has for a key of a section. -/
theorem value_described (doc : List DocLine) (s k : StdString) :
    (described doc).value k s = lastAssigned (assignments [] doc) s k := by
  rw [described, value_assignAll]
  exact Option.or_none ..

/-- `reply` has what the section of the document says: the entry of a client is built from that
section, and the reply from the entry. -/
def SaysWhat (platform : Platform) (doc : List DocLine) (name : StdString)
    (request : DhcpPacketV4) (requested : List UInt8) (reply : DhcpPacketV4) : Prop :=
  ∃ params leaseTime renewalTime rebindingTime,
    (described doc).numberOr (lit "address_lease_time") name 172800 = .ok leaseTime ∧
    (described doc).numberOr (lit "address_renewal_time") name 86400 = .ok renewalTime ∧
    (described doc).numberOr (lit "address_rebinding_time") name 7200 = .ok rebindingTime ∧
    BuiltWith platform (described doc) name params leaseTime renewalTime rebindingTime ∧
    IsReply request params requested reply

/-- The section of a client. -/
def sectionOf (request : DhcpPacketV4) : StdString :=
  lowercase (dashedHex (addressBytes request))

/-- `main` has made its servers of a file that holds the document `doc`. -/
structure Started (fs : Filesystem) (platform : Platform) (args : List StdString)
    (doc : List DocLine) (result : Servers) : Prop where
  servers : servers fs platform args = .ok result
  text : ∃ path file, configPath args = .ok path ∧ fs path = .regular file true ∧
    textOf file.content = doc.flatMap DocLine.text
  wellFormed : ∀ l ∈ doc, l.WellFormed
  noReturn : ∀ l ∈ doc, l.core.NoReturn

/-- A DISCOVER from a hardware address of 1 to 16 bytes that a section of `doc` is named after. The
texts of the section that have a field of their own fit it, and the options it asks for are some
there are. -/
structure IsDiscover (doc : List DocLine) (bits : List UInt8) (request : DhcpPacketV4)
    (requested : List UInt8) : Prop where
  decoded : DhcpPacketV4.ofBits bits = .ok request
  opcode : request.opcode = dhcpOpcodeRequest
  messageType : request.messageType = .ok (some dhcpMessageTypeDiscover)
  address : 1 ≤ request.hardwareAddressLength.toNat ∧ request.hardwareAddressLength.toNat ≤ 16
  named : ∃ a ∈ assignments [] doc, a.sectionName = sectionOf request
  asked : request.requestedParameters = .ok requested
  slots : ∀ code ∈ requested, HasSlot code
  bootFileName :
    ((described doc).valueOr (lit "boot_file_name") (sectionOf request) []).length ≤ 128
  serverHostName :
    ((described doc).valueOr (lit "server_host_name") (sectionOf request) []).length ≤ 64

theorem sectionOf_ne_nil {request : DhcpPacketV4}
    (h : 1 ≤ request.hardwareAddressLength.toNat ∧ request.hardwareAddressLength.toNat ≤ 16) :
    sectionOf request ≠ [] := by
  have hlength : (addressBytes request).length = request.hardwareAddressLength.toNat := by
    rw [addressBytes, List.length_take, List.Vector.toList_length, min_eq_left h.2]
  rw [sectionOf]
  cases hbytes : addressBytes request with
  | nil =>
    rw [hbytes, List.length_nil] at hlength
    omega
  | cons front rest =>
    rw [dashedHex_cons, lowercase, Ne, List.map_eq_nil_iff]
    exact List.cons_ne_nil _ _

variable {fs : Filesystem} {platform : Platform} {args : List StdString} {doc : List DocLine}
  {result : Servers} {bits : List UInt8} {request : DhcpPacketV4} {requested : List UInt8}
  {sys : System}

/-- The entry of a section. -/
theorem Started.lookup (h : Started fs platform args doc result) {name : StdString}
    (hne : name ≠ []) (hname : ∃ a ∈ assignments [] doc, a.sectionName = name)
    (hlower : lowercase name = name) : ∃ params, result.clients.lookup name = some params ∧
      initializeClient platform (described doc) name = .ok params := by
  obtain ⟨path, file, hpath, hfile, htext⟩ := h.text
  obtain ⟨cfg, hcfg, hmake⟩ := bind_eq_ok h.servers
  obtain ⟨⟨address, clients⟩, hclients, hmake⟩ := bind_eq_ok hmake
  obtain ⟨_, -, hmake⟩ := bind_eq_ok hmake
  obtain rfl := Except.ok.inj hmake
  obtain ⟨-, -, rfl⟩ :=
    (readConfig_eq_ok_iff hpath hfile htext h.wellFormed h.noReturn cfg).mp hcfg
  have hsame (k : StdString) :
      (configured doc args).value k name = (described doc).value k name := by
    rw [value_configured, value_described, if_neg hne, Option.none_or]
  have hmem : name ∈ (configured doc args).sections :=
    mem_sections_apply _ _ ((mem_sections_assignAll ..).mpr (.inl hname))
  obtain ⟨params, hparams⟩ := initializeClient_of_mem hclients hmem
  rw [hlower] at hparams
  refine ⟨params, ?_, (initializeClient_congr hsame).symm.trans hparams⟩
  show clients.lookup name = _
  rw [lookup_initializeClients hclients, if_pos hmem, hlower, hparams]
  rfl

/-- Replies are short, whatever the document says. -/
theorem Started.length_reply_le (h : Started fs platform args doc result) {source : AddressV4}
    {d : Datagram} (hd : RepliesWith result.clients source bits d) :
    d.bits.length ≤ replyBound platform := by
  obtain ⟨cfg, -, hmake⟩ := bind_eq_ok h.servers
  obtain ⟨⟨address, clients⟩, hclients, hmake⟩ := bind_eq_ok hmake
  obtain ⟨_, -, hmake⟩ := bind_eq_ok hmake
  obtain rfl := Except.ok.inj hmake
  exact DhcpServerV4.length_reply_le hclients hd

/-- The answer to a DISCOVER. -/
theorem Started.answer (h : Started fs platform args doc result)
    (hdiscover : IsDiscover doc bits request requested)
    (hsys : sys.Healthy (replyBound platform)) (source : AddressV4) (s : IoState) : ∃ d reply,
    exec (threadOutgoing sys result.clients source bits) s = (.ok (), s.push (.sent d)) ∧
      d.target = { AddressV4.everyone with port := source.port } ∧
      DhcpPacketV4.ofBits d.bits = .ok reply ∧
      SaysWhat platform doc (sectionOf request) request requested reply := by
  have hkey := clientKey_eq_ok hdiscover.address
  obtain ⟨params, hlookup, hparams⟩ := h.lookup (sectionOf_ne_nil hdiscover.address)
    hdiscover.named (lowercase_lowercase _)
  obtain ⟨leaseTime, renewalTime, rebindingTime, hlease, hrenewal, hrebinding, hbuilt⟩ :=
    initializeClient_eq_ok hparams
  have hfits : HeaderFits request params :=
    ⟨hdiscover.address.2, hbuilt.bootFileName ▸ hdiscover.bootFileName,
      hbuilt.serverHostName ▸ hdiscover.serverHostName⟩
  obtain ⟨d, hexec, hanswers⟩ := sent_of_sendto source hdiscover.decoded hdiscover.opcode
    (.offer hdiscover.messageType) hkey hlookup hfits hdiscover.asked hdiscover.slots
    (fun d hd log => hsys.sendto log d (h.length_reply_le hd)) s
  obtain ⟨request', key', params', requested', reply, hrequest', -, hkey', hlookup', hasked',
    htarget, hreply, hisReply⟩ := hanswers
  obtain rfl := Except.ok.inj (hdiscover.decoded.symm.trans hrequest')
  obtain rfl := Except.ok.inj (hkey.symm.trans hkey')
  obtain rfl := Option.some.inj (hlookup.symm.trans hlookup')
  obtain rfl := Except.ok.inj (hdiscover.asked.symm.trans hasked')
  exact ⟨d, reply, hexec, htarget, hreply, params, leaseTime, renewalTime, rebindingTime, hlease,
    hrenewal, hrebinding, hbuilt, hisReply⟩

/-- **From the file to the offer.** A DISCOVER from the hardware address that a section is named
after, in lower case, is answered: the datagram is broadcast to the port it came from, and decodes
to an offer with what the section says. -/
theorem offer_of_document (h : Started fs platform args doc result)
    (hdiscover : IsDiscover doc bits request requested)
    (hsys : sys.Healthy (replyBound platform)) (source : AddressV4) (s : IoState) : ∃ d reply,
    exec (threadOutgoing sys result.clients source bits) s = (.ok (), s.push (.sent d)) ∧
      d.target = { AddressV4.everyone with port := source.port } ∧
      DhcpPacketV4.ofBits d.bits = .ok reply ∧
      reply.messageType = .ok (some dhcpMessageTypeOffer) ∧
      SaysWhat platform doc (sectionOf request) request requested reply := by
  obtain ⟨d, reply, hexec, htarget, hreply, hsays⟩ := h.answer hdiscover hsys source s
  refine ⟨d, reply, hexec, htarget, hreply, ?_, hsays⟩
  obtain ⟨_, _, _, _, -, -, -, -, hisReply⟩ := hsays
  obtain ⟨msgType, hanswered, htype⟩ := hisReply.messageType
  cases hanswered with
  | offer => exact htype
  | ack hrequestType => cases hdiscover.messageType.symm.trans hrequestType

/-- A DISCOVER from `00-1B`. -/
def sampleDiscoverBits : List UInt8 :=
  [1, 1, 2, 0] ++ List.replicate 24 0 ++ [0x00, 0x1b] ++ List.replicate 206 0 ++
    [0x63, 0x82, 0x53, 0x63, 53, 1, 1, 55, 1, 1, 255]

theorem length_singleton_le : ([1] : List UInt8).length ≤ 255 := by decide

theorem sampleSlots_lt : 52 < 254 ∧ 54 < 254 := by decide

/-- What it decodes to. -/
def sampleDiscover : DhcpPacketV4 :=
  { samplePacket with
    opcode := 1, flags := 0,
    options := (DhcpOptionsV4.empty.put ⟨52, sampleSlots_lt.1⟩ ⟨[1], length_singleton_le⟩).put
      ⟨54, sampleSlots_lt.2⟩ ⟨[1], length_singleton_le⟩ }

set_option maxRecDepth 4000 in
theorem ofBits_sampleDiscoverBits :
    DhcpPacketV4.ofBits sampleDiscoverBits = .ok sampleDiscover := by decide +kernel

theorem isDiscover_sampleDiscover :
    IsDiscover sampleDocument sampleDiscoverBits sampleDiscover [1] where
  decoded := ofBits_sampleDiscoverBits
  opcode := rfl
  messageType := by decide +kernel
  address := by decide
  named := by decide
  asked := by decide +kernel
  slots := by simp [HasSlot]
  bootFileName := by decide
  serverHostName := by decide

theorem started_sampleDisk {result : Servers}
    (h : servers sampleDisk samplePlatform [lit "bootpd"] = .ok result) :
    Started sampleDisk samplePlatform [lit "bootpd"] sampleDocument result where
  servers := h
  text := ⟨_, _, rfl, rfl, by decide +kernel⟩
  wellFormed := wellFormed_sampleDocument
  noReturn := noReturn_sampleDocument

theorem exists_servers_sampleDisk :
    ∃ result, servers sampleDisk samplePlatform [lit "bootpd"] = .ok result :=
  exists_of_isOk (by decide +kernel)

theorem offer_of_document_sample : ∃ result d reply,
    servers sampleDisk samplePlatform [lit "bootpd"] = .ok result ∧
      exec (threadOutgoing (.serving ⟨[], by decide⟩) result.clients ⟨1, 68⟩ sampleDiscoverBits)
        ⟨[], 0, 0⟩ = (.ok (), IoState.push ⟨[], 0, 0⟩ (.sent d)) ∧
      d.target = { AddressV4.everyone with port := 68 } ∧
      DhcpPacketV4.ofBits d.bits = .ok reply ∧
      reply.messageType = .ok (some dhcpMessageTypeOffer) ∧
      SaysWhat samplePlatform sampleDocument (sectionOf sampleDiscover) sampleDiscover [1]
        reply := by
  obtain ⟨result, hresult⟩ := exists_servers_sampleDisk
  obtain ⟨d, reply, hoffer⟩ := offer_of_document (started_sampleDisk hresult)
    isDiscover_sampleDiscover (System.healthy_serving ⟨[], by decide⟩) ⟨1, 68⟩ ⟨[], 0, 0⟩
  exact ⟨result, d, reply, hresult, hoffer⟩

end Main

end Bootpd
