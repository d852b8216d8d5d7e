import Bootpd.DhcpOffers
import Bootpd.TftpRecovery
import Bootpd.TftpServerV4

/-!
# How a client boots

The two servers together, from one configuration file: the offer names a boot file, and a client
that asks the TFTP server for that name gets the file the document says, out of the directory the
document says.

## What is put together

`Main.offer_of_document` has the offer, from the bytes of the file and of the DISCOVER to the bytes
of the answer. The client takes the boot file from the fixed field of the reply, up to its first
zero. `TftpServerV4.visitEvent` makes a session of its read request, and `Network.completes` has the
transfer in which nothing is lost; what holds when datagrams are lost is in `TftpDelivery` and
`TftpRecovery`.

## Scope

The client asks in octet mode, with options that the session accepts and blocks of at least one
byte. The image is there under the name, can be read and does not change, there is memory for a
block, and the sockets of both servers send what is asked of them. A client that asks in netascii,
or for blocks of no bytes, is the subject of `TftpNetascii` and `TftpTermination`.

## Main definitions

* `Main.bootFileOf`, `Main.AsksFor` — the name in a reply, and a read request for it
* `Main.sessionFor` — the session that the TFTP server makes of it

## Main results

* `Main.boots` — from the DISCOVER to the file
-/

namespace Bootpd

open Imperative SocketUdp ConfigIni DhcpServerV4

namespace Main

/-- What a client takes from the field for the boot file: the text in front of its zeros. -/
def bootFileOf (reply : DhcpPacketV4) : StdString := reply.bootFileName.toList.takeWhile (· != 0)

/-- A read request for the boot file of a reply, in octet mode and with any options. -/
structure AsksFor (reply : DhcpPacketV4) (bits : List UInt8) (request : TypeRrq) : Prop where
  decoded : TftpPacket.ofBits bits = .ok (.rrq request)
  filename : request.filename = bootFileOf reply
  octet : request.xfermode = lit "octet"

/-- The boot file of a section. -/
def bootFileName (doc : List DocLine) (sectionName : StdString) : StdString :=
  (described doc).valueOr (lit "boot_file_name") sectionName []

theorem bootFileOf_of_saysWhat {platform : Platform} {doc : List DocLine} {name : StdString}
    {request : DhcpPacketV4} {requested : List UInt8} {reply : DhcpPacketV4}
    (h : SaysWhat platform doc name request requested reply) (hzero : 0 ∉ bootFileName doc name) :
    bootFileOf reply = bootFileName doc name := by
  obtain ⟨params, _, _, _, -, -, -, hbuilt, hisReply⟩ := h
  have hall : ∀ c ∈ bootFileName doc name, (c != 0) = true := by
    intro c hc
    rw [bne_iff_ne]
    rintro rfl
    exact hzero hc
  rw [bootFileOf, hisReply.header.bootFileName, hbuilt.bootFileName, ← bootFileName,
    List.takeWhile_append_of_pos hall, List.takeWhile_replicate_eq_filter]
  simp

/-- The session for a request. -/
def sessionFor (result : Servers) (remoteClient : AddressV4) (request : TypeRrq) : TftpSessionV4 :=
  ⟨result.tftpBaseDir, remoteClient, request⟩

variable {fs : Filesystem} {platform : Platform} {args : List StdString} {doc : List DocLine}
  {result : Servers} {bits : List UInt8} {request : DhcpPacketV4} {requested : List UInt8}
  {sys tftp : System} {image : File}

/-- **A client boots.** The answer to its DISCOVER names the boot file of its section. For a read
request with this name, in octet mode, the TFTP server makes a session. If its options are accepted,
with a block size that is not zero, and there is memory for a block, then however the network loses,
repeats and delays the datagrams, what the client has is always the beginning of the file; and if
the sockets work and nothing is lost it has the whole file in the end. -/
theorem boots (h : Started fs platform args doc result)
    (hdiscover : IsDiscover doc bits request requested)
    (hsys : sys.Healthy (replyBound platform))
    (hzero : 0 ∉ bootFileName doc (sectionOf request)) (hstop : tftp.NoStop)
    (himage : tftp.Finds (result.tftpBaseDir.append
      (Path.ofString (bootFileName doc (sectionOf request)))) (.regular image true))
    (source : AddressV4) (s : IoState) : ∃ d reply,
    exec (threadOutgoing sys result.clients source bits) s = (.ok (), s.push (.sent d)) ∧
      DhcpPacketV4.ofBits d.bits = .ok reply ∧
      bootFileOf reply = bootFileName doc (sectionOf request) ∧
      ∀ rrqBits rrq remoteClient, AsksFor reply rrqBits rrq →
        (∀ io, exec (TftpServerV4.visitEvent tftp remoteClient rrqBits) io =
          (.ok (some (.rrq rrq)), io)) ∧
        ∀ options, (sessionFor result remoteClient rrq).optionsInUse image = .ok options →
          1 ≤ options.blksize.toNat → tftp.canAllocate options.blksize = true →
          (∀ as, (Network.run tftp (sessionFor result remoteClient rrq) receiver as).client.bytes
            <+: image.content) ∧
          (tftp.Healthy ((sessionFor result remoteClient rrq).longest image) →
            ∃ m ≤ image.content.length / options.blksize.toNat + 2,
              let net := Network.run tftp (sessionFor result remoteClient rrq) receiver
                (Network.rounds m)
              (∃ reader, net.session.control = .finished reader) ∧
                net.client.bytes = image.content) := by
  obtain ⟨d, reply, hexec, -, hreply, hsays⟩ := h.answer hdiscover hsys source s
  have hname := bootFileOf_of_saysWhat hsays hzero
  refine ⟨d, reply, hexec, hreply, hname, fun rrqBits rrq remoteClient hasks => ⟨fun io => ?_,
    fun options huse hb halloc => ?_⟩⟩
  · rw [TftpServerV4.visitEvent, hasks.decoded, exec_bind_ok (exec_liftExcept ..)]
    rfl
  · have hfile : tftp.Finds (sessionFor result remoteClient rrq).filePath
        (.regular image true) := by
      rw [TftpSessionV4.filePath, sessionFor, hasks.filename, hname]
      exact himage
    refine ⟨fun as => ?_, fun htftp => ?_⟩
    · obtain ⟨p, k, -, -, hbytes⟩ := Network.invariant_run hstop hfile huse
        (TftpSessionV4.reads_exact hfile hasks.octet huse hb)
        (Receiver.inStep image.content options.blksize.toNat) as
      rw [hbytes, firstBlocks_eq_take]
      exact List.take_prefix _ _
    · exact Network.completes htftp hstop hfile hasks.octet huse hb halloc

/-- A read request for `a`. -/
def sampleRrqBits : List UInt8 := [0, 1, 97, 0, 111, 99, 116, 101, 116, 0]

theorem boots_sample : ∃ result d reply m,
    servers sampleDisk samplePlatform [lit "bootpd"] = .ok result ∧
      exec (threadOutgoing (.serving ⟨[], by decide⟩) result.clients ⟨1, 68⟩ sampleDiscoverBits)
        ⟨[], 0, 0⟩ = (.ok (), IoState.push ⟨[], 0, 0⟩ (.sent d)) ∧
      DhcpPacketV4.ofBits d.bits = .ok reply ∧ bootFileOf reply = lit "a" ∧
      (Network.run (.serving ⟨sampleText, by decide⟩)
        (sessionFor result ⟨1, 1024⟩ ⟨lit "a", lit "octet", ∅⟩) receiver
        (Network.rounds m)).client.bytes = sampleText := by
  obtain ⟨result, hresult⟩ := exists_servers_sampleDisk
  obtain ⟨d, reply, hexec, hreply, hname, hserves⟩ := boots (started_sampleDisk hresult)
    isDiscover_sampleDiscover (System.healthy_serving ⟨[], by decide⟩) (by decide)
    (System.noStop_serving ⟨sampleText, by decide⟩) (System.finds_serving _ _) ⟨1, 68⟩ ⟨[], 0, 0⟩
  have hbootFile : bootFileName sampleDocument (sectionOf sampleDiscover) = lit "a" := by decide
  have hasks : AsksFor reply sampleRrqBits ⟨lit "a", lit "octet", ∅⟩ :=
    ⟨rfl, (hname.trans hbootFile).symm, rfl⟩
  obtain ⟨-, hsession⟩ := hserves _ _ ⟨1, 1024⟩ hasks
  obtain ⟨-, hcompletes⟩ := hsession ⟨512, 1, 29⟩ rfl (by decide) rfl
  obtain ⟨m, -, -, hbytes⟩ := hcompletes (System.healthy_serving _)
  exact ⟨result, d, reply, m, hresult, hexec, hreply, hname.trans hbootFile, hbytes⟩

end Main

end Bootpd
