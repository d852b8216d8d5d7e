import Bootpd.TftpDelivery
import Bootpd.TftpHealthySteps

/-!
# A transfer can be completed

Lock step and delivery say what a client has when the session is done. Here is that it can be done:
whatever the network has lost, repeated and delayed so far, a session that waits with a retry left
is one time-out away from a transfer that goes on to the end of the file. The client may have the
session's block already, when only the acknowledgement was lost.

## What has to go right

First everything that is still on its way is lost. Without that a late acknowledgement may arrive in
place of the awaited one, and end the session; `TftpLateAck` is about those. Then one receive times
out, and the packet is sent again. From there on nothing is lost, and each round is one packet to
the client and one acknowledgement back. The number of rounds is bounded by the blocks that are
left.

## Scope

The request is for octet mode, with options that the session accepts and blocks of at least one
byte, and there is memory for a block. The sockets work for datagrams up to the longest that the
session sends, the file is there and does not change, and nobody requests a stop. As everywhere in
`TftpNetwork`, no datagram overtakes another.

## Main definitions

* `Network.flush` — the losses that empty both channels
* `Network.rounds` — rounds in which nothing is lost
* `Network.Ready` — the session has just sent a packet, and nothing else is on its way

## Main results

* `Network.Ready.finishes` — in rounds in which nothing is lost, up to the end of the file
* `Network.recovers` — from any state of any run
-/

namespace Bootpd

open Imperative StopAndWait

/-- The session waits, and has a retry left. -/
def Control.CanRetry : Control → Prop
  | .oackSent n .. => 1 < n
  | .dataSent n _ => 1 < n
  | _ => False

instance : DecidablePred Control.CanRetry
  | .oackSent n .. => inferInstanceAs (Decidable (1 < n))
  | .dataSent n _ => inferInstanceAs (Decidable (1 < n))
  | .finished _ => inferInstanceAs (Decidable False)
  | .thrown _ => inferInstanceAs (Decidable False)

namespace Network

/-- The network after some more actions. -/
def after (sys : System) (session : TftpSessionV4) (net : Network Receiver) (as : List Action) :
    Network Receiver :=
  as.foldl (step sys session receiver) net

/-- The client gets a datagram, and the session the answer. -/
def round : List Action := [.clientReceives, .sessionReceives]

/-- Some rounds. -/
def rounds (m : ℕ) : List Action := (List.replicate m round).flatten

/-- Everything that is on its way is lost. -/
def flush (net : Network Receiver) : List Action :=
  List.replicate net.toClient.length (.loseToClient 0) ++
    List.replicate net.toSession.length (.loseToSession 0)

variable {sys : System} {session : TftpSessionV4} {file : File} {options : OptionsType}
  {net : Network Receiver} {k : ℕ} {reader : TftpReader}

theorem after_append (net : Network Receiver) (as bs : List Action) :
    after sys session net (as ++ bs) = after sys session (after sys session net as) bs :=
  List.foldl_append

theorem rounds_succ (m : ℕ) : rounds (m + 1) = round ++ rounds m := rfl

theorem after_flush (net : Network Receiver) :
    after sys session net (flush net) = { net with toClient := [], toSession := [] } := by
  obtain ⟨s, c, toClient, toSession, block, timeouts⟩ := net
  rw [flush, after_append]
  have hclient : after sys session ⟨s, c, toClient, toSession, block, timeouts⟩
      (List.replicate toClient.length (.loseToClient 0)) =
      ⟨s, c, [], toSession, block, timeouts⟩ := by
    induction toClient with
    | nil => rfl
    | cons bits toClient ih => exact ih
  rw [hclient]
  clear hclient
  induction toSession with
  | nil => rfl
  | cons bits toSession ih => exact ih

/-! ### Rounds -/

theorem sent_singleton (d : Datagram) :
    [Event.sent d].filterMap (sentTo d.target) = [d.bits] :=
  List.filterMap_cons_some (if_pos rfl)

theorem sent_opened (path : Path) (d : Datagram) :
    [Event.opened path, .sent d].filterMap (sentTo d.target) = [d.bits] :=
  (List.filterMap_cons_none rfl).trans (sent_singleton d)

/-- **One round**, as the step of the session that it comes to: the client answers what is on its
way with an acknowledgement. -/
theorem after_round (sys : System) (session : TftpSessionV4) {c : Receiver} {bits : List UInt8}
    {number : UInt64}
    (htoClient : net.toClient = [bits]) (htoSession : net.toSession = [])
    (hreceive : net.client.receive bits =
      (c, some (TftpPacket.ackBits (UInt16.ofNat number.toNat)))) :
    after sys session net round =
      { sessionStep sys session { net with client := c, toClient := [], toSession := [] }
          (session.ackOf number) with timeouts := 0 } := by
  have hclient : step sys session receiver net .clientReceives =
      { net with
        client := c, toClient := []
        toSession := [TftpPacket.ackBits (UInt16.ofNat number.toNat)] } := by
    rw [step, htoClient]
    dsimp only [receiver]
    rw [hreceive, htoSession]
    rfl
  show step sys session receiver (step sys session receiver net .clientReceives)
    .sessionReceives = _
  rw [hclient]
  rfl

/-- A datagram with block `k` is on its way to a client that has all the blocks before, or `k`
already. -/
structure Ready (session : TftpSessionV4) (file : File) (b : ℕ) (net : Network Receiver) (k : ℕ)
    (reader : TftpReader) : Prop where
  waits : ∃ n, net.session.control = .dataSent n reader
  readerAt : TftpReader.At file.content.length b k reader
  exact : TftpReader.Exact file.content reader
  toClient : net.toClient = [(reader.datagram session.remoteClient).bits]
  toSession : net.toSession = []
  accepted : k = net.client.accepted + 1 ∨ k = net.client.accepted
  bytes : net.client.bytes = firstBlocks file.content b net.client.accepted

variable {b : ℕ}

theorem Ready.receive (h : Ready session file b net k reader) :
    net.client.receive (reader.datagram session.remoteClient).bits =
      (⟨k, firstBlocks file.content b k⟩,
        some (TftpPacket.ackBits (UInt16.ofNat reader.number.toNat))) := by
  have hbuffer : reader.buffer = TftpReader.block file.content b k := by
    rw [h.exact.buffer, h.readerAt.blksiz, h.readerAt.number]
  have haccepted := h.accepted
  have hbytes := h.bytes
  generalize net.client = client at haccepted hbytes ⊢
  obtain ⟨accepted, bytes⟩ := client
  dsimp only at haccepted hbytes
  rw [TftpReader.datagram, Receiver.receive_data (TftpPacket.ofBits_dataBits ..), hbuffer,
    h.readerAt.number, hbytes]
  rcases haccepted with rfl | rfl
  · rw [if_pos rfl, firstBlocks_succ]
  · -- the acknowledgement was lost
    rw [if_neg (ofNat_succ_ne k).symm, if_pos rfl]

/-- A round brings the next block. -/
theorem Ready.next {longest : ℕ} (hsys : sys.Healthy longest) (hstop : sys.NoStop)
    (hlength : min b file.content.length + 4 ≤ longest)
    (h : Ready session file b net k reader) (hlast : reader.last = false) :
    Ready session file b (after sys session net round) (k + 1) reader.next := by
  obtain ⟨n, hn⟩ := h.waits
  have hround := after_round sys session h.toClient h.toSession h.receive
  have hexact := h.exact.next h.readerAt hlast
  obtain ⟨⟨control, io⟩, client, toClient, toSession, block, timeouts⟩ := net
  obtain rfl : control = .dataSent n reader := hn
  have hstep : TftpSessionV4.step sys session ⟨.dataSent n reader, io⟩
      (session.ackOf reader.number) = _ :=
    TftpSessionV4.step_ack_next hsys hstop io
      ((TftpSessionV4.length_datagram_le (h.readerAt.next hlast) _).trans hlength) hlast
  rw [hround]
  refine ⟨⟨_, congrArg TftpSessionV4.State.control hstep⟩, h.readerAt.next hlast, hexact, ?_, rfl,
    .inl rfl, rfl⟩
  have hlog : (TftpSessionV4.step sys session ⟨.dataSent n reader, io⟩
      (session.ackOf reader.number)).io.log = io.log ++ [.received (session.ackOf reader.number),
        .sent (reader.next.datagram session.remoteClient)] := by
    rw [hstep, IoState.log_push, IoState.log_push, List.append_assoc]
    rfl
  have hclient := toClient_sessionStep ⟨⟨.dataSent n reader, io⟩,
    (⟨k, firstBlocks file.content b k⟩ : Receiver), [], [], block, timeouts⟩ hlog
  exact hclient.trans (sent_singleton (reader.next.datagram session.remoteClient))

/-- The round of the last block. -/
theorem Ready.last (h : Ready session file b net k reader) (hlast : reader.last = true) :
    (after sys session net round).session.control = .finished reader ∧
      (after sys session net round).client.bytes = file.content := by
  obtain ⟨n, hn⟩ := h.waits
  have hround := after_round sys session h.toClient h.toSession h.receive
  obtain ⟨⟨control, io⟩, client, toClient, toSession, block, timeouts⟩ := net
  obtain rfl : control = .dataSent n reader := hn
  have hstep : TftpSessionV4.step sys session ⟨.dataSent n reader, io⟩
      (session.ackOf reader.number) = _ :=
    TftpSessionV4.step_ack_last io hlast
  rw [hround]
  refine ⟨congrArg TftpSessionV4.State.control hstep, ?_⟩
  show firstBlocks file.content b k = _
  rw [firstBlocks_eq_take, List.take_of_length_le]
  rw [h.readerAt.last_iff.mp hlast, Nat.succ_mul]
  exact (Nat.lt_div_mul_add h.readerAt.blksiz_pos).le

/-- **The rest of a transfer**: a round for each block that is left. -/
theorem Ready.finishes {longest : ℕ} (hsys : sys.Healthy longest) (hstop : sys.NoStop)
    (hlength : min b file.content.length + 4 ≤ longest)
    (h : Ready session file b net k reader) : ∃ reader',
    (after sys session net (rounds (file.content.length / b + 2 - k))).session.control =
      .finished reader' ∧
    (after sys session net (rounds (file.content.length / b + 2 - k))).client.bytes =
      file.content := by
  have hle := h.readerAt.number_le
  induction hj : file.content.length / b + 1 - k generalizing k net reader with
  | zero =>
    have hk : k = file.content.length / b + 1 := by omega
    have hone : file.content.length / b + 2 - k = 1 := by omega
    rw [hone]
    exact ⟨reader, h.last (h.readerAt.last_iff.mpr hk)⟩
  | succ j ih =>
    have hlast : reader.last = false := by
      rw [← Bool.not_eq_true, h.readerAt.last_iff]
      omega
    have hsucc : file.content.length / b + 2 - k =
        file.content.length / b + 2 - (k + 1) + 1 := by omega
    rw [hsucc, rounds_succ, after_append]
    exact ih (h.next hsys hstop hlength hlast) (by omega) (by omega)

/-! ### The first block -/

section Start

variable (hsys : sys.Healthy (session.longest file)) (hstop : sys.NoStop)
  (hfile : sys.Finds session.filePath (.regular file true))
  (hmode : session.request.xfermode = lit "octet")
  (huse : session.optionsInUse file = .ok options) (hb : 1 ≤ options.blksize.toNat)
  (halloc : sys.canAllocate options.blksize = true)

include hsys hstop hfile hmode huse hb halloc

/-- The transfer starts: the first block is on its way. -/
theorem exists_startTransfer (io : IoState) : ∃ reader io',
    TftpSessionV4.settle (exec (TftpSessionV4.startTransfer sys session options) io) =
        ⟨.dataSent maxRetries reader, io'⟩ ∧
      io'.log = io.log ++ [.opened session.filePath,
        .sent (reader.datagram session.remoteClient)] ∧
      TftpReader.At file.content.length options.blksize.toNat 1 reader ∧
      TftpReader.Exact file.content reader := by
  obtain ⟨io', hlog, hexec⟩ := TftpSessionV4.exec_startTransfer hsys hstop hfile
    (TftpSessionV4.tsize_of_optionsInUse huse) (TftpSessionV4.block_le_longest huse) io
  rw [halloc, if_pos rfl] at hexec
  refine ⟨_, _, by rw [hexec]; rfl, ?_, TftpReader.at_initial file hb _, ?_⟩
  · rw [IoState.log_push, hlog, List.append_assoc]
    rfl
  · rw [hmode]
    exact TftpReader.exact_initial hfile options.blksize

/-- The OACK is on its way: a round brings the first block. -/
theorem exists_ready_of_oack {n : ℕ} {oack : DictionaryType}
    (hcontrol : net.session.control = .oackSent n options oack) (hclient : net.client = ⟨0, []⟩)
    (htoClient : net.toClient = [(oackDatagram oack session.remoteClient).bits])
    (htoSession : net.toSession = []) : ∃ reader,
    Ready session file options.blksize.toNat (after sys session net round) 1 reader := by
  obtain ⟨⟨control, io⟩, client, toClient, toSession, block, timeouts⟩ := net
  obtain rfl : control = .oackSent n options oack := hcontrol
  obtain rfl : client = ⟨0, []⟩ := hclient
  obtain rfl : toClient = _ := htoClient
  obtain rfl : toSession = [] := htoSession
  obtain ⟨reader, io', hstart, hlog, hat, hexact⟩ := exists_startTransfer hsys hstop hfile hmode
    huse hb halloc (io.push (.received (session.ackOf 0)))
  have hstep : TftpSessionV4.step sys session ⟨.oackSent n options oack, io⟩
      (session.ackOf 0) = ⟨.dataSent maxRetries reader, io'⟩ :=
    (TftpSessionV4.step_ack_oackSent ..).trans hstart
  have hreceive : Receiver.receive ⟨0, []⟩ (oackDatagram oack session.remoteClient).bits =
      (⟨0, []⟩, some (TftpPacket.ackBits (UInt16.ofNat (0 : UInt64).toNat))) := by
    rw [oackDatagram, Receiver.receive_other (TftpPacket.not_data_of_opcode (by decide) _),
      isOack_encode]
    exact if_pos ⟨by decide, rfl⟩
  have hlog' : (TftpSessionV4.step sys session ⟨.oackSent n options oack, io⟩
      (session.ackOf 0)).io.log = io.log ++ .received (session.ackOf 0) ::
        [.opened session.filePath, .sent (reader.datagram session.remoteClient)] := by
    rw [hstep, hlog, IoState.log_push, List.append_assoc]
    rfl
  rw [after_round sys session rfl rfl hreceive]
  refine ⟨reader, ⟨_, congrArg TftpSessionV4.State.control hstep⟩, hat, hexact, ?_, rfl, .inl rfl,
    rfl⟩
  exact (toClient_sessionStep ⟨⟨.oackSent n options oack, io⟩, (⟨0, []⟩ : Receiver), [], [],
    block, timeouts⟩ hlog').trans
      (sent_opened session.filePath (reader.datagram session.remoteClient))

/-- **From the start**: if nothing is lost and no time-out comes too early, the client gets the
file. -/
theorem completes : ∃ m ≤ file.content.length / options.blksize.toNat + 2,
    (∃ reader, (run sys session receiver (rounds m)).session.control = .finished reader) ∧
      (run sys session receiver (rounds m)).client.bytes = file.content := by
  obtain ⟨io, hlog, hstart | ⟨oack, hstart⟩⟩ := TftpSessionV4.start_of_optionsInUse hsys hstop
    (.inl hmode) hfile huse
  · obtain ⟨reader, io', hstart', hlog', hat, hexact⟩ := exists_startTransfer hsys hstop hfile
      hmode huse hb halloc io
    have hs := hstart.trans hstart'
    have hready : Ready session file options.blksize.toNat (start sys session receiver) 1
        reader := by
      refine ⟨⟨_, congrArg TftpSessionV4.State.control hs⟩, hat, hexact, ?_, rfl, .inl rfl, rfl⟩
      show (TftpSessionV4.start sys session).io.log.filterMap _ = _
      rw [hs, hlog', hlog]
      exact sent_opened session.filePath (reader.datagram session.remoteClient)
    obtain ⟨reader', hfinished, hbytes⟩ := hready.finishes hsys hstop
      (TftpSessionV4.block_le_longest huse)
    exact ⟨_, Nat.sub_le _ 1, ⟨reader', hfinished⟩, hbytes⟩
  · have hnet : (start sys session receiver).toClient =
        [(oackDatagram oack session.remoteClient).bits] := by
      show (TftpSessionV4.start sys session).io.log.filterMap _ = _
      rw [hstart, IoState.log_push, hlog]
      exact sent_singleton (oackDatagram oack session.remoteClient)
    obtain ⟨reader, hready⟩ := exists_ready_of_oack hsys hstop hfile hmode huse hb halloc
      (congrArg TftpSessionV4.State.control hstart) rfl hnet rfl
    obtain ⟨reader', hfinished, hbytes⟩ := hready.finishes hsys hstop
      (TftpSessionV4.block_le_longest huse)
    refine ⟨file.content.length / options.blksize.toNat + 1 + 1, le_rfl, ?_⟩
    rw [run, rounds_succ, List.foldl_append]
    exact ⟨⟨reader', hfinished⟩, hbytes⟩

/-! ### From any state -/

omit hfile hmode hb halloc in
/-- The session sends its block again. -/
theorem ready_timeout {n : ℕ} (hn : 1 < n) (hcontrol : net.session.control = .dataSent n reader)
    (hat : TftpReader.At file.content.length options.blksize.toNat k reader)
    (hexact : TftpReader.Exact file.content reader) (htoClient : net.toClient = [])
    (htoSession : net.toSession = [])
    (haccepted : k = net.client.accepted + 1 ∨ k = net.client.accepted)
    (hbytes : net.client.bytes =
      firstBlocks file.content options.blksize.toNat net.client.accepted) :
    Ready session file options.blksize.toNat (step sys session receiver net .timeout) k reader := by
  obtain ⟨⟨control, io⟩, client, toClient, toSession, block, timeouts⟩ := net
  obtain rfl : control = .dataSent n reader := hcontrol
  obtain rfl : toClient = [] := htoClient
  obtain rfl : toSession = [] := htoSession
  have hstep : TftpSessionV4.step sys session ⟨.dataSent n reader, io⟩ .timedOut = _ :=
    TftpSessionV4.step_timedOut_dataSent hsys hstop _
      ((TftpSessionV4.length_datagram_le hat _).trans (TftpSessionV4.block_le_longest huse)) hn
  have hlog := congrArg (fun s => s.io.log) hstep
  dsimp only at hlog
  rw [IoState.log_push, IoState.log_push, List.append_assoc] at hlog
  exact ⟨⟨_, congrArg TftpSessionV4.State.control hstep⟩, hat, hexact,
    (toClient_sessionStep ⟨⟨.dataSent n reader, io⟩, client, [], [], block, timeouts⟩
      hlog).trans (sent_singleton _), rfl, haccepted, hbytes⟩

/-- The session sends the OACK again. -/
theorem exists_ready_timeout {n : ℕ} {oack : DictionaryType} (hn : 1 < n)
    (hcontrol : net.session.control = .oackSent n options oack)
    (hannounces : Announces session file net.session.control) (hclient : net.client = ⟨0, []⟩)
    (htoClient : net.toClient = []) (htoSession : net.toSession = []) : ∃ reader,
    Ready session file options.blksize.toNat
      (after sys session (step sys session receiver net .timeout) round) 1 reader := by
  obtain ⟨⟨control, io⟩, client, toClient, toSession, block, timeouts⟩ := net
  obtain rfl : control = .oackSent n options oack := hcontrol
  obtain rfl : toClient = [] := htoClient
  obtain rfl : toSession = [] := htoSession
  have hstep : TftpSessionV4.step sys session ⟨.oackSent n options oack, io⟩ .timedOut = _ :=
    TftpSessionV4.step_timedOut_oackSent hsys hstop _ _ _
      (TftpSessionV4.oack_le_longest (hannounces _ _ _ rfl)) hn
  have hlog := congrArg (fun s => s.io.log) hstep
  dsimp only at hlog
  rw [IoState.log_push, IoState.log_push, List.append_assoc] at hlog
  exact exists_ready_of_oack hsys hstop hfile hmode huse hb halloc
    (congrArg TftpSessionV4.State.control hstep) hclient
    ((toClient_sessionStep ⟨⟨.oackSent n options oack, io⟩, client, [], [], block, timeouts⟩
      hlog).trans (sent_singleton _)) rfl

/-- **A transfer can always be completed.** Whatever has happened in a run, a session that waits
with a retry left is one time-out away from it: if then everything that was on its way is lost, and
nothing more, the client gets the file.

That what was on its way is lost is needed: a late acknowledgement of the packet before would end
the session. So are the hypotheses of the section. The sockets work, the file is there and does not
change, it is read in octet mode, its options are accepted with blocks of at least one byte, and
there is memory for a block. -/
theorem recovers (as : List Action)
    (hretry : (run sys session receiver as).session.control.CanRetry) :
    ∃ m ≤ file.content.length / options.blksize.toNat + 2,
      let bs := flush (run sys session receiver as) ++ .timeout :: rounds m
      (∃ reader, (run sys session receiver (as ++ bs)).session.control = .finished reader) ∧
        (run sys session receiver (as ++ bs)).client.bytes = file.content := by
  obtain ⟨p, k, h, haccepted, hbytes⟩ := Network.invariant_run hstop hfile huse
    (TftpSessionV4.reads_exact hfile hmode huse hb)
    (Receiver.inStep file.content options.blksize.toNat) as
  have hle := h.window.le
  have hsucc := h.window.le_succ
  have hannounces : Announces session file (run sys session receiver as).session.control :=
    announces_run hstop hfile as
  have hrun (bs : List Action) : run sys session receiver (as ++ (flush (run sys session receiver
      as) ++ .timeout :: bs)) = after sys session (step sys session receiver
        { run sys session receiver as with toClient := [], toSession := [] } .timeout) bs := by
    rw [run, List.foldl_append]
    show after sys session (run sys session receiver as) _ = _
    rw [after_append, after_flush]
    rfl
  generalize run sys session receiver as = net at *
  cases hcontrol : net.session.control with
  | oackSent n options' oack =>
    rw [hcontrol] at hretry
    obtain ⟨rfl, rfl⟩ := h.oackSent _ _ _ hcontrol
    obtain rfl : k = 0 := Nat.le_zero.mp hle
    have hclient : net.client = ⟨0, []⟩ := by
      generalize net.client = client at haccepted hbytes ⊢
      obtain ⟨accepted, bytes⟩ := client
      exact congrArg₂ Receiver.mk haccepted hbytes
    obtain ⟨reader, hready⟩ : ∃ reader, Ready session file options'.blksize.toNat
        (after sys session (step sys session receiver { net with toClient := [], toSession := [] }
          .timeout) round) 1 reader :=
      exists_ready_timeout hsys hstop hfile hmode huse hb halloc hretry hcontrol hannounces hclient
        rfl rfl
    obtain ⟨reader', hfinished, hend⟩ := hready.finishes hsys hstop
      (TftpSessionV4.block_le_longest huse)
    refine ⟨file.content.length / options'.blksize.toNat + 1 + 1, le_rfl, ?_⟩
    intro bs
    rw [hrun, rounds_succ, after_append]
    exact ⟨⟨reader', hfinished⟩, hend⟩
  | dataSent n reader =>
    rw [hcontrol] at hretry
    obtain ⟨hat, hexact⟩ := h.dataSent _ _ hcontrol
    have hready : Ready session file options.blksize.toNat (step sys session receiver
        { net with toClient := [], toSession := [] } .timeout) p reader :=
      ready_timeout hsys hstop huse hretry hcontrol hat hexact rfl rfl (by dsimp only; omega)
        (hbytes.trans (by rw [← haccepted]))
    obtain ⟨reader', hfinished, hend⟩ := hready.finishes hsys hstop
      (TftpSessionV4.block_le_longest huse)
    refine ⟨_, Nat.sub_le _ p, ?_⟩
    intro bs
    rw [hrun]
    exact ⟨⟨reader', hfinished⟩, hend⟩
  | finished reader =>
    rw [hcontrol] at hretry
    cases hretry
  | thrown e =>
    rw [hcontrol] at hretry
    cases hretry

end Start

/-- Three bytes in blocks of two, after the OACK and the first block have been lost once. -/
theorem recovers_three_bytes :
    let file : File := ⟨[65, 66, 67], by decide⟩
    let session : TftpSessionV4 :=
      ⟨Path.ofString (lit "./"), ⟨1, 1024⟩, ⟨lit "a", lit "octet",
        UnorderedMap.emplace ∅ (lit "blksize") (lit "2")⟩⟩
    let as : List Action := [.loseToClient 0, .timeout, .clientReceives, .sessionReceives,
      .loseToClient 0]
    ∃ m ≤ 3,
      let bs := flush (run (.serving file) session receiver as) ++ .timeout :: rounds m
      (∃ reader, (run (.serving file) session receiver (as ++ bs)).session.control =
        .finished reader) ∧
        (run (.serving file) session receiver (as ++ bs)).client.bytes = [65, 66, 67] :=
  have huse : TftpSessionV4.optionsInUse ⟨Path.ofString (lit "./"), ⟨1, 1024⟩, ⟨lit "a",
      lit "octet", UnorderedMap.emplace ∅ (lit "blksize") (lit "2")⟩⟩
      ⟨[65, 66, 67], by decide⟩ = .ok ⟨2, 1, 3⟩ := by decide
  recovers (System.healthy_serving _) (System.noStop_serving _)
    (System.finds_serving _ _) rfl huse (by decide) rfl _
    (by decide +kernel)

end Network

end Bootpd
