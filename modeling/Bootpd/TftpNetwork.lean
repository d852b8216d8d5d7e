import Bootpd.Lib.StopAndWait
import Bootpd.TftpSessionSteps

/-!
# A session and its client, over a network

Two channels connect a session with one client. They may lose a datagram, keep it for any time, or
repeat it in place; the receive of the session may time out at any moment. Nobody else sends
anything.

## The order of the datagrams

A channel delivers in order. A datagram is late by staying in its channel while the session times
out and sends again, and then both are on their way; but none overtakes another of the same
direction. This is what the window of `Lib.StopAndWait` rests on: on their way to the client are
copies of one packet and behind them copies of the next, and on their way back likewise. A network
that lets an old packet arrive behind a new one is not considered.

## Packets

The OACK counts as packet 0 here, so that the whole session is one run of stop and wait: packet
`p` is block `p` of the file. `Invariant` connects the two: the session is at packet `p`, the
client has answered packet `k`, and the channels form the window of the library.

What a client does with a packet is left open. It answers a packet, and perhaps not every copy of
it, and `InStep` is what the invariant needs: of the packet answered last and the next one it either
ignores what arrives, or moves on and answers. `TftpDelivery` has a client that assembles the file,
and `TftpLateAck` one without a memory.

## Main definitions

* `Network.step`, `Network.run` — the actions of the network, the session and the client
* `Network.Invariant` — the session against its client
* `Network.InStep` — what is asked of a client

## Main results

* `Network.invariant_start`, `Network.invariant_sessionStep` — what the session keeps
* `Network.invariant_run` — the invariant of every run with a client that answers in step
-/

namespace Bootpd

open Imperative StopAndWait

/-! ### What a client sees -/

/-- The first two bytes are the opcode of an OACK. -/
def isOack (bits : List UInt8) : Bool := bits.take 2 == Scalar.encode .network tftpOpcodeOack

theorem isOack_encode (op : UInt16) (rest : List UInt8) :
    isOack (Scalar.encode .network op ++ rest) =
      (Scalar.encode .network op == Scalar.encode .network tftpOpcodeOack) := by
  have hlen : (Scalar.encode .network op).length = 2 := by simp [Scalar.size]
  rw [isOack, List.take_left' hlen]

/-- What a client answers to a packet: it acknowledges an OACK by number 0 and a DATA packet by
its own number. -/
def answer (bits : List UInt8) : Option (List UInt8) :=
  match TftpPacket.ofBits bits with
  | .ok (.data payload) => some (TftpPacket.ackBits payload.blockId)
  | _ => if isOack bits then some (TftpPacket.ackBits 0) else none

theorem answer_dataBits (blockId : UInt16) (data : List UInt8) :
    answer (TftpPacket.dataBits blockId data) = some (TftpPacket.ackBits blockId) := by
  rw [answer, TftpPacket.ofBits_dataBits]

theorem answer_encode {op : UInt16} (hop : op ≠ tftpOpcodeData) (rest : List UInt8) :
    answer (Scalar.encode .network op ++ rest) =
      if Scalar.encode .network op == Scalar.encode .network tftpOpcodeOack then
        some (TftpPacket.ackBits 0) else none := by
  rw [answer]
  split
  · rename_i payload h
    exact absurd h (TftpPacket.not_data_of_opcode hop rest payload)
  · rw [isOack_encode]

/-! ### The composition -/

/-- A client: what it does with a datagram, and what it answers. -/
structure Client (σ : Type) where
  initial : σ
  receive : σ → List UInt8 → σ × Option (List UInt8)

/-- A session, its client, and the datagrams on their way, oldest first. -/
structure Network (σ : Type) where
  session : TftpSessionV4.State
  client : σ
  toClient : List (List UInt8)
  toSession : List (List UInt8)
  /-- The block the session is at, or was at when it ended. -/
  block : ℕ
  /-- The time-outs the session has had since it received a datagram. -/
  timeouts : ℕ

namespace Network

/-- What can happen next. The numbers are positions in a channel.

A datagram is late by staying in its channel while other things happen. Within a channel none
overtakes another: what is received is the oldest datagram that has not been lost. A repeated
datagram stands behind the first one. -/
inductive Action where
  | timeout
  | sessionReceives
  | clientReceives
  | loseToClient (i : ℕ)
  | loseToSession (i : ℕ)
  | repeatToClient (i : ℕ)
  | repeatToSession (i : ℕ)
deriving DecidableEq

/-- The datagram an event sends to `client`. -/
def sentTo (client : AddressV4) : Event → Option (List UInt8)
  | .sent d => if d.target = client then some d.bits else none
  | _ => none

/-- The block a session is at: block 1 before there is a reader. An exception loses the reader. -/
def blockOf (control : Control) (before : ℕ) : ℕ :=
  match control with
  | .oackSent .. => 1
  | .dataSent _ reader => reader.number.toNat
  | .finished reader => reader.number.toNat
  | .thrown _ => before

variable {σ : Type} (sys : System) (session : TftpSessionV4) (client : Client σ)

/-- The session gets an outcome; what it sends goes into the channel. -/
def sessionStep (net : Network σ) (o : RecvOutcome) : Network σ :=
  let s := TftpSessionV4.step sys session net.session o
  { net with
    session := s
    toClient := net.toClient ++
      (s.io.log.drop net.session.io.log.length).filterMap (sentTo session.remoteClient)
    block := blockOf s.control net.block }

/-- The network with the session at its first `recv`. -/
def start : Network σ :=
  let s := TftpSessionV4.start sys session
  ⟨s, client.initial, s.io.log.filterMap (sentTo session.remoteClient), [], blockOf s.control 1, 0⟩

def step (net : Network σ) : Action → Network σ
  | .timeout =>
    { net.sessionStep sys session .timedOut with
      timeouts := if net.session.control.Waiting then net.timeouts + 1 else net.timeouts }
  | .sessionReceives =>
    match net.toSession with
    | [] => net
    | bits :: rest =>
      { sessionStep sys session { net with toSession := rest }
          (.datagram session.remoteClient bits) with timeouts := 0 }
  | .clientReceives =>
    match net.toClient with
    | [] => net
    | bits :: rest =>
      let (c, answer) := client.receive net.client bits
      { net with client := c, toClient := rest, toSession := net.toSession ++ answer.toList }
  | .loseToClient i => { net with toClient := net.toClient.eraseIdx i }
  | .loseToSession i => { net with toSession := net.toSession.eraseIdx i }
  | .repeatToClient i => { net with toClient := duplicate net.toClient i }
  | .repeatToSession i => { net with toSession := duplicate net.toSession i }

def run (as : List Action) : Network σ :=
  as.foldl (step sys session client) (start sys session client)

/-! ### What is on its way -/

/-- The packets of a session: an OACK is packet 0, DATA comes from a reader at its block. An ERROR
can be anywhere. -/
inductive Packet (Good : TftpReader → Prop) (size b : ℕ) : ℕ → List UInt8 → Prop where
  | oack (oack : DictionaryType) : Packet Good size b 0
      (Scalar.encode .network tftpOpcodeOack ++ TftpPacket.optionsBits oack)
  | data {k : ℕ} {reader : TftpReader} (hat : TftpReader.At size b k reader)
      (hgood : Good reader) : Packet Good size b k
        (TftpPacket.dataBits (UInt16.ofNat reader.number.toNat) reader.buffer)
  | error (k : ℕ) (rest : List UInt8) : Packet Good size b k
      (Scalar.encode .network tftpOpcodeError ++ rest)

/-- The answer to packet `k`, with as much of `k` as fits. -/
def Answer (k : ℕ) (bits : List UInt8) : Prop := bits = TftpPacket.ackBits (UInt16.ofNat k)

theorem ofNat_succ_ne (k : ℕ) : UInt16.ofNat (k + 1) ≠ UInt16.ofNat k := by
  intro h
  have h' := congrArg UInt16.toNat h
  simp only [UInt16.toNat_ofNat'] at h'
  omega

/-- The number of an answer tells packet `n` from the one before. -/
theorem eq_of_ofNat_eq {j n : ℕ} (hj : j = n ∨ j + 1 = n)
    (h : UInt16.ofNat j = UInt16.ofNat n) : j = n := by
  rcases hj with rfl | rfl
  · rfl
  · exact absurd h.symm (ofNat_succ_ne j)

/-! ### The invariant -/

/-- The session is at packet `p` and the client has answered packet `k`. -/
structure Invariant (Good : TftpReader → Prop) (size : ℕ) (options : OptionsType)
    (net : Network σ) (p k : ℕ) : Prop where
  window : Window (Packet Good size options.blksize.toNat) Answer p k net.toClient net.toSession
  block : net.block = max p 1
  oackSent : ∀ n options' oack, net.session.control = .oackSent n options' oack →
    p = 0 ∧ options' = options
  dataSent : ∀ n reader, net.session.control = .dataSent n reader →
    TftpReader.At size options.blksize.toNat p reader ∧ Good reader
  finished : ∀ reader, net.session.control = .finished reader →
    TftpReader.At size options.blksize.toNat p reader ∧ reader.last = true ∧ p ≤ k

/-- What is known of the readers of a transfer: the first is at block 1, and they stay good. -/
structure Reads (sys : System) (session : TftpSessionV4) (Good : TftpReader → Prop) (size : ℕ)
    (options : OptionsType) : Prop where
  first : ∀ reader, TftpSessionV4.FirstReader sys session options reader →
    TftpReader.At size options.blksize.toNat 1 reader ∧ Good reader
  next : ∀ k reader, TftpReader.At size options.blksize.toNat k reader → reader.last = false →
    Good reader → Good reader.next

variable {sys session client} {Good : TftpReader → Prop} {size : ℕ} {options : OptionsType}
  {net : Network σ} {b p k n : ℕ} {reader : TftpReader}

/-! ### What the session sends -/

/-- Minor events send nothing to the client but ERROR packets. -/
theorem packet_of_minor {path : Path} {es : List Event} (h : Minors path es) (target : AddressV4) :
    ∀ m ∈ es.filterMap (sentTo target), Packet Good size b p m := by
  intro m hm
  obtain ⟨ev, hev, hsent⟩ := List.mem_filterMap.mp hm
  cases h ev hev with
  | sentError target' rest =>
    obtain ⟨-, rfl⟩ : target' = target ∧ _ = m := by simpa [sentTo] using hsent
    exact .error p rest
  | sendFailed d e => cases hsent
  | opened => cases hsent

theorem packet_oackDatagram (oack : DictionaryType) (target : AddressV4) :
    ∀ m ∈ [Event.sent (oackDatagram oack target)].filterMap (sentTo target),
      Packet Good size b 0 m := by
  have hsent : sentTo target (.sent (oackDatagram oack target)) =
      some (oackDatagram oack target).bits := if_pos rfl
  rw [List.filterMap_cons_some hsent, List.filterMap_nil, List.forall_mem_singleton]
  exact .oack oack

theorem packet_datagram (hat : TftpReader.At size b p reader) (hgood : Good reader)
    (target : AddressV4) :
    ∀ m ∈ [Event.sent (reader.datagram target)].filterMap (sentTo target),
      Packet Good size b p m := by
  have hsent : sentTo target (.sent (reader.datagram target)) =
      some (reader.datagram target).bits := if_pos rfl
  rw [List.filterMap_cons_some hsent, List.filterMap_nil, List.forall_mem_singleton]
  exact .data hat hgood

theorem block_sessionStep (net : Network σ) (o : RecvOutcome) :
    (net.sessionStep sys session o).block =
      blockOf (net.sessionStep sys session o).session.control net.block := rfl

theorem toClient_sessionStep (net : Network σ) {o : RecvOutcome} {es : List Event}
    (hlog : (TftpSessionV4.step sys session net.session o).io.log =
      net.session.io.log ++ .received o :: es) :
    (net.sessionStep sys session o).toClient =
      net.toClient ++ es.filterMap (sentTo session.remoteClient) := by
  rw [sessionStep, hlog, List.drop_left, List.filterMap_cons_none rfl]

/-! ### The invariant, by what the session does -/

section Controls

variable {before : ℕ}

theorem invariant_oackSent {oack : DictionaryType}
    (hcontrol : net.session.control = .oackSent n options oack)
    (hblock : net.block = blockOf net.session.control before)
    (hwindow : Window (Packet Good size options.blksize.toNat) Answer 0 k net.toClient
      net.toSession) : Invariant Good size options net 0 k := by
  rw [hcontrol] at hblock
  refine ⟨hwindow, hblock, ?_, ?_, ?_⟩ <;> rw [hcontrol]
  · rintro _ _ _ ⟨⟩
    exact ⟨rfl, rfl⟩
  · rintro _ _ ⟨⟩
  · rintro _ ⟨⟩

theorem invariant_dataSent (hcontrol : net.session.control = .dataSent n reader)
    (hblock : net.block = blockOf net.session.control before)
    (hat : TftpReader.At size options.blksize.toNat p reader) (hgood : Good reader)
    (hwindow : Window (Packet Good size options.blksize.toNat) Answer p k net.toClient
      net.toSession) : Invariant Good size options net p k := by
  have hpos := hat.number_pos
  rw [hcontrol] at hblock
  refine ⟨hwindow, ?_, ?_, ?_, ?_⟩
  · rw [hblock, blockOf, hat.number]
    omega
  all_goals rw [hcontrol]
  · rintro _ _ _ ⟨⟩
  · rintro _ _ ⟨⟩
    exact ⟨hat, hgood⟩
  · rintro _ ⟨⟩

theorem invariant_finished (before : ℕ) (hcontrol : net.session.control = .finished reader)
    (hblock : net.block = blockOf net.session.control before)
    (hat : TftpReader.At size options.blksize.toNat p reader) (hlast : reader.last = true)
    (hpk : p ≤ k)
    (hwindow : Window (Packet Good size options.blksize.toNat) Answer p k net.toClient
      net.toSession) : Invariant Good size options net p k := by
  have hpos := hat.number_pos
  rw [hcontrol] at hblock
  refine ⟨hwindow, ?_, ?_, ?_, ?_⟩
  · rw [hblock, blockOf, hat.number]
    omega
  all_goals rw [hcontrol]
  · rintro _ _ _ ⟨⟩
  · rintro _ _ ⟨⟩
  · rintro _ ⟨⟩
    exact ⟨hat, hlast, hpk⟩

theorem invariant_thrown {e : Exception} (hcontrol : net.session.control = .thrown e)
    (hblock : net.block = max p 1)
    (hwindow : Window (Packet Good size options.blksize.toNat) Answer p k net.toClient
      net.toSession) : Invariant Good size options net p k := by
  refine ⟨hwindow, hblock, ?_, ?_, ?_⟩ <;> rw [hcontrol]
  · rintro _ _ _ ⟨⟩
  · rintro _ _ ⟨⟩
  · rintro _ ⟨⟩

end Controls

/-! ### The session's steps -/

/-- What the session gets: a time-out, or the oldest datagram of its channel. -/
inductive Gets (session : TftpSessionV4) (back : List (List UInt8)) :
    RecvOutcome → List (List UInt8) → Prop where
  | timedOut : Gets session back .timedOut back
  | datagram {bits : List UInt8} {rest : List (List UInt8)} (h : back = bits :: rest) :
      Gets session back (.datagram session.remoteClient bits) rest

/-- What is received leaves its channel; and when it acknowledges the session's packet, the client
has answered that packet and the session can go on to the next. -/
theorem Invariant.gets (h : Invariant Good size options net p k) {o : RecvOutcome}
    {rest : List (List UInt8)} (ho : Gets session net.toSession o rest) :
    Window (Packet Good size options.blksize.toNat) Answer p k net.toClient rest ∧
      (Acknowledges o p → p = k ∧ Window (Packet Good size options.blksize.toNat) Answer (p + 1) k
        net.toClient rest) := by
  have hwindow := h.window
  cases ho with
  | timedOut =>
    refine ⟨hwindow, ?_⟩
    rintro ⟨_, _, ⟨⟩, -⟩
  | datagram hback =>
    rw [hback] at hwindow
    obtain ⟨j, rfl, hrest, hj⟩ := hwindow.accept
    refine ⟨hrest, ?_⟩
    rintro ⟨_, _, ⟨⟩, hbits⟩
    rw [TftpPacket.ofBits_ackBits] at hbits
    have hnumber : UInt16.ofNat j = UInt16.ofNat p := by simpa using hbits
    rcases hj with ⟨-, hk, hnext⟩ | hj
    · exact ⟨hk.symm, hk ▸ hnext⟩
    · obtain rfl := eq_of_ofNat_eq (.inr hj) hnumber
      omega

/-- **One outcome** keeps the invariant. -/
theorem invariant_sessionStep (hstop : sys.NoStop) (hreads : Reads sys session Good size options)
    (h : Invariant Good size options net p k) {o : RecvOutcome} {rest : List (List UInt8)}
    (ho : Gets session net.toSession o rest) :
    ∃ p', Invariant Good size options
      (sessionStep sys session { net with toSession := rest } o) p' k := by
  obtain ⟨hkeep, hnext⟩ := h.gets ho
  obtain ⟨⟨control, io⟩, c, toClient, toSession, block, timeouts⟩ := net
  dsimp only at hkeep hnext
  cases control with
  | oackSent n options' oack =>
    obtain ⟨rfl, rfl⟩ := h.oackSent _ _ _ rfl
    obtain ⟨r, es, hcontrol, hlog, hes⟩ :=
      TftpSessionV4.step_oackSent hstop session n options' oack io o
    have hclient := toClient_sessionStep ⟨⟨.oackSent n options' oack, io⟩, c, toClient, rest,
      block, timeouts⟩ hlog
    cases hes with
    | retransmits hminor hpos hle =>
      refine ⟨0, invariant_oackSent hcontrol (block_sessionStep _ o) ?_⟩
      rw [hclient, List.filterMap_append, ← List.append_assoc]
      exact (hkeep.transmits (packet_of_minor hminor _)).transmits (packet_oackDatagram oack _)
    | starts hack hreader hminor hpos hle =>
      obtain ⟨hat, hgood⟩ := hreads.first _ hreader
      refine ⟨1, invariant_dataSent hcontrol (block_sessionStep _ o) hat hgood ?_⟩
      rw [hclient, List.filterMap_append, ← List.append_assoc]
      exact ((hnext hack).2.transmits (packet_of_minor hminor _)).transmits
        (packet_datagram hat hgood _)
    | throws e hminor =>
      refine ⟨0, invariant_thrown hcontrol ?_ ?_⟩
      · rw [sessionStep, hcontrol]
        exact h.block
      · rw [hclient]
        exact hkeep.transmits (packet_of_minor hminor _)
  | dataSent n reader =>
    obtain ⟨hat, hgood⟩ := h.dataSent _ _ rfl
    obtain ⟨r, es, hcontrol, hlog, hes⟩ :=
      TftpSessionV4.step_dataSent hstop session n reader io o
    have hclient := toClient_sessionStep ⟨⟨.dataSent n reader, io⟩, c, toClient, rest, block,
      timeouts⟩ hlog
    rw [← hat.number] at hnext
    cases hes with
    | retransmits hminor hpos hle =>
      refine ⟨p, invariant_dataSent hcontrol (block_sessionStep _ o) hat hgood ?_⟩
      rw [hclient, List.filterMap_append, ← List.append_assoc]
      exact (hkeep.transmits (packet_of_minor hminor _)).transmits (packet_datagram hat hgood _)
    | advances hack hlast hminor hpos hle =>
      have hat' := hat.next hlast
      have hgood' := hreads.next _ _ hat hlast hgood
      refine ⟨p + 1, invariant_dataSent hcontrol (block_sessionStep _ o) hat' hgood' ?_⟩
      have hwindow := (hnext hack).2
      rw [hat.number] at hwindow
      rw [hclient, List.filterMap_append, ← List.append_assoc]
      exact (hwindow.transmits (packet_of_minor hminor _)).transmits
        (packet_datagram hat' hgood' _)
    | finishes hack hlast hminor =>
      have hpk := (hnext hack).1
      rw [hat.number] at hpk
      refine ⟨p, invariant_finished _ hcontrol (block_sessionStep _ o) hat hlast hpk.le ?_⟩
      rw [hclient]
      exact hkeep.transmits (packet_of_minor hminor _)
    | throws e hminor =>
      refine ⟨p, invariant_thrown hcontrol ?_ ?_⟩
      · rw [sessionStep, hcontrol]
        exact h.block
      · rw [hclient]
        exact hkeep.transmits (packet_of_minor hminor _)
  | finished reader =>
    obtain ⟨hat, hlast, hpk⟩ := h.finished _ rfl
    rw [sessionStep, TftpSessionV4.step_finished, List.drop_length, List.filterMap_nil,
      List.append_nil]
    exact ⟨p, invariant_finished block rfl rfl hat hlast hpk hkeep⟩
  | thrown e =>
    rw [sessionStep, TftpSessionV4.step_thrown, List.drop_length, List.filterMap_nil,
      List.append_nil]
    exact ⟨p, invariant_thrown rfl h.block hkeep⟩

/-- The session at its first `recv`. -/
theorem invariant_start {file : File} {readable : Bool} (hstop : sys.NoStop)
    (hfile : sys.Finds session.filePath (.regular file readable))
    (huse : session.optionsInUse file = .ok options)
    (hreads : Reads sys session Good file.content.length options) :
    ∃ p, Invariant Good file.content.length options (start sys session client) p 0 := by
  have hsizeOf := hfile.fileSize .fileSize
  have hempty : ∀ p ≤ 1, Window (Packet Good file.content.length options.blksize.toNat) Answer p 0
      [] [] := fun p hp => ⟨hp, .nil p.zero_le, .nil (by omega)⟩
  obtain ⟨r, hcontrol, hes⟩ := TftpSessionV4.start_cases hstop session
  have hblock : (start sys session client).block =
      blockOf (start sys session client).session.control 1 := rfl
  have hclient : (start sys session client).toClient =
      (TftpSessionV4.start sys session).io.log.filterMap (sentTo session.remoteClient) := rfl
  generalize (TftpSessionV4.start sys session).io.log = log at hes hclient
  cases hes with
  | @oackSent minor n _ _ oack hsize' hoptions hparse hminor hpos hle =>
    obtain rfl := Except.ok.inj (hsize'.symm.trans hsizeOf)
    obtain rfl : _ = options := by simpa [TftpSessionV4.optionsInUse, hparse] using huse
    refine ⟨0, invariant_oackSent hcontrol hblock ?_⟩
    rw [hclient, List.filterMap_append]
    exact ((hempty 0 zero_le_one).transmits (packet_of_minor hminor _)).transmits
      (packet_oackDatagram oack _)
  | dataSent hsize' hoptions hreader hminor hpos hle =>
    obtain rfl := Except.ok.inj (hsize'.symm.trans hsizeOf)
    obtain rfl : ⟨512, 1, .ofNat file.content.length⟩ = options := by
      simpa [TftpSessionV4.optionsInUse, TftpSessionV4.parseOptions_empty hoptions] using huse
    obtain ⟨hat, hgood⟩ := hreads.first _ hreader
    refine ⟨1, invariant_dataSent hcontrol hblock hat hgood ?_⟩
    rw [hclient, List.filterMap_append]
    exact ((hempty 1 le_rfl).transmits (packet_of_minor hminor _)).transmits
      (packet_datagram hat hgood _)
  | throws e hminor =>
    refine ⟨0, invariant_thrown hcontrol ?_ ?_⟩
    · rw [hblock]
      exact congrArg (blockOf · 1) hcontrol
    · rw [hclient]
      exact (hempty 0 zero_le_one).transmits (packet_of_minor hminor _)

/-! ### The OACK -/

/-- The OACK of a session that waits for its acknowledgement answers the options of its request. -/
def Announces (session : TftpSessionV4) (file : File) (control : Control) : Prop :=
  ∀ n options oack, control = .oackSent n options oack →
    TftpSessionV4.parseOptions ⟨512, 1, .ofNat file.content.length⟩ session.request.options =
      .ok (options, oack)

/-- **One outcome** leaves the OACK as it is. -/
theorem Announces.step {file : File} {s : TftpSessionV4.State} (hstop : sys.NoStop)
    (h : Announces session file s.control) (o : RecvOutcome) :
    Announces session file (TftpSessionV4.step sys session s o).control := by
  obtain ⟨control, io⟩ := s
  cases control with
  | oackSent n options oack =>
    obtain ⟨r, es, hcontrol, -, hes⟩ :=
      TftpSessionV4.step_oackSent hstop session n options oack io o
    rw [hcontrol]
    cases hes with
    | retransmits =>
      rintro _ _ _ ⟨⟩
      exact h n options oack rfl
    | starts => rintro _ _ _ ⟨⟩
    | throws => rintro _ _ _ ⟨⟩
  | dataSent n reader =>
    obtain ⟨r, es, hcontrol, -, hes⟩ := TftpSessionV4.step_dataSent hstop session n reader io o
    rw [hcontrol]
    cases hes <;> rintro _ _ _ ⟨⟩
  | finished reader =>
    rw [TftpSessionV4.step_finished]
    rintro _ _ _ ⟨⟩
  | thrown e =>
    rw [TftpSessionV4.step_thrown]
    rintro _ _ _ ⟨⟩

theorem announces_run {file : File} {readable : Bool} (hstop : sys.NoStop)
    (hfile : sys.Finds session.filePath (.regular file readable)) (as : List Action) :
    Announces session file (run sys session client as).session.control := by
  induction as using List.reverseRecOn with
  | nil =>
    obtain ⟨r, hcontrol, hes⟩ := TftpSessionV4.start_cases hstop session
    show Announces session file (TftpSessionV4.start sys session).control
    rw [hcontrol]
    generalize (TftpSessionV4.start sys session).io.log = log at hes
    cases hes with
    | oackSent hsize _ hparse =>
      obtain rfl := Except.ok.inj (hsize.symm.trans (hfile.fileSize .fileSize))
      rintro _ _ _ ⟨⟩
      exact hparse
    | dataSent => rintro _ _ _ ⟨⟩
    | throws => rintro _ _ _ ⟨⟩
  | append_singleton as a ih =>
    rw [run, List.foldl_append]
    show Announces session file
      (step sys session client (run sys session client as) a).session.control
    generalize run sys session client as = net at ih
    cases a with
    | timeout => exact ih.step hstop .timedOut
    | sessionReceives =>
      rw [step]
      split
      · exact ih
      · exact Announces.step hstop ih _
    | clientReceives =>
      rw [step]
      split <;> exact ih
    | loseToClient | loseToSession | repeatToClient | repeatToSession => exact ih

/-! ### Runs -/

/-- The client is in step: of the packet it has answered last and the next it either ignores one,
or answers it. `K c k` says that packet `k` was the last. -/
structure InStep (client : Client σ) (Good : TftpReader → Prop) (size b : ℕ)
    (K : σ → ℕ → Prop) : Prop where
  initial : K client.initial 0
  receive : ∀ c k i bits, K c k → Packet Good size b i bits → i = k ∨ i = k + 1 →
    (K (client.receive c bits).1 k ∧ (client.receive c bits).2 = none) ∨
    (K (client.receive c bits).1 i ∧ ∃ a, Answer i a ∧ (client.receive c bits).2 = some a)

/-- What is not the session does not change it. -/
theorem Invariant.of_window (h : Invariant Good size options net p k) {net' : Network σ} {k' : ℕ}
    (hsession : net'.session = net.session) (hblock : net'.block = net.block) (hk : k ≤ k')
    (hwindow : Window (Packet Good size options.blksize.toNat) Answer p k' net'.toClient
      net'.toSession) : Invariant Good size options net' p k' := by
  refine ⟨hwindow, hblock.trans h.block, ?_, ?_, ?_⟩ <;> rw [hsession]
  · exact h.oackSent
  · exact h.dataSent
  · exact fun reader hreader => ⟨(h.finished reader hreader).1, (h.finished reader hreader).2.1,
      (h.finished reader hreader).2.2.trans hk⟩

variable {K : σ → ℕ → Prop}

/-- **One action** keeps the invariant. -/
theorem invariant_step (hstop : sys.NoStop) (hreads : Reads sys session Good size options)
    (hclient : InStep client Good size options.blksize.toNat K)
    (h : Invariant Good size options net p k) (hk : K net.client k) (a : Action) :
    ∃ p' k', Invariant Good size options (step sys session client net a) p' k' ∧
      K (step sys session client net a).client k' := by
  cases a with
  | timeout =>
    obtain ⟨p', h'⟩ := invariant_sessionStep hstop hreads h .timedOut
    exact ⟨p', k, h'.of_window rfl rfl le_rfl h'.window, hk⟩
  | sessionReceives =>
    rw [step]
    split
    · exact ⟨p, k, h, hk⟩
    · rename_i bits rest hback
      obtain ⟨p', h'⟩ := invariant_sessionStep hstop hreads h (.datagram hback)
      exact ⟨p', k, h'.of_window rfl rfl le_rfl h'.window, hk⟩
  | clientReceives =>
    rw [step]
    split
    · exact ⟨p, k, h, hk⟩
    · rename_i bits rest hforward
      have hwindow := h.window
      rw [hforward] at hwindow
      obtain ⟨i, hpacket, hi, hkeep, hanswer⟩ := hwindow.receive
      rcases hclient.receive net.client k i bits hk hpacket hi with ⟨hk', hnone⟩ |
        ⟨hk', answer, ha, hsome⟩
      · refine ⟨p, k, h.of_window rfl rfl le_rfl ?_, hk'⟩
        simpa [hnone] using hkeep
      · refine ⟨p, i, h.of_window rfl rfl (by omega) ?_, hk'⟩
        simpa [hsome] using hanswer answer ha
  | loseToClient i =>
    exact ⟨p, k, h.of_window rfl rfl le_rfl (h.window.fault_forward (.lose _ i)), hk⟩
  | loseToSession i =>
    exact ⟨p, k, h.of_window rfl rfl le_rfl (h.window.fault_back (.lose _ i)), hk⟩
  | repeatToClient i =>
    exact ⟨p, k, h.of_window rfl rfl le_rfl (h.window.fault_forward (.duplicate _ i)), hk⟩
  | repeatToSession i =>
    exact ⟨p, k, h.of_window rfl rfl le_rfl (h.window.fault_back (.duplicate _ i)), hk⟩

/-- **The invariant of a session and its client**, over every run. -/
theorem invariant_run {file : File} {readable : Bool} (hstop : sys.NoStop)
    (hfile : sys.Finds session.filePath (.regular file readable))
    (huse : session.optionsInUse file = .ok options)
    (hreads : Reads sys session Good file.content.length options)
    (hclient : InStep client Good file.content.length options.blksize.toNat K)
    (as : List Action) :
    ∃ p k, Invariant Good file.content.length options (run sys session client as) p k ∧
      K (run sys session client as).client k := by
  induction as using List.reverseRecOn with
  | nil =>
    obtain ⟨p, h⟩ := invariant_start hstop hfile huse hreads
    exact ⟨p, 0, h, hclient.initial⟩
  | append_singleton as a ih =>
    obtain ⟨p, k, h, hk⟩ := ih
    rw [run, List.foldl_append]
    exact invariant_step hstop hreads hclient h hk a

end Network

end Bootpd
