import Bootpd.TftpHealthySteps
import Bootpd.TftpNetwork

/-!
# Transfers to a client that acknowledges everything at once

The data loop has no bound of its own: it ends at a block shorter than the block size. With blocks
of at least one byte there is one, and the number of DATA packets is fixed by the size of the
file. A block size of 0 is accepted too, and then no block is ever short.

## The client

`cooperate` looks at what the session has sent last and acknowledges it, without loss or delay. So
a run is determined by its length, and termination is a property of the session alone: after some
number of outcomes it no longer waits.

A session may also end without a transfer. A mode that is not supported, an option whose text is no
number, a block for which there is no memory, a file that cannot be read: `Rejects` is what they
have in common, that the session ends by an exception. It counts for every exception, also for one
behind the acknowledgement of the OACK.

## Scope

The sockets work for datagrams up to the longest that the session sends, the file is there and does
not change, and nobody requests a stop. What happens to a transfer on a network is in
`TftpDelivery`, and what happens when calls fail in `TftpThreads`.

## Main definitions

* `TftpSessionV4.cooperate` — the run with this client
* `TftpSessionV4.Terminates` — the session ends, and with how many DATA packets
* `TftpSessionV4.AsksForZero` — the options ask for blocks of no bytes

## Main results

* `TftpSessionV4.completes_of_at` — the rest of a transfer, by induction on the blocks left
* `TftpSessionV4.endless_cooperate` — blocks of 0 bytes are sent for ever
* `TftpSessionV4.terminates_iff` — the options with which a transfer terminates
-/

namespace Bootpd

open Imperative SocketUdp

/-! ### The client -/

/-- The DATA packet an event sends. -/
def Event.dataOf : Event → Option TypeData
  | .sent d =>
    match TftpPacket.ofBits d.bits with
    | .ok (.data payload) => some payload
    | _ => none
  | _ => none

/-- The DATA packets of a log, retransmissions included. -/
def dataPackets (log : List Event) : List TypeData := log.filterMap Event.dataOf

@[simp] theorem dataPackets_append (log log' : List Event) :
    dataPackets (log ++ log') = dataPackets log ++ dataPackets log' := List.filterMap_append

@[simp] theorem dataPackets_nil : dataPackets [] = [] := rfl

variable (es : List Event)

@[simp] theorem dataPackets_received (o : RecvOutcome) :
    dataPackets (.received o :: es) = dataPackets es := rfl

@[simp] theorem dataPackets_opened (p : Path) :
    dataPackets (.opened p :: es) = dataPackets es := rfl

@[simp] theorem dataPackets_datagram (reader : TftpReader) (client : AddressV4) :
    dataPackets (.sent (reader.datagram client) :: es) =
      ⟨UInt16.ofNat reader.number.toNat, reader.buffer⟩ :: dataPackets es := by
  simp [dataPackets, Event.dataOf, TftpReader.datagram, TftpPacket.ofBits_dataBits]

/-- Packets with another opcode are no DATA. -/
theorem dataPackets_of_opcode {op : UInt16} (hop : op ≠ tftpOpcodeData) (target : AddressV4)
    (rest : List UInt8) :
    dataPackets (.sent ⟨target, Scalar.encode .network op ++ rest⟩ :: es) = dataPackets es := by
  have h : Event.dataOf (.sent ⟨target, Scalar.encode .network op ++ rest⟩) = none := by
    rw [Event.dataOf]
    dsimp only
    split
    · rename_i payload h
      exact absurd h (TftpPacket.not_data_of_opcode hop _ payload)
    · rfl
  exact List.filterMap_cons_none h

@[simp] theorem dataPackets_oackDatagram (oack : DictionaryType) (client : AddressV4) :
    dataPackets (.sent (oackDatagram oack client) :: es) = dataPackets es :=
  dataPackets_of_opcode es (by decide) _ _

theorem dataPackets_minor {path : Path} {ev : Event} (h : Minor path ev) :
    dataPackets (ev :: es) = dataPackets es := by
  cases h with
  | sendFailed d e => rfl
  | sentError target rest => exact dataPackets_of_opcode es (by decide) _ _
  | opened => rfl

namespace TftpSessionV4

/-- What the client answers to a datagram, at once. -/
def reply (session : TftpSessionV4) (d : Datagram) : Option RecvOutcome :=
  (answer d.bits).map (.datagram session.remoteClient)

/-- One round: the client answers the last datagram, at once. -/
def cooperate (sys : System) (session : TftpSessionV4) (s : State) : State :=
  match s.io.log.getLast? with
  | some (.sent d) => ((session.reply d).map (step sys session s)).getD s
  | _ => s

/-- The session ends by an exception before it sends any DATA: in front of the OACK, or behind it,
when there is no memory for a block. -/
def Rejects (sys : System) (session : TftpSessionV4) : Prop :=
  ∃ m e, ((cooperate sys session)^[m] (start sys session)).control = .thrown e ∧
    dataPackets ((cooperate sys session)^[m] (start sys session)).io.log = []

/-- The session finishes after as many DATA packets as `n` bytes have blocks of `b` bytes, the
last of them short. -/
def Completes (sys : System) (session : TftpSessionV4) (n b : ℕ) : Prop :=
  ∃ m reader, ((cooperate sys session)^[m] (start sys session)).control = .finished reader ∧
    (dataPackets ((cooperate sys session)^[m] (start sys session)).io.log).length = n / b + 1

/-- What a session for `file` does in the end, when its client acknowledges everything. -/
def Terminates (sys : System) (session : TftpSessionV4) (file : File) : Prop :=
  Rejects sys session ∨ ∃ options, session.optionsInUse file = .ok options ∧
    Completes sys session file.content.length options.blksize.toNat

/-- The options ask for blocks of 0 bytes, and nothing else in them is rejected. -/
def AsksForZero (dict : DictionaryType) : Prop :=
  (∃ text idx, dict.lookup (lit "blksize") = some text ∧ stoull 10 text = .ok (0, idx)) ∧
    ∀ text, dict.lookup (lit "timeout") = some text → ∃ r, stoull 10 text = .ok r

variable {sys : System} {session : TftpSessionV4} {file : File} {readable : Bool}
  {options : OptionsType} {longest : ℕ}

/-! ### One round -/

theorem cooperate_sent {s : State} {d : Datagram} {bits : List UInt8}
    (hlast : s.io.log.getLast? = some (.sent d)) (hanswer : answer d.bits = some bits) :
    cooperate sys session s = step sys session s (.datagram session.remoteClient bits) := by
  rw [cooperate, hlast]
  dsimp only
  rw [reply, hanswer]
  rfl

theorem cooperate_data {s : State} {reader : TftpReader}
    (hlast : s.io.log.getLast? = some (.sent (reader.datagram session.remoteClient))) :
    cooperate sys session s = step sys session s (session.ackOf reader.number) :=
  cooperate_sent hlast (answer_dataBits _ _)

theorem cooperate_oack {s : State} {oack : DictionaryType}
    (hlast : s.io.log.getLast? = some (.sent (oackDatagram oack session.remoteClient))) :
    cooperate sys session s = step sys session s (session.ackOf 0) :=
  cooperate_sent hlast ((answer_encode (by decide) _).trans (if_pos (by decide)))

/-! ### Blocks of at least one byte -/

/-- **The rest of a transfer**, from block `k` on. The induction is on the blocks that are left. -/
theorem completes_of_at (hsys : sys.Healthy longest) (hstop : sys.NoStop)
    (session : TftpSessionV4) {n b k m : ℕ} (hlength : min b n + 4 ≤ longest) {s : State}
    {reader : TftpReader} (hat : TftpReader.At n b k reader)
    (hs : s.control = .dataSent m reader)
    (hlast : s.io.log.getLast? = some (.sent (reader.datagram session.remoteClient)))
    (hcount : (dataPackets s.io.log).length = k) :
    ∃ j reader', ((cooperate sys session)^[j] s).control = .finished reader' ∧
      (dataPackets ((cooperate sys session)^[j] s).io.log).length = n / b + 1 := by
  obtain ⟨control, io⟩ := s
  obtain rfl : control = .dataSent m reader := hs
  dsimp only at hlast hcount
  induction hj : n / b + 1 - k generalizing k m reader io with
  | zero =>
    -- the last block
    have hk : k = n / b + 1 := le_antisymm hat.number_le (by omega)
    refine ⟨1, reader, ?_⟩
    rw [Function.iterate_one, cooperate_data hlast,
      step_ack_last io (hat.last_iff.mpr hk)]
    exact ⟨rfl, by simpa [hk] using hcount⟩
  | succ j ih =>
    have hreader : reader.last = false := by
      rw [← Bool.not_eq_true, hat.last_iff]
      omega
    have hround : cooperate sys session ⟨.dataSent m reader, io⟩ = _ := cooperate_data hlast
    rw [step_ack_next hsys hstop io ((length_datagram_le (hat.next hreader) _).trans hlength)
      hreader] at hround
    obtain ⟨j', reader', hend⟩ := ih (m := maxRetries - 1) (hat.next hreader)
      ((io.push (.received (session.ackOf reader.number))).push
        (.sent (reader.next.datagram session.remoteClient)))
      (by simp) (by simp [hcount]) (by omega)
    refine ⟨j' + 1, reader', ?_⟩
    rwa [Function.iterate_succ_apply, hround]

/-- A transfer that starts ends, or is rejected because there is no memory for the block. -/
theorem terminates_of_startTransfer (hsys : sys.Healthy (session.longest file))
    (hstop : sys.NoStop)
    (hfile : sys.Finds session.filePath (.regular file readable))
    (huse : session.optionsInUse file = .ok options) (hb : 0 < options.blksize.toNat) (m : ℕ)
    (io : IoState) (hnone : dataPackets io.log = [])
    (hm : (cooperate sys session)^[m] (start sys session) =
      settle (exec (startTransfer sys session options) io)) : Terminates sys session file := by
  obtain ⟨io', hlog, hexec⟩ :=
    exec_startTransfer hsys hstop hfile (tsize_of_optionsInUse huse) (block_le_longest huse) io
  have hnone' : dataPackets io'.log = [] := by simp [hlog, hnone]
  rw [hexec] at hm
  cases halloc : sys.canAllocate options.blksize
  · rw [halloc] at hm
    exact .inl ⟨m, .badAlloc, by rw [hm]; rfl, by rw [hm]; exact hnone'⟩
  · rw [halloc] at hm
    obtain ⟨j, reader, hfinished, hcount⟩ := completes_of_at hsys hstop session
      (block_le_longest huse)
      (s := (cooperate sys session)^[m] (start sys session)) (TftpReader.at_initial file hb _)
      (by rw [hm]; rfl) (by rw [hm]; simp [settle]; rfl) (by rw [hm]; simp [settle, hnone'])
    refine .inr ⟨options, huse, j + m, reader, ?_⟩
    rw [Function.iterate_add_apply]
    exact ⟨hfinished, hcount⟩

/-! ### Blocks of 0 bytes -/

/-- A wait with a block size of 0, for the acknowledgement of the packet sent last. -/
def Endless (session : TftpSessionV4) (file : File) (s : State) : Prop :=
  (∃ n options oack, s.control = .oackSent n options oack ∧ options.blksize = 0 ∧
      options.tsize = .ofNat file.content.length ∧
      s.io.log.getLast? = some (.sent (oackDatagram oack session.remoteClient))) ∨
    ∃ n reader, s.control = .dataSent n reader ∧ reader.blksiz = 0 ∧
      s.io.log.getLast? = some (.sent (reader.datagram session.remoteClient))

/-- A transfer in blocks of 0 bytes starts. -/
theorem endless_startTransfer (hsys : sys.Healthy longest) (hlongest : 516 ≤ longest)
    (hstop : sys.NoStop)
    (hfile : sys.Finds session.filePath (.regular file readable))
    (hzero : options.blksize = 0) (hsize : options.tsize = .ofNat file.content.length)
    (io : IoState) :
    Endless session file (settle (exec (startTransfer sys session options) io)) := by
  have hlength : min options.blksize.toNat file.content.length + 4 ≤ longest := by
    rw [hzero]
    exact le_trans (by simp) hlongest
  obtain ⟨io', -, hexec⟩ := exec_startTransfer hsys hstop hfile hsize hlength io
  have halloc : sys.canAllocate options.blksize = true := hzero ▸ sys.canAllocate_zero
  rw [hexec, halloc, if_pos rfl]
  exact .inr ⟨maxRetries, _, rfl, by simp [firstReader, TftpReader.initial, hzero],
    by simp [settle]⟩

/-- **Blocks of 0 bytes** are never short, so every acknowledgement leads to the next wait. -/
theorem endless_cooperate (hsys : sys.Healthy longest) (hlongest : 516 ≤ longest)
    (hstop : sys.NoStop)
    (hfile : sys.Finds session.filePath (.regular file readable)) {s : State}
    (h : Endless session file s) : Endless session file (cooperate sys session s) := by
  obtain ⟨control, io⟩ := s
  rcases h with ⟨n, options, oack, hcontrol, hzero, hsize, hlast⟩ |
    ⟨n, reader, hcontrol, hzero, hlast⟩
  · obtain rfl : control = .oackSent n options oack := hcontrol
    rw [cooperate_oack hlast, step_ack_oackSent]
    exact endless_startTransfer hsys hlongest hstop hfile hzero hsize _
  · obtain rfl : control = .dataSent n reader := hcontrol
    have hreader : reader.last = false := by simp [TftpReader.last, hzero]
    have hempty : reader.next.buffer.length = 0 := by
      have hle := toNat_nextLength_le reader
      rw [hzero] at hle
      rw [TftpReader.length_buffer_next]
      exact Nat.le_zero.mp hle
    have hlength : (reader.next.datagram session.remoteClient).bits.length ≤ longest := by
      rw [length_datagram, hempty]
      omega
    rw [cooperate_data hlast, step_ack_next hsys hstop io hlength hreader]
    exact .inr ⟨maxRetries - 1, reader.next, rfl, by simp [hzero], by simp⟩

theorem not_ended_of_endless {s : State} (h : Endless session file s) :
    (∀ reader, s.control ≠ .finished reader) ∧ ∀ e, s.control ≠ .thrown e := by
  rcases h with ⟨n, options, oack, hcontrol, -⟩ | ⟨n, reader, hcontrol, -⟩ <;>
    simp [hcontrol]

/-- A session that gets there is neither rejected nor completed. -/
theorem not_terminates_of_endless (hsys : sys.Healthy longest) (hlongest : 516 ≤ longest)
    (hstop : sys.NoStop)
    (hfile : sys.Finds session.filePath (.regular file readable))
    (h : Endless session file (start sys session)) : ¬Terminates sys session file := by
  have hrun : ∀ m, Endless session file ((cooperate sys session)^[m] (start sys session)) := by
    intro m
    induction m with
    | zero => exact h
    | succ m ih =>
      rw [Function.iterate_succ_apply']
      exact endless_cooperate hsys hlongest hstop hfile ih
  rintro (⟨m, e, hthrown, -⟩ | ⟨options, -, m, reader, hfinished, -⟩)
  · exact (not_ended_of_endless (hrun m)).2 e hthrown
  · exact (not_ended_of_endless (hrun m)).1 reader hfinished

/-! ### Which options ask for blocks of 0 bytes -/

/-- **The options in use have a block size of 0** exactly when the request asks for it. -/
theorem asksForZero_iff {dict : DictionaryType} {blksize : UInt64} (timeout tsize : UInt64)
    (hdefault : blksize ≠ 0) :
    AsksForZero dict ↔ ∃ options oack,
      parseOptions ⟨blksize, timeout, tsize⟩ dict = .ok (options, oack) ∧ options.blksize = 0 := by
  constructor
  · rintro ⟨⟨text, idx, htext, hzero⟩, htimeout⟩
    have hnumbers : AcceptsNumbers dict := by
      rw [AcceptsNumbers, List.forall_mem_cons, List.forall_mem_singleton]
      refine ⟨fun text' htext' => ?_, htimeout⟩
      obtain rfl := Option.some.inj (htext.symm.trans htext')
      exact ⟨_, hzero⟩
    obtain ⟨⟨options, oack⟩, hparse⟩ :=
      (exists_parseOptions_iff ⟨blksize, timeout, tsize⟩ dict).mpr hnumbers
    obtain ⟨idx', hnumber⟩ := blksize_of_parseOptions hparse htext
    exact ⟨options, oack, hparse, (Prod.mk.inj (Except.ok.inj (hnumber.symm.trans hzero))).1⟩
  · rintro ⟨options, oack, hparse, hzero⟩
    obtain ⟨blksize', oack₁, timeout', oack₂, hblksize, htimeout, rfl⟩ :=
      cases_of_parseOptions hparse
    obtain rfl : blksize' = 0 := hzero
    refine ⟨?_, fun text htext => ?_⟩
    · rcases parseOption_cases hblksize with ⟨-, h⟩ | h
      · exact absurd h.symm hdefault
      · exact h
    · exact (exists_parseOptions_iff _ dict).mp ⟨_, hparse⟩ _ (by simp) text htext

/-! ### Every transfer -/

/-- A session whose options are accepted, with blocks of at least one byte. -/
theorem terminates_of_optionsInUse (hsys : sys.Healthy (session.longest file))
    (hstop : sys.NoStop)
    (hmode : session.request.xfermode = lit "octet" ∨ session.request.xfermode = lit "netascii")
    (hfile : sys.Finds session.filePath (.regular file readable))
    (huse : session.optionsInUse file = .ok options) (hb : 0 < options.blksize.toNat) :
    Terminates sys session file := by
  obtain ⟨io, hlog, hstart | ⟨oack, hstart⟩⟩ :=
    start_of_optionsInUse hsys hstop hmode hfile huse
  · exact terminates_of_startTransfer hsys hstop hfile huse hb 0 _ (by simp [hlog]) hstart
  · -- the OACK goes first, and is acknowledged
    have hlast : (io.push (.sent (oackDatagram oack session.remoteClient))).log.getLast? =
        some (.sent (oackDatagram oack session.remoteClient)) := by simp
    refine terminates_of_startTransfer hsys hstop hfile huse hb 1
      ((io.push (.sent (oackDatagram oack session.remoteClient))).push
        (.received (session.ackOf 0))) (by simp [hlog]) ?_
    rw [Function.iterate_one, hstart, cooperate_oack hlast, step_ack_oackSent]

/-- A session with another transfer mode ends at once. -/
theorem rejects_of_mode (hsys : sys.Healthy longest) (hlongest : 516 ≤ longest)
    (hmode : ¬(session.request.xfermode = lit "octet" ∨
      session.request.xfermode = lit "netascii")) : Rejects sys session := by
  have hrequest : ∀ s, ∃ e ev, Minor session.filePath ev ∧
      exec (validateRequest sys session) s = (.error e, s.push ev) := by
    intro s
    rw [validateRequest, if_pos (not_or.mp hmode)]
    obtain ⟨ev, hminor, hexec⟩ := exec_reject hsys hlongest session Unit _ s
    exact ⟨_, ev, hminor, hexec⟩
  obtain ⟨e, ev, hminor, hexec⟩ :=
    hrequest ⟨[], (seconds 1).toUInt32, (seconds 1).toUInt32⟩
  have hstart : start sys session =
      ⟨.thrown e, ⟨[ev], (seconds 1).toUInt32, (seconds 1).toUInt32⟩⟩ := by
    rw [start, ioThread, exec_bind_ok (exec_make_of_socket hsys.socket _),
      exec_bind_ok (exec_timeout hsys _ _ _),
      exec_bind_error hexec]
    rfl
  refine ⟨0, e, by rw [Function.iterate_zero_apply, hstart], ?_⟩
  rw [Function.iterate_zero_apply, hstart]
  exact dataPackets_minor [] hminor

/-- A session that does not accept the options ends at once. -/
theorem rejects_of_optionsInUse (hsys : sys.Healthy longest)
    (hmode : session.request.xfermode = lit "octet" ∨ session.request.xfermode = lit "netascii")
    (hfile : sys.Finds session.filePath (.regular file readable)) {e : Exception}
    (huse : session.optionsInUse file = .error e) : Rejects sys session := by
  obtain ⟨io, hlog, hexec⟩ := exec_ioThread hsys hmode hfile ⟨[], 0, 0⟩
  have hparse : parseOptions ⟨512, 1, .ofNat file.content.length⟩ session.request.options =
      .error e := by
    rw [optionsInUse] at huse
    cases h : parseOptions ⟨512, 1, .ofNat file.content.length⟩ session.request.options with
    | error e' => rw [h] at huse; cases huse; rfl
    | ok r => rw [h] at huse; cases huse
  have hempty : session.request.options.entries.isEmpty = false := by
    rw [Bool.eq_false_iff]
    intro hempty
    rw [parseOptions_empty hempty] at hparse
    cases hparse
  rw [hempty, if_neg (by decide), hparse, exec_bind_error (exec_liftExcept ..)] at hexec
  have hstart : start sys session = ⟨.thrown e, io⟩ := by rw [start, hexec]; rfl
  exact ⟨0, e, by rw [Function.iterate_zero_apply, hstart],
    by rw [Function.iterate_zero_apply, hstart]; simp [hlog]⟩

/-- A session that is asked for blocks of 0 bytes accepts. -/
theorem endless_start (hsys : sys.Healthy (session.longest file)) (hstop : sys.NoStop)
    (hmode : session.request.xfermode = lit "octet" ∨ session.request.xfermode = lit "netascii")
    (hfile : sys.Finds session.filePath (.regular file readable))
    (hzero : AsksForZero session.request.options) : Endless session file (start sys session) := by
  have hdefault : (512 : UInt64) ≠ 0 := by decide
  obtain ⟨options, oack, hparse, hblksize⟩ :=
    (asksForZero_iff 1 (.ofNat file.content.length) hdefault).mp hzero
  have huse : session.optionsInUse file = .ok options := by rw [optionsInUse, hparse]; rfl
  have hsize := tsize_of_optionsInUse huse
  obtain ⟨io, -, hstart | ⟨oack', hstart⟩⟩ := start_of_optionsInUse hsys hstop hmode hfile huse
  · rw [hstart]
    exact endless_startTransfer hsys (le_longest session file) hstop hfile hblksize hsize io
  · rw [hstart]
    exact .inl ⟨maxRetries, options, oack', rfl, hblksize, hsize, by simp⟩

/-- **Which transfers terminate.** A client that acknowledges everything at once gets the
exception or the `|F| / blksize + 1` DATA packets of every session but one that it asked for
blocks of 0 bytes: that one goes on for ever. -/
theorem terminates_iff (hsys : sys.Healthy (session.longest file)) (hstop : sys.NoStop)
    (hfile : sys.Finds session.filePath (.regular file readable)) :
    Terminates sys session file ↔
      ¬((session.request.xfermode = lit "octet" ∨ session.request.xfermode = lit "netascii") ∧
        AsksForZero session.request.options) := by
  constructor
  · rintro h ⟨hmode, hzero⟩
    exact not_terminates_of_endless hsys (le_longest session file) hstop hfile
      (endless_start hsys hstop hmode hfile hzero) h
  · intro h
    by_cases hmode : session.request.xfermode = lit "octet" ∨
        session.request.xfermode = lit "netascii"
    case neg => exact .inl (rejects_of_mode hsys (le_longest session file) hmode)
    cases huse : session.optionsInUse file with
    | error e => exact .inl (rejects_of_optionsInUse hsys hmode hfile huse)
    | ok options =>
      refine terminates_of_optionsInUse hsys hstop hmode hfile huse
        (Nat.pos_of_ne_zero fun hb => h ⟨hmode, ?_⟩)
      have hdefault : (512 : UInt64) ≠ 0 := by decide
      obtain ⟨⟨options', oack⟩, hparse, rfl⟩ := map_eq_ok huse
      exact (asksForZero_iff _ _ hdefault).mpr ⟨options', oack, hparse, UInt64.toNat_inj.mp hb⟩

/-- Three bytes in blocks of two. -/
theorem terminates_iff_three_bytes :
    let file : File := ⟨[65, 66, 67], by decide⟩
    let dict : DictionaryType := UnorderedMap.emplace ∅ (lit "blksize") (lit "2")
    let session : TftpSessionV4 :=
      ⟨Path.ofString (lit "./"), ⟨1, 1024⟩, ⟨lit "a", lit "octet", dict⟩⟩
    Terminates (.serving file) session file ↔
      ¬((lit "octet" = lit "octet" ∨ lit "octet" = lit "netascii") ∧ AsksForZero dict) :=
  terminates_iff (System.healthy_serving _) (System.noStop_serving _) (System.finds_serving _ _)

/-- **A request for blocks of 0 bytes** is accepted, and its transfer never ends. -/
theorem not_terminates_blksize_zero :
    let file : File := ⟨[65, 66, 67], by decide⟩
    let session : TftpSessionV4 := ⟨Path.ofString (lit "./"), ⟨1, 1024⟩,
      ⟨lit "a", lit "octet", UnorderedMap.emplace ∅ (lit "blksize") (lit "0")⟩⟩
    ¬Terminates (.serving file) session file := by
  intro file session
  have hzero : AsksForZero session.request.options :=
    ⟨⟨lit "0", 1, by decide, by decide⟩, by intro text h; cases h⟩
  exact not_terminates_of_endless (System.healthy_serving _) (le_longest session file)
    (System.noStop_serving _) (System.finds_serving _ _)
    (endless_start (System.healthy_serving _) (System.noStop_serving _) (.inl rfl)
      (System.finds_serving _ _) hzero)

end TftpSessionV4

end Bootpd
