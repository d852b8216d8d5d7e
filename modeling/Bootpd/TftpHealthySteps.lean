import Bootpd.TftpSessionSteps

/-!
# The steps of a session whose sockets work

When no call of a socket fails, every computation of a session is determined by what is received,
and its runs can be written down. The equations here are used where a theorem says what a session
must do, not only what it may do.

## Which sockets work

No system can send a datagram of any length, and a client may ask for blocks that are longer than
that. So the sockets are only asked to send what the session has to: `longest` bounds the OACK and
the DATA packets of a transfer by the options of the request and the file, and `Healthy` is always
meant up to that. A session whose blocks can be sent has sockets of this kind; for others the
hypothesis is not met, and nothing is said.

Each equation has the retry counter with it, since what a time-out leads to depends on it. The
addresses from which the datagrams come are those of the client here. What a session does with the
datagrams of others is in `TftpForeignSource`.

## Main definitions

* `TftpSessionV4.longest` — the length of the longest packet of a transfer, at most
* `ackOf` — an acknowledgement from the client

## Main results

* `exec_dataLoop`, `exec_oackLoop` — with retries left, a loop sends and waits
* `exec_startTransfer`, `start_of_optionsInUse` — how a transfer and a session start
* `step_ack_oackSent`, `step_ack_next`, `step_timedOut_dataSent` — what an outcome leads to
-/

namespace Bootpd

open Imperative SocketUdp

namespace TftpSessionV4

variable {sys : System} {session : TftpSessionV4}

/-! ### How long the datagrams are -/

theorem length_datagram (reader : TftpReader) (target : AddressV4) :
    (reader.datagram target).bits.length = reader.buffer.length + 4 := by
  simp only [TftpReader.datagram, TftpPacket.dataBits, List.length_append, Scalar.length_encode]
  simp only [Scalar.size]
  omega

theorem toNat_nextLength_le (reader : TftpReader) :
    reader.nextLength.toNat ≤ reader.blksiz.toNat := by
  rw [TftpReader.nextLength]
  split_ifs with h
  · exact (UInt64.lt_iff_toNat_lt.mp h).le
  · exact le_rfl

/-- The first block of a file. -/
theorem length_buffer_firstReader (sys : System) (session : TftpSessionV4) (file : File)
    (options : OptionsType) : (firstReader sys session file options).buffer.length =
      min options.blksize.toNat file.content.length := by
  have htoNat : (UInt64.ofNat file.content.length).toNat = file.content.length :=
    Nat.mod_eq_of_lt (file.size_lt.trans (by decide))
  -- the first block starts at the offset 0
  have hzero : ∀ x : UInt64, x - 0 * options.blksize = x := by simp
  rw [firstReader, TftpReader.length_buffer_next, TftpReader.nextLength, TftpReader.nextOffset,
    TftpReader.initial]
  dsimp only
  rw [hzero]
  split_ifs with hsmall
  · have hlt := UInt64.lt_iff_toNat_lt.mp hsmall
    rw [htoNat] at hlt ⊢
    omega
  · have hle : ¬(UInt64.ofNat file.content.length).toNat < options.blksize.toNat :=
      fun h => hsmall (UInt64.lt_iff_toNat_lt.mpr h)
    rw [htoNat] at hle
    omega

/-- The longest datagram that a session for `file` can send: the OACK, or a block. All ERROR
packets, and the DATA packets of the default size, have at most 516 bytes. -/
def longest (session : TftpSessionV4) (file : File) : ℕ :=
  match parseOptions ⟨512, 1, .ofNat file.content.length⟩ session.request.options with
  | .ok (options, oack) =>
    max 516 (max (oackDatagram oack session.remoteClient).bits.length
      (min options.blksize.toNat file.content.length + 4))
  | .error _ => 516

theorem le_longest (session : TftpSessionV4) (file : File) : 516 ≤ session.longest file := by
  rw [longest]
  split
  · exact le_max_left ..
  · exact le_rfl

section Longest

variable {file : File} {options : OptionsType} {oack : DictionaryType}

theorem oack_le_longest (hparse : parseOptions ⟨512, 1, .ofNat file.content.length⟩
      session.request.options = .ok (options, oack)) :
    (oackDatagram oack session.remoteClient).bits.length ≤ session.longest file := by
  rw [longest, hparse]
  exact (le_max_left ..).trans (le_max_right ..)

theorem block_le_longest (huse : session.optionsInUse file = .ok options) :
    min options.blksize.toNat file.content.length + 4 ≤ session.longest file := by
  obtain ⟨⟨options, oack⟩, hparse, rfl⟩ := map_eq_ok huse
  rw [longest, hparse]
  exact (le_max_right ..).trans (le_max_right ..)

/-- A block of a transfer. -/
theorem length_datagram_le {n b k : ℕ} {reader : TftpReader} (hat : TftpReader.At n b k reader)
    (target : AddressV4) : (reader.datagram target).bits.length ≤ min b n + 4 := by
  rw [length_datagram, hat.buffer]
  omega

end Longest

/-! ### Sending -/

variable {longest : ℕ}

/-- Answering with the ERROR packet for an illegal operation, and throwing. -/
theorem exec_reject (hsys : sys.Healthy longest) (hlongest : 516 ≤ longest)
    (session : TftpSessionV4) (α : Type) (e : Exception) (s : IoState) :
    ∃ ev, Minor session.filePath ev ∧ exec (do
      send sys (TftpPacket.makeError .illegalOperation) session.remoteClient
      throw e : SessionM α) s = (.error e, s.push ev) := by
  have hsend := exec_send_healthy hsys (TftpPacket.serialize_error ⟨.illegalOperation,
    TftpPacket.errorCodeToString .illegalOperation⟩) (le_trans (by decide) hlongest)
    session.remoteClient s
  exact ⟨_, .sentError _ _, exec_bind_ok hsend⟩

/-- A loop whose send succeeds, with retries left. -/
theorem exec_sendLoop_of_sendto (hstop : sys.NoStop) {packet : TftpPacket} {bits : List UInt8}
    (hbits : serializeToVector packet = .ok bits)
    (hsend : ∀ log, sys.sendto log ⟨session.remoteClient, bits⟩ = none) (waiting : ℕ → Control)
    (stopped exhausted : SessionM Control) {n : ℕ} (hn : 0 < n) (s : IoState) :
    exec (sendLoop sys session packet waiting stopped exhausted n) s =
      (.ok (waiting n), s.push (.sent ⟨session.remoteClient, bits⟩)) := by
  obtain ⟨n, rfl⟩ := Nat.exists_eq_add_of_le' hn
  rw [exec_sendLoop_succ hbits, hstop s.log, if_neg Bool.false_ne_true, hsend]

/-- **The data loop**, with retries left. -/
theorem exec_dataLoop (hsys : sys.Healthy longest) (hstop : sys.NoStop) {reader : TftpReader}
    (hlength : (reader.datagram session.remoteClient).bits.length ≤ longest) {n : ℕ} (hn : 0 < n)
    (s : IoState) : exec (dataLoop sys session reader n) s =
      (.ok (.dataSent n reader), s.push (.sent (reader.datagram session.remoteClient))) :=
  exec_sendLoop_of_sendto hstop (serialize_readerData reader session.remoteClient)
    (fun log => hsys.sendto log _ hlength) _ _ _ hn s

/-- **The OACK loop**, with retries left. -/
theorem exec_oackLoop (hsys : sys.Healthy longest) (hstop : sys.NoStop) (options : OptionsType)
    {oack : DictionaryType}
    (hlength : (oackDatagram oack session.remoteClient).bits.length ≤ longest) {n : ℕ} (hn : 0 < n)
    (s : IoState) : exec (oackLoop sys session options oack n) s =
      (.ok (.oackSent n options oack),
        s.push (.sent (oackDatagram oack session.remoteClient))) :=
  exec_sendLoop_of_sendto hstop (TftpPacket.serialize_oack ⟨oack⟩)
    (fun log => hsys.sendto log _ hlength) _ _ _ hn s

/-! ### Checking an acknowledgement -/

theorem isEmpty_ackBits (blockId : UInt16) : (TftpPacket.ackBits blockId).isEmpty = false := by
  have hlen : (TftpPacket.ackBits blockId).length = 4 := by
    simp [TftpPacket.ackBits, Scalar.size]
  cases h : TftpPacket.ackBits blockId with
  | nil => rw [h] at hlen; cases hlen
  | cons c s => rfl

theorem exec_awaitAck_timedOut (number : UInt64) (s : IoState) :
    exec (awaitAck sys session number .timedOut) s =
      (.error (.socketTimedOut (lit "receive operation timed out.")),
        s.push (.received .timedOut)) := by
  rw [awaitAck, exec_bind, exec_recv]
  rfl

theorem exec_awaitAck_ack (number : UInt64) (blockId : UInt16) (s : IoState) :
    exec (awaitAck sys session number
        (.datagram session.remoteClient (TftpPacket.ackBits blockId))) s =
      exec (validateAck sys session (.ack ⟨blockId⟩) number)
        (s.push (.received (.datagram session.remoteClient (TftpPacket.ackBits blockId)))) := by
  have hresult : recvResult (.datagram session.remoteClient (TftpPacket.ackBits blockId)) =
      .ok (session.remoteClient, TftpPacket.ackBits blockId) := by
    simp [recvResult, isEmpty_ackBits]
  have hrecv := exec_recv (.datagram session.remoteClient (TftpPacket.ackBits blockId)) s
  rw [hresult] at hrecv
  have hsource : ∀ s', exec (validateSource sys session session.remoteClient) s' =
      (.ok (), s') := by
    intro s'
    simp [validateSource]
  rw [awaitAck, exec_bind_ok hrecv]
  dsimp only
  rw [exec_bind_ok (hsource _), TftpPacket.ofBits_ackBits, exec_bind_ok (exec_liftExcept ..)]

/-- The acknowledgement that is awaited. -/
theorem exec_awaitAck_eq (number : UInt64) (s : IoState) :
    exec (awaitAck sys session number (.datagram session.remoteClient
        (TftpPacket.ackBits (UInt16.ofNat number.toNat)))) s =
      (.ok (), s.push (.received (.datagram session.remoteClient
        (TftpPacket.ackBits (UInt16.ofNat number.toNat))))) := by
  rw [exec_awaitAck_ack, validateAck_ack, if_pos rfl, exec_pure]

/-- The acknowledgement of another block. -/
theorem exec_awaitAck_ne (hsys : sys.Healthy longest) (hlongest : 516 ≤ longest)
    (session : TftpSessionV4) {number : UInt64} {blockId : UInt16}
    (h : blockId ≠ UInt16.ofNat number.toNat) (s : IoState) :
    ∃ s', exec (awaitAck sys session number
        (.datagram session.remoteClient (TftpPacket.ackBits blockId))) s =
      (.error (unexpectedAck number blockId), s') := by
  obtain ⟨ev, -, hev⟩ := exec_reject hsys hlongest session Unit (unexpectedAck number blockId)
    (s.push (.received (.datagram session.remoteClient (TftpPacket.ackBits blockId))))
  rw [exec_awaitAck_ack, validateAck_ack, if_neg h]
  exact ⟨_, hev⟩

/-! ### Starting -/

theorem exec_timeout (hsys : sys.Healthy longest) (call : TimeoutCall) (dur : UInt64)
    (s : IoState) :
    exec (timeout sys call dur) s =
      (.ok (), { s with soRcvtimeo := dur.toUInt32, soSndtimeo := dur.toUInt32 }) := by
  rw [exec_setTimeout, hsys.setsockopt, hsys.setsockopt]

variable {file : File} {readable : Bool} {options : OptionsType}

/-- **The start of a transfer** of a regular file. -/
theorem exec_startTransfer (hsys : sys.Healthy longest) (hstop : sys.NoStop)
    (hfile : sys.Finds session.filePath (.regular file readable))
    (hsize : options.tsize = .ofNat file.content.length)
    (hlength : min options.blksize.toNat file.content.length + 4 ≤ longest) (s : IoState) :
    ∃ s', s'.log = s.log ++ [.opened session.filePath] ∧
      exec (startTransfer sys session options) s =
        if sys.canAllocate options.blksize then
          (.ok (.dataSent maxRetries (firstReader sys session file options)),
            s'.push (.sent ((firstReader sys session file options).datagram
              session.remoteClient)))
        else (.error .badAlloc, s') := by
  have hmake := TftpReader.exec_make hfile options.blksize
    (session.request.xfermode == lit "octet")
    { s with
      soRcvtimeo := (seconds options.timeout).toUInt32
      soSndtimeo := (seconds options.timeout).toUInt32 }
  refine ⟨IoState.push { s with
      soRcvtimeo := (seconds options.timeout).toUInt32
      soSndtimeo := (seconds options.timeout).toUInt32 } (.opened session.filePath), rfl, ?_⟩
  rw [startTransfer, exec_bind_ok (exec_timeout hsys _ _ s), hsize]
  split
  · rename_i halloc
    rw [if_pos halloc] at hmake
    rw [exec_bind_ok hmake]
    have hfirst : ((firstReader sys session file options).datagram
        session.remoteClient).bits.length ≤ longest := by
      rwa [length_datagram, length_buffer_firstReader]
    exact exec_dataLoop hsys hstop hfirst (by decide) _
  · rename_i halloc
    rw [if_neg halloc] at hmake
    rw [exec_bind_error hmake]

theorem exec_validateRequest
    (hmode : session.request.xfermode = lit "octet" ∨ session.request.xfermode = lit "netascii")
    (s : IoState) : exec (validateRequest sys session) s = (.ok (), s) := by
  rw [validateRequest, if_neg fun h => hmode.elim h.1 h.2]
  rfl

theorem exec_validateFilepath
    (hfile : sys.Finds session.filePath (.regular file readable)) (s : IoState) :
    exec (validateFilepath sys session session.filePath) s = (.ok (), s) := by
  simp [validateFilepath, Filesystem.fileExists, Filesystem.isRegularFile, hfile, exec_bind]

/-- **The start of a session** whose request passes the checks. -/
theorem exec_ioThread (hsys : sys.Healthy longest)
    (hmode : session.request.xfermode = lit "octet" ∨ session.request.xfermode = lit "netascii")
    (hfile : sys.Finds session.filePath (.regular file readable)) (s : IoState) :
    ∃ s', s'.log = s.log ∧ exec (ioThread sys session) s =
      exec (if session.request.options.entries.isEmpty then
          startTransfer sys session ⟨512, 1, .ofNat file.content.length⟩
        else (do
          let (options, oack) ← liftExcept
            (parseOptions ⟨512, 1, .ofNat file.content.length⟩ session.request.options)
          oackLoop sys session options oack maxRetries)) s' := by
  have hsize := hfile.fileSize .fileSize
  refine ⟨{ s with
    soRcvtimeo := (seconds 1).toUInt32, soSndtimeo := (seconds 1).toUInt32 }, rfl, ?_⟩
  rw [ioThread, exec_bind_ok (exec_make_of_socket hsys.socket s),
    exec_bind_ok (exec_timeout hsys _ _ s), exec_bind_ok (exec_validateRequest hmode _),
    exec_bind_ok (exec_validateFilepath hfile _), hsize, exec_bind_ok (exec_liftExcept ..)]

/-- **The first state of a session** whose request and options are accepted: a transfer has
started, or the OACK is sent. -/
theorem start_of_optionsInUse (hsys : sys.Healthy (session.longest file)) (hstop : sys.NoStop)
    (hmode : session.request.xfermode = lit "octet" ∨ session.request.xfermode = lit "netascii")
    (hfile : sys.Finds session.filePath (.regular file readable))
    (huse : session.optionsInUse file = .ok options) :
    ∃ io : IoState, io.log = [] ∧
      (start sys session = settle (exec (startTransfer sys session options) io) ∨
        ∃ oack, start sys session = ⟨.oackSent maxRetries options oack,
          io.push (.sent (oackDatagram oack session.remoteClient))⟩) := by
  obtain ⟨io, hlog, hexec⟩ := exec_ioThread hsys hmode hfile ⟨[], 0, 0⟩
  refine ⟨io, hlog, ?_⟩
  cases hempty : session.request.options.entries.isEmpty
  · obtain ⟨⟨options', oack⟩, hparse, rfl⟩ := map_eq_ok huse
    rw [hempty, if_neg (by decide), hparse, exec_bind_ok (exec_liftExcept ..)] at hexec
    dsimp only at hexec
    rw [exec_oackLoop hsys hstop options' (oack_le_longest hparse) (by decide)] at hexec
    exact .inr ⟨oack, congrArg settle hexec⟩
  · rw [optionsInUse, parseOptions_empty hempty] at huse
    obtain rfl : _ = options := Except.ok.inj huse
    rw [hempty, if_pos rfl] at hexec
    exact .inl (congrArg settle hexec)

/-! ### Steps -/

section Resume

variable {s : State} {number : UInt64} {o : RecvOutcome} {retry rest : SessionM Control}
  {io : IoState}

/-- A wait that is over: what follows the check. -/
theorem step_of_ok (hresume : resume sys session s.control o = (do
      let r ← observing (awaitAck sys session number o)
      onTimeout r retry fun _ => rest))
    (h : exec (awaitAck sys session number o) s.io = (.ok (), io)) :
    step sys session s o = settle (exec rest io) := by
  rw [step, hresume, exec_bind_ok (exec_observing ..), h, onTimeout_ok]

/-- A wait that timed out: the retry. -/
theorem step_of_timedOut (hresume : resume sys session s.control o = (do
      let r ← observing (awaitAck sys session number o)
      onTimeout r retry fun _ => rest)) {what : StdString}
    (h : exec (awaitAck sys session number o) s.io = (.error (.socketTimedOut what), io)) :
    step sys session s o = settle (exec retry io) := by
  rw [step, hresume, exec_bind_ok (exec_observing ..), h, onTimeout_timedOut]

/-- A wait that ends in any other exception: the end of the session. -/
theorem step_of_error (hresume : resume sys session s.control o = (do
      let r ← observing (awaitAck sys session number o)
      onTimeout r retry fun _ => rest)) {e : Exception} (he : ∀ what, e ≠ .socketTimedOut what)
    (h : exec (awaitAck sys session number o) s.io = (.error e, io)) :
    step sys session s o = ⟨.thrown e, io⟩ := by
  rw [step, hresume, exec_bind_ok (exec_observing ..), h, onTimeout_error he]
  rfl

end Resume

/-- The outcome that acknowledges block `number`. -/
def ackOf (session : TftpSessionV4) (number : UInt64) : RecvOutcome :=
  .datagram session.remoteClient (TftpPacket.ackBits (UInt16.ofNat number.toNat))

section Waiting

variable (hsys : sys.Healthy longest) (hstop : sys.NoStop) {n : ℕ} (options : OptionsType)
  (oack : DictionaryType) {reader : TftpReader} (io : IoState)

include hsys hstop in
theorem step_timedOut_oackSent
    (hlength : (oackDatagram oack session.remoteClient).bits.length ≤ longest) (hn : 1 < n) :
    step sys session ⟨.oackSent n options oack, io⟩ .timedOut =
      ⟨.oackSent (n - 1) options oack, (io.push (.received .timedOut)).push
        (.sent (oackDatagram oack session.remoteClient))⟩ := by
  rw [step_of_timedOut rfl (exec_awaitAck_timedOut 0 io)]
  exact congrArg settle (exec_oackLoop hsys hstop options hlength (Nat.sub_pos_of_lt hn) _)

include hsys hstop in
theorem step_timedOut_dataSent
    (hlength : (reader.datagram session.remoteClient).bits.length ≤ longest) (hn : 1 < n) :
    step sys session ⟨.dataSent n reader, io⟩ .timedOut =
      ⟨.dataSent (n - 1) reader, (io.push (.received .timedOut)).push
        (.sent (reader.datagram session.remoteClient))⟩ := by
  rw [step_of_timedOut rfl (exec_awaitAck_timedOut reader.number io)]
  exact congrArg settle (exec_dataLoop hsys hstop hlength (Nat.sub_pos_of_lt hn) _)

theorem step_ack_oackSent :
    step sys session ⟨.oackSent n options oack, io⟩ (session.ackOf 0) =
      settle (exec (startTransfer sys session options)
        (io.push (.received (session.ackOf 0)))) :=
  step_of_ok rfl (exec_awaitAck_eq 0 io)

theorem step_ack_last (hlast : reader.last = true) :
    step sys session ⟨.dataSent n reader, io⟩ (session.ackOf reader.number) =
      ⟨.finished reader, io.push (.received (session.ackOf reader.number))⟩ := by
  rw [step_of_ok rfl (exec_awaitAck_eq reader.number io), if_pos hlast]
  rfl

include hsys hstop in
theorem step_ack_next
    (hlength : (reader.next.datagram session.remoteClient).bits.length ≤ longest)
    (hlast : reader.last = false) :
    step sys session ⟨.dataSent n reader, io⟩ (session.ackOf reader.number) =
      ⟨.dataSent (maxRetries - 1) reader.next,
        (io.push (.received (session.ackOf reader.number))).push
          (.sent (reader.next.datagram session.remoteClient))⟩ := by
  rw [step_of_ok rfl (exec_awaitAck_eq reader.number io), if_neg (by simp [hlast])]
  exact congrArg settle (exec_dataLoop hsys hstop hlength (by decide) _)

end Waiting

end TftpSessionV4

end Bootpd
