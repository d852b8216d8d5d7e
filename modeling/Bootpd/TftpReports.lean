import Bootpd.TftpForeignSource
import Bootpd.TftpRetries

/-!
# Whether a client is told that its transfer has failed

Some of the checks of a session send an ERROR packet before they throw, and some of the calls
throw by themselves. The loop of `validate_options` sends one when its retries are used up, and
the loop of `io_thread` does not.

## The three ways out

`Exits` says of a computation what it leaves: a session that goes on, or one that has ended and has
told its client, or one that has ended in silence. Which of the last two it is does not depend on
what the computation does, but on the state in front of it and on the outcome that it gets, and
`SilentStart` and `SilentOn` list the cases: a call of the system that throws, a datagram that
cannot be decoded, an ERROR that is not the client's, the last retry of the data loop.

Each function of the session is gone through once. A session that has told its client once has told
it for good, so the lemmas are about logs that have told nothing before.

## Scope

The sockets send what they are given, since a report that cannot be sent reports nothing. All other
calls may fail: those of the file system, the allocation, `setsockopt`, and the receives. Nobody
requests a stop. A client that has sent an ERROR itself needs no report.

## Main definitions

* `Told` — an ERROR has been sent to the client, or has come from it
* `TftpSessionV4.Deaf` — an outcome that ends a session without an ERROR
* `TftpSessionV4.SilentRun` — a run that ends in silence, at its start or on one of its outcomes
* `TftpSessionV4.Reported` — what is asked of a session that has failed

## Main results

* `TftpSessionV4.logs_heard` — what each outcome of a receive leads to
* `TftpSessionV4.exits_run` — the sessions that end in silence
* `TftpSessionV4.reported_iff` — the runs that report every failure
-/

namespace Bootpd

open Imperative SocketUdp

/-- A system that has sockets, and sends what it is given. -/
structure System.Sends (sys : System) : Prop where
  socket : sys.socket = none
  sendto : ∀ log d, sys.sendto log d = none

/-- An ERROR packet from `client`, or to it. -/
def Event.Tells (client : AddressV4) : Event → Prop
  | .received (.datagram source bits) =>
    source = client ∧ ∃ payload, TftpPacket.ofBits bits = .ok (.error payload)
  | .sent d => d.target = client ∧ d.IsError
  | _ => False

/-- The client knows that its transfer has failed. -/
def Told (client : AddressV4) (log : List Event) : Prop := ∃ ev ∈ log, ev.Tells client

theorem told_append {client : AddressV4} {log es : List Event} :
    Told client (log ++ es) ↔ Told client log ∨ Told client es := by
  simp only [Told, List.mem_append, or_and_right, exists_or]

theorem told_cons {client : AddressV4} {ev : Event} {es : List Event} :
    Told client (ev :: es) ↔ ev.Tells client ∨ Told client es := by
  simp [Told]

theorem told_singleton {client : AddressV4} {ev : Event} : Told client [ev] ↔ ev.Tells client := by
  simp [Told]

theorem not_told_nil {client : AddressV4} : ¬Told client [] := by simp [Told]

namespace TftpSessionV4

variable {sys : System} {session : TftpSessionV4}

/-! ### What a receive leads to -/

/-- An outcome that ends a session in silence. -/
def Deaf (session : TftpSessionV4) : RecvOutcome → Prop
  | .timedOut => False
  | .failed _ _ => True
  | .datagram source bits => bits = [] ∨ (∃ e, TftpPacket.ofBits bits = .error e) ∨
      source ≠ session.remoteClient ∧ ∃ payload, TftpPacket.ofBits bits = .ok (.error payload)

/-- How the check of an acknowledgement ends. -/
inductive Heard (session : TftpSessionV4) (number : UInt64) (o : RecvOutcome) :
    Except Exception Unit → List Event → Prop
  | acknowledged {es : List Event} (hack : Acknowledges o number.toNat) (hdeaf : ¬Deaf session o)
      (htold : ¬Told session.remoteClient es) : Heard session number o (.ok ()) es
  | timedOut {es : List Event} (what : StdString) (ho : o = .timedOut)
      (htold : ¬Told session.remoteClient es) :
      Heard session number o (.error (.socketTimedOut what)) es
  | deaf {es : List Event} {e : Exception} (he : ∀ what, e ≠ .socketTimedOut what)
      (hdeaf : Deaf session o) (htold : ¬Told session.remoteClient es) :
      Heard session number o (.error e) es
  /-- The client has sent an ERROR packet, or gets one. -/
  | told {es : List Event} {e : Exception} (he : ∀ what, e ≠ .socketTimedOut what)
      (hack : ¬Acknowledges o number.toNat) (ho : o ≠ .timedOut) (hdeaf : ¬Deaf session o)
      (htold : Told session.remoteClient es) : Heard session number o (.error e) es

theorem isError_errorDatagram (payload : TypeError) (target : AddressV4) :
    (errorDatagram payload target).IsError := opcode_eq

/-- Answering with an ERROR packet and throwing. -/
theorem exec_reject_of_sends (hsys : sys.Sends) (session : TftpSessionV4) (α : Type)
    (payload : TypeError) (e : Exception) (io : IoState) : exec (do
      send sys (TftpPacket.error payload) session.remoteClient
      throw e : SessionM α) io =
        (.error e, io.push (.sent (errorDatagram payload session.remoteClient))) := by
  have hsend := @exec_sendError sys payload session.remoteClient io
  rw [hsys.sendto] at hsend
  exact exec_bind_ok hsend

theorem told_errorDatagram (payload : TypeError) (client : AddressV4) (io : IoState) :
    Told client (io.push (.sent (errorDatagram payload client))).log := by
  rw [IoState.log_push, told_append, told_singleton]
  exact .inr ⟨rfl, isError_errorDatagram payload client⟩

/-- The ERROR packet for a foreign source is not for the client. -/
theorem logs_source (hsys : sys.Sends) (session : TftpSessionV4) (source : AddressV4) :
    Logs IoState.log (validateSource sys session source)
      fun r es => r = .ok () ∧ ¬Told session.remoteClient es := by
  rw [validateSource]
  split_ifs with hsource
  · intro io
    rw [TftpPacket.makeErrorString, exec_sendError, hsys.sendto]
    refine ⟨_, rfl, rfl, ?_⟩
    rw [told_singleton]
    exact fun h => hsource h.1.symm
  · exact Logs.pure ⟨rfl, not_told_nil⟩

section Packet

variable {bits : List UInt8} {packet : TftpPacket}

/-! What is said about a datagram, said about its packet. -/

theorem deaf_iff (session : TftpSessionV4) (source : AddressV4) (hbits : bits ≠ [])
    (hpacket : TftpPacket.ofBits bits = .ok packet) :
    Deaf session (.datagram source bits) ↔
      source ≠ session.remoteClient ∧ ∃ payload, packet = .error payload := by
  simp [Deaf, hbits, hpacket]

theorem tells_iff (client source : AddressV4) (hpacket : TftpPacket.ofBits bits = .ok packet) :
    (Event.received (.datagram source bits)).Tells client ↔
      source = client ∧ ∃ payload, packet = .error payload := by
  simp [Event.Tells, hpacket]

theorem acknowledges_iff (source : AddressV4) (hpacket : TftpPacket.ofBits bits = .ok packet)
    (k : ℕ) : Acknowledges (.datagram source bits) k ↔ packet = .ack ⟨UInt16.ofNat k⟩ := by
  constructor
  · rintro ⟨source', bits', h, hack⟩
    obtain ⟨rfl, rfl⟩ := RecvOutcome.datagram.inj h
    exact Except.ok.inj (hpacket.symm.trans hack)
  · rintro rfl
    exact ⟨source, bits, rfl, hpacket⟩

end Packet

/-- What the check of a packet leads to, behind the receive and the ERROR packet for its source. -/
theorem logs_packet (hsys : sys.Sends) (session : TftpSessionV4) (number : UInt64)
    {source : AddressV4} {bits : List UInt8} (hbits : bits ≠ []) {packet : TftpPacket}
    (hpacket : TftpPacket.ofBits bits = .ok packet) {es₀ : List Event}
    (hes₀ : ¬Told session.remoteClient es₀) :
    Logs IoState.log (validateAck sys session packet number) fun r es =>
      Heard session number (.datagram source bits) r
        (.received (.datagram source bits) :: (es₀ ++ es)) := by
  have hdeaf := deaf_iff session source hbits hpacket
  have hack := acknowledges_iff source hpacket number.toNat
  have htells := tells_iff session.remoteClient source hpacket
  by_cases herror : ∃ payload, packet = .error payload
  · obtain ⟨payload, rfl⟩ := herror
    refine Logs.throw ?_
    rw [List.append_nil]
    by_cases hsource : source = session.remoteClient
    · refine .told (by simp) (by rw [hack]; simp) (by simp) (fun h => (hdeaf.mp h).1 hsource) ?_
      exact told_cons.mpr (.inl (htells.mpr ⟨hsource, payload, rfl⟩))
    · refine .deaf (by simp) (hdeaf.mpr ⟨hsource, payload, rfl⟩) ?_
      rw [told_cons, htells]
      rintro (h | h)
      · exact hsource h.1
      · exact hes₀ h
  · have hdeaf' : ¬Deaf session (.datagram source bits) := fun h => herror (hdeaf.mp h).2
    by_cases hnumber : packet = .ack ⟨UInt16.ofNat number.toNat⟩
    · subst hnumber
      rw [validateAck_ack, if_pos rfl]
      refine Logs.pure (.acknowledged (hack.mpr rfl) hdeaf' ?_)
      rw [List.append_nil, told_cons, htells]
      rintro (h | h)
      · exact herror h.2
      · exact hes₀ h
    · have hrejected : Rejected number packet :=
        ⟨fun payload h => herror ⟨payload, h⟩, hnumber⟩
      obtain ⟨e, he, hreject⟩ := validateAck_of_rejected sys session hrejected
      rw [hreject]
      intro io
      rw [TftpPacket.makeError, TftpPacket.makeErrorString, exec_reject_of_sends hsys]
      refine ⟨_, rfl, .told he (fun h => hnumber (hack.mp h)) (by simp) hdeaf' ?_⟩
      rw [told_cons, told_append, told_singleton]
      exact .inr (.inr ⟨rfl, isError_errorDatagram _ _⟩)

/-- **What a receive leads to.** -/
theorem logs_heard (hsys : sys.Sends) (session : TftpSessionV4) (number : UInt64)
    (o : RecvOutcome) :
    Logs IoState.log (awaitAck sys session number o) (Heard session number o) := by
  intro io
  have hrecv := exec_recv o io
  rw [awaitAck]
  cases o with
  | timedOut =>
    rw [exec_bind_error hrecv]
    exact ⟨[.received .timedOut], rfl, .timedOut _ rfl (by rw [told_singleton]; exact id)⟩
  | failed e he =>
    rw [exec_bind_error hrecv]
    exact ⟨[.received (.failed e he)], rfl,
      .deaf he trivial (by rw [told_singleton]; exact id)⟩
  | datagram source bits =>
    by_cases hbits : bits = []
    · subst hbits
      rw [exec_bind_error hrecv]
      refine ⟨[.received (.datagram source [])], rfl, .deaf (by simp) (.inl rfl) ?_⟩
      rw [told_singleton]
      rintro ⟨-, payload, hpayload⟩
      cases hpayload
    · have hresult : recvResult (.datagram source bits) = .ok (source, bits) := by
        simp [recvResult, hbits]
      rw [hresult] at hrecv
      rw [exec_bind_ok hrecv]
      dsimp only
      obtain ⟨es₀, hlog₀, hok, hes₀⟩ := logs_source hsys session source
        (io.push (.received (.datagram source bits)))
      rcases hrun : exec (validateSource sys session source)
        (io.push (.received (.datagram source bits))) with ⟨r, io'⟩
      rw [hrun] at hlog₀ hok
      obtain rfl : r = .ok () := hok
      dsimp only at hlog₀
      rw [IoState.log_push, List.append_assoc, List.singleton_append] at hlog₀
      rw [exec_bind_ok hrun]
      cases hpacket : TftpPacket.ofBits bits with
      | error e =>
        rw [exec_bind_error (exec_liftExcept (.error e) io')]
        refine ⟨.received (.datagram source bits) :: es₀, hlog₀, .deaf ?_ ?_ ?_⟩
        · rw [TftpPacket.ofBits_error hpacket]
          rintro what ⟨⟩
        · exact .inr (.inl ⟨e, hpacket⟩)
        · rw [told_cons, not_or]
          refine ⟨?_, hes₀⟩
          rintro ⟨-, payload, hpayload⟩
          rw [hpacket] at hpayload
          cases hpayload
      | ok packet =>
        rw [exec_bind_ok (exec_liftExcept (.ok packet) io')]
        obtain ⟨es, hlog, hheard⟩ := logs_packet hsys session number hbits hpacket hes₀ io'
        exact ⟨_, by rw [hlog, hlog₀, List.append_assoc, List.cons_append], hheard⟩

/-! ### What a computation leaves -/

/-- A session goes on, or has told its client that it has failed, or has ended in silence. -/
inductive Exits (sys : System) (session : TftpSessionV4) (silent : Prop) : State → Prop
  | oackSent {n : ℕ} {options : OptionsType} {oack : DictionaryType} {io : IoState} (hpos : 0 < n)
      (htold : ¬Told session.remoteClient io.log) (hsilent : ¬silent) :
      Exits sys session silent ⟨.oackSent n options oack, io⟩
  | dataSent {n : ℕ} {reader : TftpReader} {io : IoState} (hpos : 0 < n)
      (htold : ¬Told session.remoteClient io.log) (hsilent : ¬silent) :
      Exits sys session silent ⟨.dataSent n reader, io⟩
  | finished {reader : TftpReader} {io : IoState} (hsilent : ¬silent) :
      Exits sys session silent ⟨.finished reader, io⟩
  | thrown {e : Exception} {io : IoState} (htold : Told session.remoteClient io.log ↔ ¬silent) :
      Exits sys session silent ⟨.thrown e, io⟩

variable {silent : Prop}

theorem exits_dataLoop (hsys : sys.Sends) (hstop : sys.NoStop) (session : TftpSessionV4)
    (reader : TftpReader) {n : ℕ} (hn : 0 < n) {io : IoState}
    (hio : ¬Told session.remoteClient io.log) (hsilent : ¬silent) :
    Exits sys session silent (settle (exec (dataLoop sys session reader n) io)) := by
  rw [dataLoop, exec_sendLoop_of_sendto hstop
    (serialize_readerData reader session.remoteClient) (fun log => hsys.sendto log _) _ _ _ hn]
  refine .dataSent hn ?_ hsilent
  rw [IoState.log_push, told_append, told_singleton]
  rintro (h | h)
  · exact hio h
  · exact not_isError_datagram reader session.remoteClient h.2

/-- What keeps a transfer from its first block: the time-out of its options, the size of the file
if it has to be asked for again, or the memory for a block. -/
def Blocked (sys : System) (session : TftpSessionV4) (options : OptionsType) : Prop :=
  (∃ option e, sys.setsockopt .transfer option (seconds options.timeout).toUInt32 = some e) ∨
    (options.tsize = 0 ∧ ∃ e, (sys.filesystem .streamSize).fileSize session.filePath = .error e) ∨
    sys.canAllocate options.blksize = false

/-- One of the two options cannot be set. -/
theorem exists_setsockopt_iff {sys : System} {call : TimeoutCall} {dur : UInt64} :
    (∃ option e, sys.setsockopt call option dur.toUInt32 = some e) ↔
      ∃ e, timeoutError sys call dur = some e := by
  constructor
  · rintro ⟨option, e, he⟩
    refine Option.isSome_iff_exists.mp ?_
    cases option <;> simp [timeoutError, he]
  · rintro ⟨e, he⟩
    rcases Option.or_eq_some_iff.mp he with h | ⟨-, h⟩ <;> exact ⟨_, e, h⟩

/-- The length of the reader cannot be had. -/
theorem exists_lengthOf_error_iff {sys : System} {p : Path} {length : UInt64} :
    (∃ e, TftpReader.lengthOf sys p length = .error e) ↔
      length = 0 ∧ ∃ e, (sys.filesystem .streamSize).fileSize p = .error e := by
  rw [TftpReader.lengthOf]
  by_cases h : length = 0 <;> simp [h]

theorem exits_startTransfer (hsys : sys.Sends) (hstop : sys.NoStop) (session : TftpSessionV4)
    (options : OptionsType) {io : IoState} (hio : ¬Told session.remoteClient io.log)
    (hsilent : silent ↔ Blocked sys session options) :
    Exits sys session silent (settle (exec (startTransfer sys session options) io)) := by
  rw [startTransfer]
  rcases exec_setTimeout_cases sys .transfer (seconds options.timeout) io with
    ⟨hset, htimeout⟩ | ⟨e, io', hset, htimeout, hlog⟩
  · rw [exec_bind_ok htimeout]
    have hopened : ¬Told session.remoteClient (io.log ++ [.opened session.filePath]) := by
      rw [told_append, told_singleton]
      exact fun h => h.elim hio id
    cases hlength : TftpReader.lengthOf sys session.filePath options.tsize with
    | error e =>
      rw [exec_bind_error (TftpReader.exec_make_of_error hlength ..)]
      have hblocked := exists_lengthOf_error_iff.mp ⟨e, hlength⟩
      exact .thrown (iff_of_false hopened fun h => h (hsilent.mpr (.inr (.inl hblocked))))
    | ok n =>
      have hmake := TftpReader.exec_make_of_length hlength options.blksize
        (session.request.xfermode == lit "octet") { io with
          soRcvtimeo := (seconds options.timeout).toUInt32,
          soSndtimeo := (seconds options.timeout).toUInt32 }
      cases halloc : sys.canAllocate options.blksize with
      | false =>
        rw [halloc, if_neg Bool.false_ne_true] at hmake
        rw [exec_bind_error hmake]
        exact .thrown (iff_of_false hopened fun h => h (hsilent.mpr (.inr (.inr halloc))))
      | true =>
        rw [halloc, if_pos rfl] at hmake
        rw [exec_bind_ok hmake]
        refine exits_dataLoop hsys hstop session _ (by decide) hopened ?_
        rw [hsilent, Blocked, exists_setsockopt_iff, ← exists_lengthOf_error_iff, hset, hlength,
          halloc]
        simp
  · rw [exec_bind_error htimeout]
    rw [← hlog] at hio
    have hblocked := exists_setsockopt_iff.mpr ⟨e, hset⟩
    exact .thrown (iff_of_false hio fun h => h (hsilent.mpr (.inl hblocked)))

/-- **The loop of `validate_options`** tells the client when it gives up. -/
theorem exits_oackLoop (hsys : sys.Sends) (hstop : sys.NoStop) (session : TftpSessionV4)
    (options : OptionsType) (oack : DictionaryType) (n : ℕ) {io : IoState}
    (hio : ¬Told session.remoteClient io.log) (hsilent : ¬silent) :
    Exits sys session silent (settle (exec (oackLoop sys session options oack n) io)) := by
  rcases Nat.eq_zero_or_pos n with rfl | hn
  · rw [oackLoop, sendLoop, TftpPacket.makeErrorString, exec_reject_of_sends hsys]
    exact .thrown (iff_of_true (told_errorDatagram _ _ io) hsilent)
  · have hsend : exec (oackLoop sys session options oack n) io = _ :=
      exec_sendLoop_of_sendto hstop (TftpPacket.serialize_oack ⟨oack⟩)
        (fun log => hsys.sendto log _) _ _ _ hn io
    rw [hsend]
    refine .oackSent hn ?_ hsilent
    rw [IoState.log_push, told_append, told_singleton]
    rintro (h | h)
    · exact hio h
    · exact not_isError_oackDatagram oack session.remoteClient h.2

/-! ### What one outcome leads to -/

/-- An outcome that ends a session in silence, in the state it meets. -/
def SilentOn (sys : System) (session : TftpSessionV4) : Control → RecvOutcome → Prop
  | .oackSent _ options _, o =>
    Deaf session o ∨ Acknowledges o 0 ∧ Blocked sys session options
  | .dataSent n _, o => Deaf session o ∨ n = 1 ∧ o = .timedOut
  | _, _ => False

/-- A wait: it times out, or is acknowledged, or ends the session. -/
theorem exits_wait (hsys : sys.Sends) {s : State} {number : UInt64} {o : RecvOutcome}
    {retry rest : SessionM Control} (hresume : resume sys session s.control o = (do
      let r ← observing (awaitAck sys session number o)
      onTimeout r retry fun _ => rest)) (hs : ¬Told session.remoteClient s.io.log)
    (hdeaf : Deaf session o → silent)
    (hother : ¬Deaf session o → o ≠ .timedOut → ¬Acknowledges o number.toNat → ¬silent)
    (hretry : o = .timedOut → ∀ io : IoState, ¬Told session.remoteClient io.log →
      Exits sys session silent (settle (exec retry io)))
    (hrest : ¬Deaf session o → Acknowledges o number.toNat → ∀ io : IoState,
      ¬Told session.remoteClient io.log → Exits sys session silent (settle (exec rest io))) :
    Exits sys session silent (step sys session s o) := by
  obtain ⟨es, hlog, hheard⟩ := logs_heard hsys session number o s.io
  rcases hawait : exec (awaitAck sys session number o) s.io with ⟨r, io⟩
  rw [hawait] at hlog hheard
  have htold : Told session.remoteClient io.log ↔ Told session.remoteClient es := by
    rw [hlog, told_append]
    exact or_iff_right hs
  cases hheard with
  | acknowledged hack hnot hes =>
    rw [step_of_ok hresume hawait]
    exact hrest hnot hack io (mt htold.mp hes)
  | timedOut what ho hes =>
    rw [step_of_timedOut hresume hawait]
    exact hretry ho io (mt htold.mp hes)
  | deaf he hdeaf' hes =>
    rw [step_of_error hresume he hawait]
    exact .thrown (iff_of_false (mt htold.mp hes) fun h => h (hdeaf hdeaf'))
  | told he hack ho hnot hes =>
    rw [step_of_error hresume he hawait]
    exact .thrown (iff_of_true (htold.mpr hes) (hother hnot ho hack))

/-- **One outcome**: what is silent before is silent after, and the outcomes of `SilentOn` are. -/
theorem exits_step (hsys : sys.Sends) (hstop : sys.NoStop) {s : State}
    (h : Exits sys session silent s) (o : RecvOutcome) :
    Exits sys session (silent ∨ SilentOn sys session s.control o) (step sys session s o) := by
  cases h with
  | @oackSent n options oack io hpos htold hsilent =>
    rw [or_iff_right hsilent]
    refine exits_wait hsys rfl htold .inl ?_ ?_ ?_
    · rintro hdeaf - hack (h | h)
      · exact hdeaf h
      · exact hack h.1
    · rintro rfl io' hio'
      refine exits_oackLoop hsys hstop session options oack (n - 1) hio' ?_
      rintro (h | ⟨⟨source, bits, h, -⟩, -⟩)
      · exact h
      · cases h
    · intro hdeaf hack io' hio'
      refine exits_startTransfer hsys hstop session options hio' ⟨?_, fun h => .inr ⟨hack, h⟩⟩
      rintro (h | h)
      · exact absurd h hdeaf
      · exact h.2
  | @dataSent n reader io hpos htold hsilent =>
    rw [or_iff_right hsilent]
    refine exits_wait hsys rfl htold .inl ?_ ?_ ?_
    · rintro hdeaf ho - (h | h)
      · exact hdeaf h
      · exact ho h.2
    · rintro rfl io' hio'
      rcases Nat.eq_zero_or_pos (n - 1) with hzero | hn
      · rw [hzero]
        refine .thrown (iff_of_false hio' fun h => h (.inr ⟨?_, rfl⟩))
        omega
      · refine exits_dataLoop hsys hstop session reader hn hio' ?_
        rintro (h | h)
        · exact h
        · omega
    · intro hdeaf hack io' hio'
      have hsilent' : ¬SilentOn sys session (.dataSent n reader) o := by
        rintro (h | ⟨-, rfl⟩)
        · exact hdeaf h
        · obtain ⟨source, bits, h, -⟩ := hack
          cases h
      split_ifs
      · exact .finished hsilent'
      · exact exits_dataLoop hsys hstop session reader.next (by decide) hio' hsilent'
  | @finished reader io hsilent =>
    rw [step_finished, or_iff_left (show ¬SilentOn sys session (.finished reader) o from id)]
    exact .finished hsilent
  | @thrown e io htold =>
    rw [step_thrown, or_iff_left (show ¬SilentOn sys session (.thrown e) o from id)]
    exact .thrown htold

/-! ### The first state -/

/-- The file passes `validate_filepath`, which asks twice. -/
def PassesChecks (sys : System) (p : Path) : Prop :=
  (sys.filesystem .fileExists).fileExists p = .ok true ∧
    (sys.filesystem .isRegularFile).isRegularFile p = .ok true

/-- A session that ends in silence before it has sent anything. -/
inductive SilentStart (sys : System) (session : TftpSessionV4) : Prop
  | setsockopt {option : SoOption} {e : Exception}
      (h : sys.setsockopt .first option (seconds 1).toUInt32 = some e)
  | fileExists {e : Exception} (hmode : Supported session.request.xfermode)
      (h : (sys.filesystem .fileExists).fileExists session.filePath = .error e)
  | isRegularFile {e : Exception} (hmode : Supported session.request.xfermode)
      (hexists : (sys.filesystem .fileExists).fileExists session.filePath = .ok true)
      (h : (sys.filesystem .isRegularFile).isRegularFile session.filePath = .error e)
  | fileSize {e : Exception} (hmode : Supported session.request.xfermode)
      (hpasses : PassesChecks sys session.filePath)
      (h : (sys.filesystem .fileSize).fileSize session.filePath = .error e)
  | options {tsize : UInt64} (hmode : Supported session.request.xfermode)
      (hpasses : PassesChecks sys session.filePath)
      (hsize : (sys.filesystem .fileSize).fileSize session.filePath = .ok tsize)
      (hnumbers : ¬AcceptsNumbers session.request.options)
  | blocked {tsize : UInt64} (hmode : Supported session.request.xfermode)
      (hpasses : PassesChecks sys session.filePath)
      (hsize : (sys.filesystem .fileSize).fileSize session.filePath = .ok tsize)
      (hempty : session.request.options.entries.isEmpty = true)
      (hblocked : Blocked sys session ⟨512, 1, tsize⟩)

theorem acceptsNumbers_of_isEmpty {dict : DictionaryType} (h : dict.entries.isEmpty = true) :
    AcceptsNumbers dict :=
  (exists_parseOptions_iff ⟨512, 1, 0⟩ dict).mp ⟨_, parseOptions_empty h _⟩

theorem not_setsockopt {call : TimeoutCall} {dur : UInt64} (hset : timeoutError sys call dur = none)
    {option : SoOption} {e : Exception} : sys.setsockopt call option dur.toUInt32 ≠ some e := by
  intro h
  obtain ⟨e', he'⟩ := exists_setsockopt_iff.mp ⟨option, e, h⟩
  rw [hset] at he'
  cases he'

/-- What is left of it behind `file_size`. -/
theorem silentStart_iff {tsize : UInt64} (hmode : Supported session.request.xfermode)
    (hpasses : PassesChecks sys session.filePath)
    (hsize : (sys.filesystem .fileSize).fileSize session.filePath = .ok tsize)
    (hset : timeoutError sys .first (seconds 1) = none) :
    SilentStart sys session ↔ ¬AcceptsNumbers session.request.options ∨
      session.request.options.entries.isEmpty = true ∧ Blocked sys session ⟨512, 1, tsize⟩ := by
  constructor
  · intro h
    cases h with
    | setsockopt h => exact absurd h (not_setsockopt hset)
    | fileExists _ h => cases hpasses.1.symm.trans h
    | isRegularFile _ _ h => cases hpasses.2.symm.trans h
    | fileSize _ _ h => cases hsize.symm.trans h
    | options _ _ _ hnumbers => exact .inl hnumbers
    | blocked _ _ hsize' hempty hblocked =>
      cases hsize.symm.trans hsize'
      exact .inr ⟨hempty, hblocked⟩
  · rintro (h | ⟨hempty, hblocked⟩)
    · exact .options hmode hpasses hsize h
    · exact .blocked hmode hpasses hsize hempty hblocked

/-- The session behind `validate_filepath`. -/
theorem exits_options (hsys : sys.Sends) (hstop : sys.NoStop)
    (hmode : Supported session.request.xfermode) (hpasses : PassesChecks sys session.filePath)
    (hset : timeoutError sys .first (seconds 1) = none) {io : IoState}
    (hio : ¬Told session.remoteClient io.log) :
    Exits sys session (SilentStart sys session)
      (settle (exec (do
        let tsize ← liftExcept ((sys.filesystem .fileSize).fileSize session.filePath)
        if session.request.options.entries.isEmpty then
          startTransfer sys session ⟨512, 1, tsize⟩
        else
          let (options, oack) ← liftExcept (parseOptions ⟨512, 1, tsize⟩ session.request.options)
          oackLoop sys session options oack maxRetries) io)) := by
  cases hsize : (sys.filesystem .fileSize).fileSize session.filePath with
  | error e =>
    rw [exec_bind_error (exec_liftExcept ..)]
    exact .thrown (iff_of_false hio fun h => h (.fileSize hmode hpasses hsize))
  | ok tsize =>
    have hsilent := silentStart_iff hmode hpasses hsize hset
    rw [exec_bind_ok (exec_liftExcept ..)]
    cases hempty : session.request.options.entries.isEmpty with
    | true =>
      rw [if_pos rfl]
      refine exits_startTransfer hsys hstop session _ hio
        (hsilent.trans ⟨?_, fun h => .inr ⟨hempty, h⟩⟩)
      rintro (h | h)
      · exact absurd (acceptsNumbers_of_isEmpty hempty) h
      · exact h.2
    | false =>
      rw [if_neg Bool.false_ne_true]
      have hnumbers := exists_parseOptions_iff ⟨512, 1, tsize⟩ session.request.options
      cases hparse : parseOptions ⟨512, 1, tsize⟩ session.request.options with
      | error e =>
        rw [exec_bind_error (exec_liftExcept ..)]
        have hrejects : ¬AcceptsNumbers session.request.options := by
          intro haccepts
          obtain ⟨r, hr⟩ := hnumbers.mpr haccepts
          rw [hparse] at hr
          cases hr
        exact .thrown (iff_of_false hio fun h => h (hsilent.mpr (.inl hrejects)))
      | ok r =>
        rw [exec_bind_ok (exec_liftExcept ..)]
        refine exits_oackLoop hsys hstop session r.1 r.2 maxRetries hio ?_
        intro h
        rcases hsilent.mp h with h | h
        · exact h (hnumbers.mp ⟨r, hparse⟩)
        · rw [hempty] at h
          exact Bool.false_ne_true h.1

/-- A transfer mode that is not supported. -/
theorem exec_validateRequest_of_not (hsys : sys.Sends) (hmode : ¬Supported session.request.xfermode)
    (io : IoState) : exec (validateRequest sys session) io =
      (.error (.runtimeError (lit "Unsupported transfer mode: " ++ session.request.xfermode)),
        io.push (.sent (illegalOperation session.remoteClient))) := by
  rw [validateRequest, if_pos (not_or.mp hmode)]
  exact exec_reject_of_sends hsys session Unit _ _ io

/-- The ERROR packet of `validate_filepath`. -/
def fileNotFound (client : AddressV4) : Datagram :=
  errorDatagram ⟨.fileNotFound, TftpPacket.errorCodeToString .fileNotFound⟩ client

theorem exec_sendFileNotFound (hsys : sys.Sends) (session : TftpSessionV4) (io : IoState) :
    exec (send sys (TftpPacket.makeError .fileNotFound) session.remoteClient) io =
      (.ok (), io.push (.sent (fileNotFound session.remoteClient))) := by
  rw [TftpPacket.makeError, TftpPacket.makeErrorString, exec_sendError, hsys.sendto]
  rfl

/-- **`validate_filepath`**, with any two answers. -/
theorem exec_validateFilepath_of_sends (hsys : sys.Sends) (session : TftpSessionV4) (p : Path)
    (io : IoState) : exec (validateFilepath sys session p) io =
      match (sys.filesystem .fileExists).fileExists p,
          (sys.filesystem .isRegularFile).isRegularFile p with
      | .error e, _ => (.error e, io)
      | .ok false, _ => (.error (.runtimeError (lit "File not found: " ++ p.string)),
          io.push (.sent (fileNotFound session.remoteClient)))
      | .ok true, .error e => (.error e, io)
      | .ok true, .ok false => (.error (.runtimeError (lit "Not a file: " ++ p.string)),
          io.push (.sent (fileNotFound session.remoteClient)))
      | .ok true, .ok true => (.ok (), io) := by
  have hreject : ∀ what : StdString, exec (do
      send sys (TftpPacket.makeError .fileNotFound) session.remoteClient
      throw (.runtimeError what) : SessionM Unit) io = (.error (.runtimeError what),
        io.push (.sent (fileNotFound session.remoteClient))) := fun what => by
    rw [exec_bind_ok (exec_sendFileNotFound hsys session io)]
    rfl
  rw [validateFilepath]
  cases (sys.filesystem .fileExists).fileExists p with
  | error e => rw [exec_bind_error (exec_liftExcept ..)]
  | ok found =>
    rw [exec_bind_ok (exec_liftExcept ..)]
    cases found with
    | false =>
      dsimp only
      rw [if_pos (show (!false) = true from rfl),
        exec_bind_ok (exec_sendFileNotFound hsys session io)]
      rfl
    | true =>
      dsimp only
      rw [if_neg (show ¬(!true) = true by decide)]
      cases (sys.filesystem .isRegularFile).isRegularFile p with
      | error e => rw [exec_bind_error (exec_liftExcept ..)]
      | ok regular =>
        rw [exec_bind_ok (exec_liftExcept ..)]
        cases regular with
        | false => exact hreject _
        | true => rfl

/-- A check that rejects the request, and says so. -/
theorem exits_reject {x : SessionM Unit} {payload : TypeError} {e : Exception} {io : IoState}
    (hx : exec x io = (.error e, io.push (.sent (errorDatagram payload session.remoteClient))))
    (rest : Unit → SessionM Control) (hsilent : ¬silent) :
    Exits sys session silent (settle (exec (x >>= rest) io)) := by
  rw [exec_bind_error hx]
  exact .thrown (iff_of_true (told_errorDatagram payload _ io) hsilent)

/-- The session behind `validate_request`. -/
theorem exits_filepath (hsys : sys.Sends) (hstop : sys.NoStop)
    (hmode : Supported session.request.xfermode)
    (hset : timeoutError sys .first (seconds 1) = none) {io : IoState}
    (hio : ¬Told session.remoteClient io.log) :
    Exits sys session (SilentStart sys session)
      (settle (exec (do
        validateFilepath sys session session.filePath
        let tsize ← liftExcept ((sys.filesystem .fileSize).fileSize session.filePath)
        if session.request.options.entries.isEmpty then
          startTransfer sys session ⟨512, 1, tsize⟩
        else
          let (options, oack) ← liftExcept (parseOptions ⟨512, 1, tsize⟩ session.request.options)
          oackLoop sys session options oack maxRetries) io)) := by
  -- a session that sends `fileNotFound` does not end in silence
  have hsilent (hfails : ¬PassesChecks sys session.filePath)
      (hexists : ∀ e, (sys.filesystem .fileExists).fileExists session.filePath ≠ .error e)
      (hregular : (sys.filesystem .fileExists).fileExists session.filePath = .ok true →
        ∀ e, (sys.filesystem .isRegularFile).isRegularFile session.filePath ≠ .error e) :
      ¬SilentStart sys session := by
    intro h
    cases h with
    | setsockopt h => exact not_setsockopt hset h
    | fileExists _ h => exact hexists _ h
    | isRegularFile _ hfound h => exact hregular hfound _ h
    | fileSize _ hpasses _ => exact hfails hpasses
    | options _ hpasses _ _ => exact hfails hpasses
    | blocked _ hpasses _ _ _ => exact hfails hpasses
  have hpath := exec_validateFilepath_of_sends hsys session session.filePath io
  cases hexists : (sys.filesystem .fileExists).fileExists session.filePath with
  | error e =>
    rw [hexists] at hpath
    rw [exec_bind_error hpath]
    exact .thrown (iff_of_false hio fun h => h (.fileExists hmode hexists))
  | ok found =>
    rw [hexists] at hpath
    cases found with
    | false =>
      refine exits_reject hpath _ (hsilent (fun h => ?_) (by simp [hexists]) (by simp [hexists]))
      cases hexists.symm.trans h.1
    | true =>
      cases hregular : (sys.filesystem .isRegularFile).isRegularFile session.filePath with
      | error e =>
        rw [hregular] at hpath
        rw [exec_bind_error hpath]
        exact .thrown (iff_of_false hio fun h => h (.isRegularFile hmode hexists hregular))
      | ok regular =>
        rw [hregular] at hpath
        cases regular with
        | false =>
          refine exits_reject hpath _
            (hsilent (fun h => ?_) (by simp [hexists]) (by simp [hregular]))
          cases hregular.symm.trans h.2
        | true =>
          rw [exec_bind_ok hpath]
          exact exits_options hsys hstop hmode ⟨hexists, hregular⟩ hset hio

/-- **The first state of a session.** -/
theorem exits_start (hsys : sys.Sends) (hstop : sys.NoStop) (session : TftpSessionV4) :
    Exits sys session (SilentStart sys session) (start sys session) := by
  rw [start, ioThread, exec_bind_ok (exec_make_of_socket hsys.socket _)]
  rcases exec_setTimeout_cases sys .first (seconds 1) ⟨[], 0, 0⟩ with
    ⟨hset, htimeout⟩ | ⟨e, io, hset, htimeout, hlog⟩
  · rw [exec_bind_ok htimeout]
    by_cases hmode : Supported session.request.xfermode
    · rw [exec_bind_ok (exec_validateRequest hmode _)]
      exact exits_filepath hsys hstop hmode hset not_told_nil
    · refine exits_reject (exec_validateRequest_of_not hsys hmode _) _ ?_
      intro h
      cases h with
      | setsockopt h => exact not_setsockopt hset h
      | fileExists h | isRegularFile h | fileSize h | options h | blocked h => exact hmode h
  · rw [exec_bind_error htimeout]
    obtain ⟨option, e', he'⟩ := exists_setsockopt_iff.mpr ⟨e, hset⟩
    exact .thrown (iff_of_false (hlog ▸ not_told_nil) fun h => h (.setsockopt he'))

/-! ### Whole runs -/

/-- A run that ends in silence: at its start, or on one of its outcomes. -/
def SilentRun (sys : System) (session : TftpSessionV4) (os : List RecvOutcome) : Prop :=
  SilentStart sys session ∨ ∃ os₁ o, os₁ ++ [o] <+: os ∧
    SilentOn sys session (run sys session os₁).control o

theorem silentRun_nil : SilentRun sys session [] ↔ SilentStart sys session := by
  rw [SilentRun]
  refine or_iff_left ?_
  rintro ⟨os₁, o, h, -⟩
  simp at h

theorem silentRun_append_singleton (os : List RecvOutcome) (o : RecvOutcome) :
    SilentRun sys session (os ++ [o]) ↔
      SilentRun sys session os ∨ SilentOn sys session (run sys session os).control o := by
  rw [SilentRun, SilentRun, or_assoc]
  refine or_congr_right ⟨?_, ?_⟩
  · rintro ⟨os₁, o₁, h, hsilent⟩
    rcases List.prefix_concat_iff.mp h with h | h
    · obtain ⟨rfl, rfl⟩ := List.append_singleton_inj.mp h
      exact .inr hsilent
    · exact .inl ⟨os₁, o₁, h, hsilent⟩
  · rintro (⟨os₁, o₁, h, hsilent⟩ | hsilent)
    · exact ⟨os₁, o₁, h.trans (List.prefix_append _ _), hsilent⟩
    · exact ⟨os, o, List.prefix_rfl, hsilent⟩

/-- **What a run leaves.** -/
theorem exits_run (hsys : sys.Sends) (hstop : sys.NoStop) (session : TftpSessionV4)
    (os : List RecvOutcome) :
    Exits sys session (SilentRun sys session os) (run sys session os) := by
  induction os using List.reverseRecOn with
  | nil =>
    rw [silentRun_nil]
    exact exits_start hsys hstop session
  | append_singleton os o ih =>
    rw [silentRun_append_singleton, run_append_singleton]
    exact exits_step hsys hstop ih o

/-- A session that has ended by an exception, and whose client has sent no ERROR packet, has sent
one to the client. -/
def Reported (session : TftpSessionV4) (s : State) : Prop :=
  ∀ e, s.control = .thrown e →
    (∀ bits payload, .received (.datagram session.remoteClient bits) ∈ s.io.log →
      TftpPacket.ofBits bits ≠ .ok (.error payload)) →
    ∃ d, .sent d ∈ s.io.log ∧ d.target = session.remoteClient ∧ d.IsError

theorem reported_of_not_thrown {s : State} (h : ∀ e, s.control ≠ .thrown e) :
    Reported session s := fun e he => absurd he (h e)

theorem told_iff {client : AddressV4} {log : List Event} :
    Told client log ↔
      (∃ bits payload, .received (.datagram client bits) ∈ log ∧
        TftpPacket.ofBits bits = .ok (.error payload)) ∨
      ∃ d, .sent d ∈ log ∧ d.target = client ∧ d.IsError := by
  constructor
  · rintro ⟨ev, hev, htells⟩
    cases ev with
    | received o =>
      cases o with
      | datagram source bits =>
        obtain ⟨rfl, payload, hpayload⟩ := htells
        exact .inl ⟨bits, payload, hev, hpayload⟩
      | timedOut | failed e he => exact htells.elim
    | sent d => exact .inr ⟨d, hev, htells⟩
    | sendFailed d e | opened path => exact htells.elim
  · rintro (⟨bits, payload, hev, hpayload⟩ | ⟨d, hev, htells⟩)
    · exact ⟨_, hev, rfl, payload, hpayload⟩
    · exact ⟨_, hev, htells⟩

theorem reported_thrown_iff {e : Exception} {io : IoState} :
    Reported session ⟨.thrown e, io⟩ ↔ Told session.remoteClient io.log := by
  rw [told_iff, Reported]
  constructor
  · intro h
    by_cases herror : ∃ bits payload, .received (.datagram session.remoteClient bits) ∈ io.log ∧
        TftpPacket.ofBits bits = .ok (.error payload)
    · exact .inl herror
    · exact .inr (h e rfl fun bits payload hev hpayload => herror ⟨bits, payload, hev, hpayload⟩)
  · rintro (⟨bits, payload, hev, hpayload⟩ | h) e' - hnone
    · exact absurd hpayload (hnone bits payload hev)
    · exact h

/-- **The failures that are reported**: all but those of a run that ends in silence. -/
theorem reported_iff (hsys : sys.Sends) (hstop : sys.NoStop) (session : TftpSessionV4)
    (os : List RecvOutcome) :
    Reported session (run sys session os) ↔ ¬SilentRun sys session os := by
  have hexits := exits_run hsys hstop session os
  generalize run sys session os = s at hexits
  cases hexits with
  | oackSent hpos htold hsilent =>
    exact iff_of_true (reported_of_not_thrown (by simp)) hsilent
  | dataSent hpos htold hsilent => exact iff_of_true (reported_of_not_thrown (by simp)) hsilent
  | finished hsilent => exact iff_of_true (reported_of_not_thrown (by simp)) hsilent
  | thrown htold => rw [reported_thrown_iff, htold]

/-- An acknowledgement ends no session in silence. -/
theorem not_deaf_ackOf (session : TftpSessionV4) (number : UInt64) :
    ¬Deaf session (session.ackOf number) := by
  have hbits : TftpPacket.ackBits (UInt16.ofNat number.toNat) ≠ [] := by
    intro h
    have hempty := isEmpty_ackBits (UInt16.ofNat number.toNat)
    rw [h] at hempty
    cases hempty
  rw [ackOf, deaf_iff session _ hbits (TftpPacket.ofBits_ackBits _)]
  exact fun h => h.1 rfl

theorem acknowledges_ackOf {number : UInt64} {k : ℕ} (h : Acknowledges (session.ackOf number) k) :
    UInt16.ofNat number.toNat = UInt16.ofNat k := by
  rw [ackOf, acknowledges_iff _ (TftpPacket.ofBits_ackBits _)] at h
  exact congrArg TypeAck.blockId (TftpPacket.ack.inj h)

/-- **An acknowledgement of another block** is answered with an ERROR packet. -/
theorem reported_unexpectedAck :
    Reported shortBlocks (run (.serving ⟨[65, 66, 67], by decide⟩) shortBlocks
      [shortBlocks.ackOf 7]) := by
  refine (reported_iff ⟨rfl, fun _ _ => rfl⟩ (System.noStop_serving _)
    shortBlocks _).mpr ?_
  rw [← List.nil_append [shortBlocks.ackOf 7], silentRun_append_singleton, silentRun_nil]
  generalize (run (.serving ⟨[65, 66, 67], by decide⟩) shortBlocks []).control = control
  rintro (h | h)
  · cases h with
    | setsockopt h | fileExists _ h | isRegularFile _ _ h | fileSize _ _ h => cases h
    | options _ _ _ h => exact h ((exists_parseOptions_iff ⟨512, 1, 3⟩ _).mp ⟨_, rfl⟩)
    | blocked _ _ _ h _ => exact absurd h (by decide)
  · cases control with
    | oackSent n options oack =>
      rcases h with h | ⟨h, -⟩
      · exact not_deaf_ackOf _ _ h
      · exact absurd (acknowledges_ackOf h) (by decide)
    | dataSent n reader =>
      rcases h with h | ⟨-, h⟩
      · exact not_deaf_ackOf _ _ h
      · cases h
    | finished reader => exact h
    | thrown e => exact h

/-- **A block whose retries are used up** is given up in silence. -/
theorem not_reported : ¬Reported shortBlocks
    (run (.serving ⟨[65, 66, 67], by decide⟩) shortBlocks
      (shortBlocks.ackOf 0 :: List.replicate 10 .timedOut)) := by
  intro h
  have hlog : ∀ ev ∈ (run (.serving ⟨[65, 66, 67], by decide⟩) shortBlocks
      (shortBlocks.ackOf 0 :: List.replicate 10 .timedOut)).io.log,
      ev = .opened shortBlocks.filePath ∨ ev = .received .timedOut ∨
        ev = .received (shortBlocks.ackOf 0) ∨
        ev = .sent (oackDatagram shortBlocks.request.options shortBlocks.remoteClient) ∨
        ev = .sent ⟨shortBlocks.remoteClient, TftpPacket.dataBits 1 [65, 66]⟩ := by
    decide +kernel
  have hreceived : ∀ bits payload, Event.received (.datagram shortBlocks.remoteClient bits) ∈
      (run (.serving ⟨[65, 66, 67], by decide⟩) shortBlocks
        (shortBlocks.ackOf 0 :: List.replicate 10 .timedOut)).io.log →
      TftpPacket.ofBits bits ≠ .ok (.error payload) := by
    intro bits payload hev hpayload
    rcases hlog _ hev with h | h | h | h | h
    · cases h
    · cases h
    · obtain ⟨-, rfl⟩ := RecvOutcome.datagram.inj (Event.received.inj h)
      rw [TftpPacket.ofBits_ackBits] at hpayload
      cases hpayload
    · cases h
    · cases h
  obtain ⟨d, hd, -, herror⟩ := h
    (.runtimeError (lit "Failed to send DATA packet, too many retries.")) (by decide +kernel)
    hreceived
  rcases hlog _ hd with h | h | h | h | h
  · cases h
  · cases h
  · cases h
  · exact not_isError_oackDatagram _ _ (Event.sent.inj h ▸ herror)
  · rw [Event.sent.inj h] at herror
    exact absurd herror (by decide +kernel)

end TftpSessionV4

end Bootpd
