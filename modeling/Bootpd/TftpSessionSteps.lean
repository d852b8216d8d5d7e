import Bootpd.TftpSessionV4

/-!
# What one step of a session can do

Each function of the session gets one lemma that says what it logs and how it ends, for sockets
that may fail at any call. Together they give `step_oackSent` and `step_dataSent`: the complete
list of what one receive outcome can lead to. Everything proved about runs goes through these two
and `start_cases`.

The file that is served is fixed here: a regular file, readable or not.

## How the lemmas compose

A computation of `SessionM` only adds to the log, so that `Logs x P` can say what it adds and how it
ends, whatever the log was before, and `Logs.bind` puts two of them together. The lists of cases
are inductive families over the outcome and the added events: `LoopLog`, `TransferLog` and
`StartLog` for the computations up to a `recv`, `OackStep` and `DataStep` for what follows one.

What a session sends on the side, the ERROR packets, the receives and the opening of its file, is
`Minor`: no theorem about the DATA packets wants to know more of it than that it is neither DATA nor
OACK.

## The options in use

`parseOptions` is read back as well: which texts it accepts, what number each of them is, and what
the OACK says. `optionsInUse` is that for a request and its file, and the theorems about whole
transfers take its result as their hypothesis.

## Main results

* `start_cases` — the session up to its first `recv`
* `step_oackSent` — one outcome while the acknowledgement of an OACK is awaited
* `step_dataSent` — one outcome while the acknowledgement of a DATA packet is awaited
* `exists_parseOptions_iff` — the options that a session accepts
-/

namespace Bootpd

open Imperative SocketUdp

/-! ### Block numbers -/

theorem toNat_and_mask (number : UInt64) : (number &&& 0xffff).toNat = number.toNat % 2 ^ 16 := by
  have hmask : (0xffff : UInt64).toNat = 2 ^ 16 - 1 := rfl
  rw [UInt64.toNat_and, hmask, Nat.and_two_pow_sub_one_eq_mod]

theorem toUInt16_and_mask (number : UInt64) :
    (number &&& 0xffff).toUInt16 = UInt16.ofNat number.toNat := by
  apply UInt16.toNat_inj.mp
  rw [UInt64.toNat_toUInt16, toNat_and_mask, Nat.mod_mod, UInt16.toNat_ofNat']

theorem eq_and_mask_iff (blockId : UInt16) (number : UInt64) :
    blockId.toUInt64 = number &&& 0xffff ↔ blockId = UInt16.ofNat number.toNat := by
  rw [← UInt64.toNat_inj, ← UInt16.toNat_inj, toNat_and_mask, UInt16.toNat_toUInt64,
    UInt16.toNat_ofNat']

/-! ### Waiting -/

/-- What a waiting session goes on with once its packet is acknowledged: the local variables of
its loop, without the retry counter. -/
def Control.awaited : Control → Option (OptionsType × DictionaryType ⊕ TftpReader)
  | .oackSent _ options oack => some (.inl (options, oack))
  | .dataSent _ reader => some (.inr reader)
  | _ => none

/-- The session waits for an acknowledgement. -/
def Control.Waiting (control : Control) : Prop := control.awaited ≠ none

instance (control : Control) : Decidable control.Waiting :=
  inferInstanceAs (Decidable (_ ≠ _))

/-! ### Events and outcomes -/

/-- The events of a session besides receiving and sending DATA or OACK. The only file it opens is
the one at `path`. -/
inductive Minor (path : Path) : Event → Prop where
  | sendFailed (d : Datagram) (e : Exception) : Minor path (.sendFailed d e)
  | sentError (target : AddressV4) (rest : List UInt8) :
      Minor path (.sent ⟨target, Scalar.encode .network tftpOpcodeError ++ rest⟩)
  | opened : Minor path (.opened path)

def Minors (path : Path) (es : List Event) : Prop := ∀ ev ∈ es, Minor path ev

theorem Minors.nil {path : Path} : Minors path [] := by simp [Minors]

theorem Minors.append {path : Path} {es es' : List Event} (h : Minors path es)
    (h' : Minors path es') : Minors path (es ++ es') := by
  intro ev hev
  exact (List.mem_append.mp hev).elim (h ev) (h' ev)

theorem Minors.singleton {path : Path} {ev : Event} (h : Minor path ev) : Minors path [ev] := by
  intro ev' hev'
  rwa [List.mem_singleton.mp hev']

/-- `o` brings an ACK of block `k`, or of the OACK for `k = 0`: the number on the wire has 16
bits. Where it comes from does not matter to the session. -/
def Acknowledges (o : RecvOutcome) (k : ℕ) : Prop :=
  ∃ source bits, o = .datagram source bits ∧
    TftpPacket.ofBits bits = .ok (.ack ⟨UInt16.ofNat k⟩)

/-- The DATA packet of a reader, as the session sends it. -/
def TftpReader.datagram (r : TftpReader) (target : AddressV4) : Datagram :=
  ⟨target, TftpPacket.dataBits (UInt16.ofNat r.number.toNat) r.buffer⟩

/-- The OACK packet, as the session sends it. -/
def oackDatagram (oack : DictionaryType) (target : AddressV4) : Datagram :=
  ⟨target, Scalar.encode .network tftpOpcodeOack ++ TftpPacket.optionsBits oack⟩

theorem serialize_readerData (r : TftpReader) (target : AddressV4) :
    serializeToVector r.data = .ok (r.datagram target).bits := by
  rw [TftpReader.data, TftpPacket.makeData, TftpPacket.serialize_data, toUInt16_and_mask]
  rfl

namespace TftpSessionV4

variable {sys : System} {session : TftpSessionV4}

/-! ### The calls -/

/-- Sending an ERROR packet logs a minor event. -/
theorem logs_sendError (payload : TypeError) (target : AddressV4) :
    Logs IoState.log (send sys (TftpPacket.error payload) target)
      fun _ es => Minors session.filePath es := by
  refine (logs_send (TftpPacket.serialize_error payload) target).mono ?_
  rintro r es (_ | e)
  · exact Minors.singleton (.sentError _ _)
  · exact Minors.singleton (.sendFailed _ _)

theorem logs_validateSource (fromClient : AddressV4) :
    Logs IoState.log (validateSource sys session fromClient)
      fun _ es => Minors session.filePath es := by
  rw [validateSource]
  split
  · exact logs_sendError _ _
  · exact Logs.pure Minors.nil

/-- Answering with an ERROR packet and throwing. -/
theorem logs_reject {α : Type} (payload : TypeError) (e : Exception) :
    Logs IoState.log (do
        send sys (TftpPacket.error payload) session.remoteClient
        throw e : SessionM α)
      fun r es => (∃ e, r = .error e) ∧ Minors session.filePath es := by
  refine (logs_sendError payload _).bind (fun _ => Logs.throw (P := fun r es =>
    (∃ e, r = .error e) ∧ es = []) ⟨⟨e, rfl⟩, rfl⟩) (fun e es hes => ⟨⟨e, rfl⟩, hes⟩) ?_
  rintro _ es r _ hes ⟨hr, rfl⟩
  exact ⟨hr, by simpa using hes⟩

theorem validateAck_ack (blockId : UInt16) (number : UInt64) :
    validateAck sys session (.ack ⟨blockId⟩) number =
      if blockId = UInt16.ofNat number.toNat then pure () else (do
        send sys (TftpPacket.makeError .illegalOperation) session.remoteClient
        throw (unexpectedAck number blockId)) := by
  unfold validateAck
  simp only [ne_eq, eq_and_mask_iff, ite_not]

/-- `validate_ack` passes an ACK of the block and nothing else. -/
theorem logs_validateAck (packet : TftpPacket) (number : UInt64) :
    Logs IoState.log (validateAck sys session packet number)
      fun r es => (r = .ok () → packet = .ack ⟨UInt16.ofNat number.toNat⟩) ∧
        Minors session.filePath es := by
  have hreject : ∀ {e : Exception}, Logs IoState.log (do
      send sys (TftpPacket.makeError .illegalOperation) session.remoteClient
      throw e : SessionM Unit)
      fun r es => (r = .ok () → packet = .ack ⟨UInt16.ofNat number.toNat⟩) ∧
        Minors session.filePath es := by
    intro e
    refine (logs_reject _ _).mono ?_
    rintro r es ⟨⟨e, rfl⟩, hes⟩
    exact ⟨by simp, hes⟩
  cases packet with
  | error payload => exact Logs.throw ⟨by simp, Minors.nil⟩
  | ack payload =>
    rw [validateAck_ack]
    split
    · rename_i h
      exact Logs.pure ⟨fun _ => by rw [← h], Minors.nil⟩
    · exact hreject
  | monostate => exact hreject
  | rrq payload => exact hreject
  | wrq payload => exact hreject
  | data payload => exact hreject
  | oack payload => exact hreject

/-- What follows a receive: at most two ERROR packets, and success only on an acknowledgement. -/
theorem logs_checkAck (number : UInt64) (fromClient : AddressV4) (packetBits : List UInt8) :
    Logs IoState.log (do
        validateSource sys session fromClient
        let packet ← liftExcept (TftpPacket.ofBits packetBits)
        validateAck sys session packet number)
      fun r es => (r = .ok () →
        TftpPacket.ofBits packetBits = .ok (.ack ⟨UInt16.ofNat number.toNat⟩)) ∧
          Minors session.filePath es := by
  refine (logs_validateSource fromClient).bind (F := fun _ r es => (r = .ok () →
    TftpPacket.ofBits packetBits = .ok (.ack ⟨UInt16.ofNat number.toNat⟩)) ∧
      Minors session.filePath es) (fun _ => ?_) (fun e es hes => ⟨by simp, hes⟩) ?_
  · refine Logs.bind (P := fun r es => r = TftpPacket.ofBits packetBits ∧ es = [])
      (Logs.liftExcept ⟨rfl, rfl⟩) (fun packet => logs_validateAck packet number) ?_ ?_
    · rintro e es ⟨-, rfl⟩
      exact ⟨by simp, Minors.nil⟩
    · rintro packet es r es' ⟨hpacket, rfl⟩ ⟨hok, hes'⟩
      exact ⟨fun hr => by rw [← hpacket, hok hr], by simpa using hes'⟩
  · rintro _ es r es' hes ⟨hok, hes'⟩
    exact ⟨hok, hes.append hes'⟩

/-- **The half of a loop behind `recv`**: the receive, then at most two ERROR packets. It gets
through only on an acknowledgement of the block. -/
theorem logs_awaitAck (number : UInt64) (o : RecvOutcome) :
    Logs IoState.log (awaitAck sys session number o)
      fun r es => ∃ minor, es = .received o :: minor ∧ (Minors session.filePath minor) ∧
        (r = .ok () → Acknowledges o number.toNat) := by
  have hrecv : Logs IoState.log (recv o) fun r es => r = recvResult o ∧ es = [.received o] := by
    intro s
    rw [exec_recv]
    exact ⟨_, rfl, rfl, rfl⟩
  refine hrecv.bind (fun a => logs_checkAck number a.1 a.2) ?_ ?_
  · rintro e es ⟨-, rfl⟩
    exact ⟨[], rfl, Minors.nil, by simp⟩
  · rintro ⟨source, bits⟩ es r es' ⟨ha, rfl⟩ ⟨hok, hes'⟩
    exact ⟨es', rfl, hes', fun hr =>
      ⟨source, bits, eq_datagram_of_recvResult ha.symm, hok hr⟩⟩

/-! ### After a `try` -/

section OnTimeout

variable {α β : Type} {retry : SessionM β} {rest : α → SessionM β}

@[simp] theorem onTimeout_ok (a : α) : onTimeout (.ok a) retry rest = rest a := rfl

@[simp] theorem onTimeout_timedOut (what : StdString) :
    onTimeout (.error (.socketTimedOut what)) retry rest = retry := rfl

theorem onTimeout_error {e : Exception} (h : ∀ what, e ≠ .socketTimedOut what) :
    onTimeout (.error e) retry rest = throw e := by
  cases e with
  | socketTimedOut what => exact absurd rfl (h what)
  | _ => rfl

/-- After an exception: the retry, or the exception goes on. -/
theorem onTimeout_error_or (retry : SessionM β) (rest : α → SessionM β) (e : Exception) :
    onTimeout (.error e) retry rest = retry ∨ onTimeout (.error e) retry rest = throw e := by
  by_cases h : ∃ what, e = .socketTimedOut what
  · obtain ⟨what, rfl⟩ := h
    exact .inl rfl
  · exact .inr (onTimeout_error fun what he => h ⟨what, he⟩)

/-- After a `try`: its rest, or the retry, or the exception goes on. -/
theorem logs_onTimeout (r : Except Exception α) {P : Except Exception β → List Event → Prop}
    {Q : α → Except Exception β → List Event → Prop} (hretry : Logs IoState.log retry P)
    (hrest : ∀ a, Logs IoState.log (rest a) (Q a)) :
    Logs IoState.log (onTimeout r retry rest) fun r' es =>
      (∃ a, r = .ok a ∧ Q a r' es) ∨
        ∃ e, r = .error e ∧ (P r' es ∨ (∃ e, r' = .error e) ∧ es = []) := by
  cases r with
  | ok a => exact (hrest a).mono fun r' es h => .inl ⟨a, rfl, h⟩
  | error e =>
    rcases onTimeout_error_or retry rest e with h | h <;> rw [h]
    · exact hretry.mono fun r' es h => .inr ⟨e, rfl, .inl h⟩
    · exact Logs.throw (.inr ⟨e, rfl, .inr ⟨⟨e, rfl⟩, rfl⟩⟩)

end OnTimeout

/-! ### The loops -/

/-- How a loop gets to its next `recv`, if it does: the packet `d` is sent, after minor events, and
some of the `budget` retries are left. -/
inductive LoopLog (path : Path) (waiting : ℕ → Control) (d : Datagram) (budget : ℕ) :
    Except Exception Control → List Event → Prop where
  | waits {minor : List Event} {n : ℕ} (hminor : Minors path minor) (hpos : 0 < n)
      (hle : n ≤ budget) : LoopLog path waiting d budget (.ok (waiting n)) (minor ++ [.sent d])
  | throws {minor : List Event} (e : Exception) (hminor : Minors path minor) :
      LoopLog path waiting d budget (.error e) minor

theorem LoopLog.append_left {path : Path} {waiting : ℕ → Control} {d : Datagram}
    {budget budget' : ℕ} {r : Except Exception Control} {es minor : List Event}
    (h : LoopLog path waiting d budget r es) (hminor : Minors path minor)
    (hle : budget ≤ budget') : LoopLog path waiting d budget' r (minor ++ es) := by
  cases h with
  | waits hminor' hpos hn =>
    rw [← List.append_assoc]
    exact .waits (hminor.append hminor') hpos (hn.trans hle)
  | throws e hminor' => exact .throws e (hminor.append hminor')

/-- One pass of a loop up to `recv`: a send that times out goes round again. -/
theorem exec_sendLoop_succ {packet : TftpPacket} {bits : List UInt8}
    (hbits : serializeToVector packet = .ok bits) (waiting : ℕ → Control)
    (stopped exhausted : SessionM Control) (n : ℕ) (s : IoState) :
    exec (sendLoop sys session packet waiting stopped exhausted (n + 1)) s =
      if sys.stopRequested s.log then exec stopped s
      else match sys.sendto s.log ⟨session.remoteClient, bits⟩ with
        | none => (.ok (waiting (n + 1)), s.push (.sent ⟨session.remoteClient, bits⟩))
        | some e => exec (onTimeout (.error e)
            (sendLoop sys session packet waiting stopped exhausted n) fun _ : Unit =>
              return waiting (n + 1)) (s.push (.sendFailed ⟨session.remoteClient, bits⟩ e)) := by
  rw [sendLoop, exec_bind_ok (exec_get s)]
  cases sys.stopRequested s.log
  · rw [if_neg Bool.false_ne_true, if_neg Bool.false_ne_true, exec_bind_ok (exec_observing ..),
      exec_send hbits]
    cases sys.sendto s.log ⟨session.remoteClient, bits⟩ <;> rfl
  · rw [if_pos rfl, if_pos rfl]

/-- **The half of a loop in front of `recv`**, for a packet that can be serialised. The induction
is on the retries that are left: only a send that timed out goes round again. -/
theorem logs_sendLoop (hstop : sys.NoStop) {packet : TftpPacket} {bits : List UInt8}
    (hbits : serializeToVector packet = .ok bits) (waiting : ℕ → Control)
    (stopped : SessionM Control) {exhausted : SessionM Control}
    (hexhausted : Logs IoState.log exhausted
      fun r es => (∃ e, r = .error e) ∧ Minors session.filePath es) (retryCounter : ℕ) :
    Logs IoState.log (sendLoop sys session packet waiting stopped exhausted retryCounter)
      (LoopLog session.filePath waiting ⟨session.remoteClient, bits⟩ retryCounter) := by
  induction retryCounter with
  | zero =>
    refine hexhausted.mono ?_
    rintro _ es ⟨⟨e, rfl⟩, hes⟩
    exact .throws e hes
  | succ n ih =>
    intro s
    rw [exec_sendLoop_succ hbits, hstop s.log, if_neg Bool.false_ne_true]
    cases sys.sendto s.log ⟨session.remoteClient, bits⟩ with
    | none => exact ⟨_, rfl, .waits Minors.nil n.succ_pos le_rfl⟩
    | some e =>
      have hminor : Minors session.filePath [.sendFailed ⟨session.remoteClient, bits⟩ e] :=
        Minors.singleton (.sendFailed _ _)
      dsimp only
      rcases onTimeout_error_or (sendLoop sys session packet waiting stopped exhausted n)
        (fun _ : Unit => return waiting (n + 1)) e with h | h <;> rw [h]
      · obtain ⟨es, hlog, hes⟩ := ih (s.push (.sendFailed ⟨session.remoteClient, bits⟩ e))
        refine ⟨[.sendFailed ⟨session.remoteClient, bits⟩ e] ++ es, ?_,
          hes.append_left hminor n.le_succ⟩
        rw [hlog, IoState.log_push, List.append_assoc]
      · exact ⟨_, rfl, .throws e hminor⟩

/-- The loop of `io_thread`. -/
theorem logs_dataLoop (hstop : sys.NoStop) (reader : TftpReader) (retryCounter : ℕ) :
    Logs IoState.log (dataLoop sys session reader retryCounter)
      (LoopLog session.filePath (fun n => .dataSent n reader) (reader.datagram session.remoteClient)
        retryCounter) :=
  logs_sendLoop hstop (serialize_readerData reader session.remoteClient) _ _
    (Logs.throw ⟨⟨_, rfl⟩, Minors.nil⟩) retryCounter

/-- The loop of `validate_options`. -/
theorem logs_oackLoop (hstop : sys.NoStop) (options : OptionsType) (oack : DictionaryType)
    (retryCounter : ℕ) :
    Logs IoState.log (oackLoop sys session options oack retryCounter)
      (LoopLog session.filePath (fun n => .oackSent n options oack)
        (oackDatagram oack session.remoteClient) retryCounter) :=
  logs_sendLoop hstop (TftpPacket.serialize_oack ⟨oack⟩) _ _ (logs_reject _ _) retryCounter

/-! ### The reader of a transfer -/

/-- The reader a transfer starts with, at block 1. -/
def FirstReader (sys : System) (session : TftpSessionV4) (options : OptionsType)
    (reader : TftpReader) : Prop :=
  ∃ length, TftpReader.lengthOf sys session.filePath options.tsize = .ok length ∧
    reader = (TftpReader.initial (Ifstream.ofPath (sys.filesystem .stream) session.filePath
      (session.request.xfermode == lit "octet")) length options.blksize).next

theorem logs_makeReader (options : OptionsType) :
    Logs IoState.log (TftpReader.make sys session.filePath options.tsize options.blksize
        (session.request.xfermode == lit "octet"))
      fun r es => Minors session.filePath es ∧
        ∀ reader, r = .ok reader → FirstReader sys session options reader := by
  rw [TftpReader.make]
  refine Logs.bind (P := fun _ es => es = [.opened session.filePath]) (fun s => ⟨_, rfl, rfl⟩)
    (fun _ => Logs.bind (Logs.liftExcept (P := fun r es => r =
        TftpReader.lengthOf sys session.filePath options.tsize ∧ es = []) ⟨rfl, rfl⟩)
        (F := fun length r es => es = [] ∧ ∀ reader, r = .ok reader →
          reader = (TftpReader.initial (Ifstream.ofPath (sys.filesystem .stream) session.filePath
            (session.request.xfermode == lit "octet")) length options.blksize).next)
        (Q := fun r es => es = [] ∧ ∀ reader, r = .ok reader →
          FirstReader sys session options reader) (fun length => ?_) ?_ ?_) ?_ ?_
  · by_cases h : sys.canAllocate options.blksize
    · simp only [h, Bool.not_true, Bool.false_eq_true, if_false]
      exact Logs.pure ⟨rfl, by rintro _ ⟨⟩; rfl⟩
    · simp only [h, Bool.not_false, if_true]
      exact Logs.throw ⟨rfl, by rintro _ ⟨⟩⟩
  · rintro e es ⟨-, rfl⟩
    exact ⟨rfl, by rintro _ ⟨⟩⟩
  · rintro length es r es' ⟨hlength, rfl⟩ ⟨rfl, hr⟩
    exact ⟨rfl, fun reader h => ⟨length, hlength.symm, hr reader h⟩⟩
  · rintro e es rfl
    exact ⟨Minors.singleton .opened, by rintro _ ⟨⟩⟩
  · rintro _ es r es' rfl ⟨rfl, hr⟩
    exact ⟨Minors.singleton .opened, hr⟩

/-- How a transfer starts: with the first block sent, or an exception. -/
inductive TransferLog (sys : System) (session : TftpSessionV4) (options : OptionsType) :
    Except Exception Control → List Event → Prop where
  | waits {minor : List Event} {n : ℕ} {reader : TftpReader}
      (hreader : FirstReader sys session options reader)
      (hminor : Minors session.filePath minor) (hpos : 0 < n) (hle : n ≤ maxRetries) :
      TransferLog sys session options (.ok (.dataSent n reader))
        (minor ++ [.sent (reader.datagram session.remoteClient)])
  | throws {minor : List Event} (e : Exception) (hminor : Minors session.filePath minor) :
      TransferLog sys session options (.error e) minor

theorem logs_startTransfer (hstop : sys.NoStop) (session : TftpSessionV4)
    (options : OptionsType) :
    Logs IoState.log (startTransfer sys session options) (TransferLog sys session options) := by
  rw [startTransfer]
  refine (quiet_timeout _ _).bind (Q := TransferLog sys session options)
    (F := fun _ => TransferLog sys session options) (fun _ => ?_) ?_ ?_
  · refine (logs_makeReader options).bind
      (fun reader => logs_dataLoop hstop reader maxRetries) ?_ ?_
    · rintro e es ⟨hes, -⟩
      exact .throws e hes
    · rintro reader es r es' ⟨hes, hreader⟩ h
      have h' := h.append_left hes le_rfl
      generalize es ++ es' = es'' at h' ⊢
      cases h' with
      | waits hminor hpos hle => exact .waits (hreader reader rfl) hminor hpos hle
      | throws e hminor => exact .throws e hminor
  · rintro e es rfl
    exact .throws e Minors.nil
  · rintro _ es r es' rfl h
    exact h

theorem TransferLog.append_left {options : OptionsType} {r : Except Exception Control}
    {es minor : List Event} (h : TransferLog sys session options r es)
    (hminor : Minors session.filePath minor) :
    TransferLog sys session options r (minor ++ es) := by
  cases h with
  | waits hreader hminor' hpos hle =>
    rw [← List.append_assoc]
    exact .waits hreader (hminor.append hminor') hpos hle
  | throws e hminor' => exact .throws e (hminor.append hminor')

/-! ### The beginning of a session -/

theorem logs_validateRequest :
    Logs IoState.log (validateRequest sys session) fun _ es => Minors session.filePath es := by
  rw [validateRequest]
  split
  · exact (logs_reject _ _).mono fun _ _ h => h.2
  · exact Logs.pure Minors.nil

theorem logs_validateFilepath (filePath : Path) :
    Logs IoState.log (validateFilepath sys session filePath)
      fun _ es => Minors session.filePath es := by
  have hreject : ∀ (e : Exception) (rest : Unit → SessionM Unit), Logs IoState.log (do
      send sys (TftpPacket.makeError .fileNotFound) session.remoteClient
      let u ← throw e
      rest u) fun _ es => Minors session.filePath es := fun e rest =>
    LogsOnly.bind (logs_sendError _ _) fun _ => Logs.throw Minors.nil
  rw [validateFilepath]
  refine LogsOnly.bind (Logs.liftExcept Minors.nil) fun found => ?_
  cases found
  · exact hreject _ _
  · refine LogsOnly.bind (Logs.liftExcept Minors.nil) fun regular => ?_
    cases regular
    · exact (logs_reject _ _).mono fun _ _ h => h.2
    · exact Logs.pure Minors.nil

/-- How a session starts: with the OACK sent, or like a transfer, or with an exception. -/
inductive StartLog (sys : System) (session : TftpSessionV4) :
    Except Exception Control → List Event → Prop where
  | oackSent {minor : List Event} {n : ℕ} {tsize : UInt64} {options : OptionsType}
      {oack : DictionaryType}
      (hsize : (sys.filesystem .fileSize).fileSize session.filePath = .ok tsize)
      (hoptions : session.request.options.entries.isEmpty = false)
      (hparse : parseOptions ⟨512, 1, tsize⟩ session.request.options = .ok (options, oack))
      (hminor : Minors session.filePath minor) (hpos : 0 < n) (hle : n ≤ maxRetries) :
      StartLog sys session (.ok (.oackSent n options oack))
        (minor ++ [.sent (oackDatagram oack session.remoteClient)])
  | dataSent {minor : List Event} {n : ℕ} {tsize : UInt64} {reader : TftpReader}
      (hsize : (sys.filesystem .fileSize).fileSize session.filePath = .ok tsize)
      (hoptions : session.request.options.entries.isEmpty = true)
      (hreader : FirstReader sys session ⟨512, 1, tsize⟩ reader)
      (hminor : Minors session.filePath minor) (hpos : 0 < n) (hle : n ≤ maxRetries) :
      StartLog sys session (.ok (.dataSent n reader))
        (minor ++ [.sent (reader.datagram session.remoteClient)])
  | throws {minor : List Event} (e : Exception) (hminor : Minors session.filePath minor) :
      StartLog sys session (.error e) minor

theorem StartLog.append_left {r : Except Exception Control} {es minor : List Event}
    (h : StartLog sys session r es) (hminor : Minors session.filePath minor) :
    StartLog sys session r (minor ++ es) := by
  cases h with
  | oackSent hsize hoptions hparse hminor' hpos hle =>
    rw [← List.append_assoc]
    exact .oackSent hsize hoptions hparse (hminor.append hminor') hpos hle
  | dataSent hsize hoptions hreader hminor' hpos hle =>
    rw [← List.append_assoc]
    exact .dataSent hsize hoptions hreader (hminor.append hminor') hpos hle
  | throws e hminor' => exact .throws e (hminor.append hminor')

theorem logs_ioThread (hstop : sys.NoStop) (session : TftpSessionV4) :
    Logs IoState.log (ioThread sys session) (StartLog sys session) := by
  have hfirst : ∀ {α : Type} {x : SessionM α} {f : α → SessionM Control},
      Logs IoState.log x (fun _ es => Minors session.filePath es) →
      (∀ a, Logs IoState.log (f a) (StartLog sys session)) →
      Logs IoState.log (x >>= f) (StartLog sys session) := by
    intro α x f hx hf
    exact hx.bind hf (fun e es hes => .throws e hes) fun _ _ _ _ hes h => h.append_left hes
  have hquiet : ∀ {α : Type} {x : SessionM α}, Quiet x →
      Logs IoState.log x fun _ es => Minors session.filePath es := by
    intro α x hx
    exact hx.mono fun _ es hes => hes ▸ Minors.nil
  rw [ioThread]
  refine hfirst (hquiet quiet_make) fun _ => hfirst (hquiet (quiet_timeout _ _)) fun _ =>
    hfirst logs_validateRequest fun _ => hfirst (logs_validateFilepath _) fun _ => ?_
  refine Logs.bind
    (P := fun r es => r = (sys.filesystem .fileSize).fileSize session.filePath ∧ es = [])
    (Logs.liftExcept ⟨rfl, rfl⟩)
    (F := fun tsize r es => (sys.filesystem .fileSize).fileSize session.filePath = .ok tsize →
      StartLog sys session r es)
    (fun tsize => ?_) ?_ ?_
  · cases hoptions : session.request.options.entries.isEmpty
    · simp only [Bool.false_eq_true, if_false]
      refine Logs.bind (Logs.liftExcept (P := fun r es =>
          r = parseOptions ⟨512, 1, tsize⟩ session.request.options ∧ es = []) ⟨rfl, rfl⟩)
        (fun a => logs_oackLoop hstop a.1 a.2 maxRetries) ?_ ?_
      · rintro e es ⟨-, rfl⟩ -
        exact .throws e Minors.nil
      · rintro ⟨options, oack⟩ es r es' ⟨hparse, rfl⟩ h hsize
        cases h with
        | waits hminor hpos hle => exact .oackSent hsize hoptions hparse.symm hminor hpos hle
        | throws e hminor => exact .throws e hminor
    · simp only [if_true]
      refine (logs_startTransfer hstop session _).mono fun r es h hsize => ?_
      cases h with
      | waits hreader hminor hpos hle => exact .dataSent hsize hoptions hreader hminor hpos hle
      | throws e hminor => exact .throws e hminor
  · rintro e es ⟨-, rfl⟩
    exact .throws e Minors.nil
  · rintro tsize es r es' ⟨hsize, rfl⟩ h
    exact h hsize.symm

/-! ### Steps -/

/-- **The session up to its first `recv`.** -/
theorem start_cases (hstop : sys.NoStop) (session : TftpSessionV4) :
    ∃ r, (start sys session).control = handled r ∧
      StartLog sys session r (start sys session).io.log := by
  obtain ⟨es, hlog, hes⟩ := logs_ioThread hstop session ⟨[], 0, 0⟩
  refine ⟨_, rfl, ?_⟩
  rwa [start, settle, hlog, List.nil_append]

/-- What one outcome can do while the ACK of the OACK is awaited. -/
inductive OackStep (sys : System) (session : TftpSessionV4) (retryCounter : ℕ)
    (options : OptionsType) (oack : DictionaryType) (o : RecvOutcome) :
    Except Exception Control → List Event → Prop where
  | retransmits {minor : List Event} {n : ℕ} (hminor : Minors session.filePath minor)
      (hpos : 0 < n) (hle : n ≤ retryCounter - 1) :
      OackStep sys session retryCounter options oack o (.ok (.oackSent n options oack))
        (minor ++ [.sent (oackDatagram oack session.remoteClient)])
  | starts {minor : List Event} {n : ℕ} {reader : TftpReader} (hack : Acknowledges o 0)
      (hreader : FirstReader sys session options reader)
      (hminor : Minors session.filePath minor) (hpos : 0 < n) (hle : n ≤ maxRetries) :
      OackStep sys session retryCounter options oack o (.ok (.dataSent n reader))
        (minor ++ [.sent (reader.datagram session.remoteClient)])
  | throws {minor : List Event} (e : Exception) (hminor : Minors session.filePath minor) :
      OackStep sys session retryCounter options oack o (.error e) minor

/-- What one outcome can do while the ACK of a DATA packet is awaited. -/
inductive DataStep (session : TftpSessionV4) (retryCounter : ℕ) (reader : TftpReader)
    (o : RecvOutcome) : Except Exception Control → List Event → Prop where
  | retransmits {minor : List Event} {n : ℕ} (hminor : Minors session.filePath minor)
      (hpos : 0 < n) (hle : n ≤ retryCounter - 1) :
      DataStep session retryCounter reader o (.ok (.dataSent n reader))
        (minor ++ [.sent (reader.datagram session.remoteClient)])
  | advances {minor : List Event} {n : ℕ} (hack : Acknowledges o reader.number.toNat)
      (hlast : reader.last = false) (hminor : Minors session.filePath minor)
      (hpos : 0 < n) (hle : n ≤ maxRetries - 1) :
      DataStep session retryCounter reader o (.ok (.dataSent n reader.next))
        (minor ++ [.sent (reader.next.datagram session.remoteClient)])
  | finishes {minor : List Event} (hack : Acknowledges o reader.number.toNat)
      (hlast : reader.last = true) (hminor : Minors session.filePath minor) :
      DataStep session retryCounter reader o (.ok (.finished reader)) minor
  | throws {minor : List Event} (e : Exception) (hminor : Minors session.filePath minor) :
      DataStep session retryCounter reader o (.error e) minor

/-- Both halves of a loop: the outcome is received, and then what follows the check of the
acknowledgement, or the retry, or an exception. -/
theorem logs_resume {number : UInt64} {o : RecvOutcome} {retry rest : SessionM Control}
    {P Q R : Except Exception Control → List Event → Prop}
    (hretry : Logs IoState.log retry P) (hrest : Logs IoState.log rest Q)
    (hP : ∀ minor r es, Minors session.filePath minor → P r es → R r (minor ++ es))
    (hQ : ∀ minor r es, Acknowledges o number.toNat → Minors session.filePath minor → Q r es →
      R r (minor ++ es))
    (hthrow : ∀ minor e, Minors session.filePath minor → R (.error e) minor) :
    Logs IoState.log (do
        let r ← observing (awaitAck sys session number o)
        onTimeout r retry fun _ => rest)
      fun r es => ∃ es', es = .received o :: es' ∧ R r es' := by
  refine ((logs_awaitAck number o).observing (Q := fun r es => ∃ r', r = .ok r' ∧ ∃ minor,
    es = .received o :: minor ∧ Minors session.filePath minor ∧
      (r' = .ok () → Acknowledges o number.toNat)) fun r es hes => ⟨r, rfl, hes⟩).bind
    (fun r => logs_onTimeout r hretry fun _ => hrest) (by rintro e es ⟨_, ⟨⟩, -⟩) ?_
  rintro _ es r es' ⟨_, ⟨⟩, minor, rfl, hminor, hack⟩ h
  refine ⟨minor ++ es', rfl, ?_⟩
  rcases h with ⟨_, rfl, hes'⟩ | ⟨_, -, hes' | ⟨⟨e, rfl⟩, rfl⟩⟩
  · exact hQ minor r es' (hack rfl) hminor hes'
  · exact hP minor r es' hminor hes'
  · rw [List.append_nil]
    exact hthrow minor e hminor

/-- The state one outcome leads to, from what the computation logs. -/
theorem step_of_logs {s : State} {o : RecvOutcome}
    {R : Except Exception Control → List Event → Prop}
    (h : Logs IoState.log (resume sys session s.control o)
      fun r es => ∃ es', es = .received o :: es' ∧ R r es') :
    ∃ r es, (step sys session s o).control = handled r ∧
      (step sys session s o).io.log = s.io.log ++ .received o :: es ∧ R r es := by
  obtain ⟨_, hlog, es, rfl, hes⟩ := h s.io
  exact ⟨_, es, rfl, hlog, hes⟩

/-- **One outcome in the loop of `validate_options`.** -/
theorem step_oackSent (hstop : sys.NoStop) (session : TftpSessionV4) (retryCounter : ℕ)
    (options : OptionsType) (oack : DictionaryType) (io : IoState) (o : RecvOutcome) :
    ∃ r es, (step sys session ⟨.oackSent retryCounter options oack, io⟩ o).control = handled r ∧
      (step sys session ⟨.oackSent retryCounter options oack, io⟩ o).io.log =
        io.log ++ .received o :: es ∧
      OackStep sys session retryCounter options oack o r es := by
  refine step_of_logs (s := ⟨.oackSent retryCounter options oack, io⟩)
    (logs_resume (logs_oackLoop hstop options oack (retryCounter - 1))
      (logs_startTransfer hstop session options) ?_ ?_ ?_)
  · intro minor r es hminor h
    have h' := h.append_left hminor le_rfl
    generalize minor ++ es = es' at h' ⊢
    cases h' with
    | waits hminor hpos hle => exact .retransmits hminor hpos hle
    | throws e hminor => exact .throws e hminor
  · intro minor r es hack hminor h
    have h' := h.append_left hminor
    generalize minor ++ es = es' at h' ⊢
    cases h' with
    | waits hreader hminor hpos hle => exact .starts hack hreader hminor hpos hle
    | throws e hminor => exact .throws e hminor
  · intro minor e hminor
    exact .throws e hminor

/-- **One outcome in the loop of `io_thread`.** -/
theorem step_dataSent (hstop : sys.NoStop) (session : TftpSessionV4) (retryCounter : ℕ)
    (reader : TftpReader) (io : IoState) (o : RecvOutcome) :
    ∃ r es, (step sys session ⟨.dataSent retryCounter reader, io⟩ o).control = handled r ∧
      (step sys session ⟨.dataSent retryCounter reader, io⟩ o).io.log =
        io.log ++ .received o :: es ∧
      DataStep session retryCounter reader o r es := by
  have hrest : Logs IoState.log (if reader.last then return .finished reader
      else dataLoop sys session reader.next (maxRetries - 1))
      fun r es => Acknowledges o reader.number.toNat →
        DataStep session retryCounter reader o r es := by
    cases hlast : reader.last
    · refine (logs_dataLoop hstop reader.next (maxRetries - 1)).mono fun r es h hack => ?_
      cases h with
      | waits hminor hpos hle => exact .advances hack hlast hminor hpos hle
      | throws e hminor => exact .throws e hminor
    · exact Logs.pure fun hack => .finishes hack hlast Minors.nil
  refine step_of_logs (s := ⟨.dataSent retryCounter reader, io⟩)
    (logs_resume (logs_dataLoop hstop reader (retryCounter - 1)) hrest ?_ ?_ ?_)
  · intro minor r es hminor h
    have h' := h.append_left hminor le_rfl
    generalize minor ++ es = es' at h' ⊢
    cases h' with
    | waits hminor hpos hle => exact .retransmits hminor hpos hle
    | throws e hminor => exact .throws e hminor
  · intro minor r es hack hminor h
    cases h hack with
    | retransmits hminor' hpos hle =>
      rw [← List.append_assoc]
      exact .retransmits (hminor.append hminor') hpos hle
    | advances hack hlast hminor' hpos hle =>
      rw [← List.append_assoc]
      exact .advances hack hlast (hminor.append hminor') hpos hle
    | finishes hack hlast hminor' => exact .finishes hack hlast (hminor.append hminor')
    | throws e hminor' => exact .throws e (hminor.append hminor')
  · intro minor e hminor
    exact .throws e hminor

/-- A session that has ended does nothing. -/
theorem step_finished (reader : TftpReader) (io : IoState) (o : RecvOutcome) :
    step sys session ⟨.finished reader, io⟩ o = ⟨.finished reader, io⟩ := rfl

theorem step_thrown (e : Exception) (io : IoState) (o : RecvOutcome) :
    step sys session ⟨.thrown e, io⟩ o = ⟨.thrown e, io⟩ := rfl

theorem run_append_singleton (os : List RecvOutcome) (o : RecvOutcome) :
    run sys session (os ++ [o]) = step sys session (run sys session os) o := by
  rw [run, List.foldl_append]
  rfl

/-- **Induction over runs.** -/
theorem run_induction {P : State → Prop} (hstart : P (start sys session))
    (hstep : ∀ s o, P s → P (step sys session s o)) (os : List RecvOutcome) :
    P (run sys session os) := by
  induction os using List.reverseRecOn with
  | nil => exact hstart
  | append_singleton os o ih =>
    rw [run_append_singleton]
    exact hstep _ o ih

/-! ### The options in use -/

/-- The options a transfer of `file` goes by, when the session accepts those of the request. -/
def optionsInUse (session : TftpSessionV4) (file : File) : Except Exception OptionsType :=
  Prod.fst <$> parseOptions ⟨512, 1, .ofNat file.content.length⟩ session.request.options

theorem parseOptions_empty {dict : DictionaryType} (h : dict.entries.isEmpty = true)
    (options : OptionsType) : parseOptions options dict = .ok (options, ∅) := by
  obtain ⟨entries, hnodup⟩ := dict
  obtain rfl : entries = [] := List.isEmpty_iff.mp h
  rfl

/-- Accepted options: both numbers are, and the OACK may get the size besides them. -/
theorem cases_of_parseOptions {options options' : OptionsType} {dict oack : DictionaryType}
    (h : parseOptions options dict = .ok (options', oack)) :
    ∃ blksize oack₁ timeout oack₂,
      parseOption (lit "blksize") dict ∅ options.blksize = .ok (blksize, oack₁) ∧
      parseOption (lit "timeout") dict oack₁ options.timeout = .ok (timeout, oack₂) ∧
      options' = ⟨blksize, timeout, options.tsize⟩ := by
  obtain ⟨⟨blksize, oack₁⟩, hblksize, h⟩ := bind_eq_ok h
  obtain ⟨⟨timeout, oack₂⟩, htimeout, h⟩ := bind_eq_ok h
  exact ⟨blksize, oack₁, timeout, oack₂, hblksize, htimeout, (Prod.mk.inj (Except.ok.inj h)).1.symm⟩

theorem parseOption_some {name text : StdString} {dict : DictionaryType}
    (h : dict.lookup name = some text) (oack : DictionaryType) (value : UInt64) :
    parseOption name dict oack value =
      (fun r => (r.1, oack.emplace name text)) <$> stoull 10 text := by
  rw [parseOption, h]
  dsimp only
  cases stoull 10 text <;> rfl

/-- An option that is accepted is absent, or the text of its number. -/
theorem parseOption_cases {name : StdString} {dict oack oack' : DictionaryType}
    {value value' : UInt64} (h : parseOption name dict oack value = .ok (value', oack')) :
    (dict.lookup name = none ∧ value' = value) ∨
      ∃ text idx, dict.lookup name = some text ∧ stoull 10 text = .ok (value', idx) := by
  cases htext : dict.lookup name with
  | none =>
    rw [parseOption, htext] at h
    exact .inl ⟨rfl, (Prod.mk.inj (Except.ok.inj h)).1.symm⟩
  | some text =>
    rw [parseOption_some htext] at h
    cases hnumber : stoull 10 text with
    | error e => rw [hnumber] at h; cases h
    | ok r =>
      rw [hnumber] at h
      obtain ⟨rfl, -⟩ := Prod.mk.inj (Except.ok.inj h)
      exact .inr ⟨text, r.2, rfl, hnumber⟩

theorem number_of_parseOption {name text : StdString} {dict oack oack' : DictionaryType}
    {value value' : UInt64} (h : parseOption name dict oack value = .ok (value', oack'))
    (htext : dict.lookup name = some text) : ∃ idx, stoull 10 text = .ok (value', idx) := by
  rcases parseOption_cases h with ⟨hnone, -⟩ | ⟨text', idx, htext', hnumber⟩
  · rw [htext] at hnone
    cases hnone
  · obtain rfl := Option.some.inj (htext.symm.trans htext')
    exact ⟨idx, hnumber⟩

/-- The numbers that are parsed are the numbers in use. -/
theorem blksize_of_parseOptions {options options' : OptionsType} {dict oack : DictionaryType}
    {text : StdString} (h : parseOptions options dict = .ok (options', oack))
    (htext : dict.lookup (lit "blksize") = some text) :
    ∃ idx, stoull 10 text = .ok (options'.blksize, idx) := by
  obtain ⟨blksize, oack₁, T, oack₂, hblksize, -, rfl⟩ := cases_of_parseOptions h
  exact number_of_parseOption hblksize htext

theorem timeout_of_parseOptions {options options' : OptionsType} {dict oack : DictionaryType}
    {text : StdString} (h : parseOptions options dict = .ok (options', oack))
    (htext : dict.lookup (lit "timeout") = some text) :
    ∃ idx, stoull 10 text = .ok (options'.timeout, idx) := by
  obtain ⟨blksize, oack₁, T, oack₂, -, htimeout, rfl⟩ := cases_of_parseOptions h
  exact number_of_parseOption htimeout htext

/-- `stoull` reads a number from the texts of `blksize` and `timeout`. -/
def AcceptsNumbers (dict : DictionaryType) : Prop :=
  ∀ name ∈ [lit "blksize", lit "timeout"], ∀ text, dict.lookup name = some text →
    ∃ r, stoull 10 text = .ok r

/-- **The options that are accepted.** -/
theorem exists_parseOptions_iff (options : OptionsType) (dict : DictionaryType) :
    (∃ r, parseOptions options dict = .ok r) ↔ AcceptsNumbers dict := by
  have hparse : ∀ {name : StdString},
      (∀ text, dict.lookup name = some text → ∃ r, stoull 10 text = .ok r) →
      ∀ oack value, ∃ r, parseOption name dict oack value = .ok r := by
    intro name h oack value
    cases htext : dict.lookup name with
    | none => exact ⟨_, by rw [parseOption, htext]⟩
    | some text =>
      obtain ⟨r, hr⟩ := h text htext
      exact ⟨_, by rw [parseOption_some htext, hr]; rfl⟩
  rw [AcceptsNumbers, List.forall_mem_cons, List.forall_mem_singleton]
  constructor
  · rintro ⟨⟨options', oack⟩, h⟩
    exact ⟨fun text htext => (blksize_of_parseOptions h htext).imp' _ fun _ => id,
      fun text htext => (timeout_of_parseOptions h htext).imp' _ fun _ => id⟩
  · rintro ⟨hblksize, htimeout⟩
    obtain ⟨⟨blksize, oack₁⟩, h₁⟩ := hparse hblksize ∅ options.blksize
    obtain ⟨⟨T, oack₂⟩, h₂⟩ := hparse htimeout oack₁ options.timeout
    rw [parseOptions, h₁]
    dsimp only [bind, Except.bind]
    rw [h₂]
    exact ⟨_, rfl⟩

theorem tsize_of_parseOptions {options options' : OptionsType} {dict oack : DictionaryType}
    (h : parseOptions options dict = .ok (options', oack)) : options'.tsize = options.tsize := by
  obtain ⟨_, _, _, _, -, -, rfl⟩ := cases_of_parseOptions h
  rfl

/-- An option of the request changes the OACK at its own name only. -/
theorem lookup_parseOption {name : StdString} {dict oack oack' : DictionaryType}
    {value value' : UInt64} (h : parseOption name dict oack value = .ok (value', oack'))
    (hfresh : oack.lookup name = none) (key : StdString) :
    oack'.lookup key = if key = name then dict.lookup name else oack.lookup key := by
  rw [parseOption] at h
  cases htext : dict.lookup name with
  | none =>
    rw [htext] at h
    obtain ⟨-, rfl⟩ := Prod.mk.inj (Except.ok.inj h)
    split_ifs with hkey
    · rw [hkey, hfresh]
    · rfl
  | some text =>
    rw [htext] at h
    obtain ⟨⟨_, _⟩, -, h⟩ := bind_eq_ok h
    obtain ⟨-, rfl⟩ := Prod.mk.inj (Except.ok.inj h)
    rw [UnorderedMap.lookup_emplace, hfresh, Option.getD_none]

/-- **The OACK**: the client's texts for `blksize` and `timeout`, and the size of the file. -/
theorem lookup_oack {options options' : OptionsType} {dict oack : DictionaryType}
    (h : parseOptions options dict = .ok (options', oack)) (key : StdString) :
    oack.lookup key =
      if key = lit "blksize" ∨ key = lit "timeout" then dict.lookup key
      else if key = lit "tsize" ∧ key ∈ dict then some (toString options.tsize.toNat)
      else none := by
  obtain ⟨⟨blksize, oack₁⟩, hblksize, h⟩ := bind_eq_ok h
  obtain ⟨⟨T, oack₂⟩, htimeout, h⟩ := bind_eq_ok h
  obtain ⟨-, rfl⟩ := Prod.mk.inj (Except.ok.inj h)
  have hblksize' := lookup_parseOption hblksize rfl
  have htimeout' := lookup_parseOption htimeout
    ((hblksize' _).trans (if_neg (by decide)))
  have hbefore : ∀ key, oack₂.lookup key =
      if key = lit "blksize" ∨ key = lit "timeout" then dict.lookup key else none := by
    intro key
    rw [htimeout', hblksize']
    by_cases ht : key = lit "timeout"
    · rw [if_pos ht, if_pos (.inr ht), ht]
    · by_cases hb : key = lit "blksize"
      · rw [if_neg ht, if_pos hb, if_pos (.inl hb), hb]
      · rw [if_neg ht, if_neg hb, if_neg (not_or.mpr ⟨hb, ht⟩)]
        rfl
  by_cases hkey : key = lit "tsize"
  · subst hkey
    have hnumber : ¬(lit "tsize" = lit "blksize" ∨ lit "tsize" = lit "timeout") := by decide
    have hnone : oack₂.lookup (lit "tsize") = none := (hbefore _).trans (if_neg hnumber)
    rw [if_neg hnumber]
    by_cases hsize : (lit "tsize") ∈ dict
    · rw [if_pos hsize, if_pos ⟨rfl, hsize⟩, UnorderedMap.lookup_emplace, if_pos rfl, hnone,
        Option.getD_none]
    · rw [if_neg hsize, if_neg fun hboth => hsize hboth.2, hnone]
  · have hother : ¬(key = lit "tsize" ∧ key ∈ dict) := fun h => hkey h.1
    rw [if_neg hother, ← hbefore]
    split_ifs
    · rw [UnorderedMap.lookup_emplace, if_neg hkey]
    · rfl

variable {file : File} {readable : Bool} {options : OptionsType} {reader : TftpReader}

theorem tsize_of_optionsInUse (h : session.optionsInUse file = .ok options) :
    options.tsize = .ofNat file.content.length := by
  rw [optionsInUse, ← bind_pure_comp] at h
  obtain ⟨⟨options', oack⟩, hparse, h⟩ := bind_eq_ok h
  rw [← Except.ok.inj h]
  exact tsize_of_parseOptions hparse

/-- The reader a transfer of `file` starts with. -/
def firstReader (sys : System) (session : TftpSessionV4) (file : File)
    (options : OptionsType) : TftpReader :=
  (TftpReader.initial (Ifstream.ofPath (sys.filesystem .stream) session.filePath
    (session.request.xfermode == lit "octet")) (.ofNat file.content.length)
    options.blksize).next

theorem FirstReader.eq (h : FirstReader sys session options reader)
    (hfile : sys.Finds session.filePath (.regular file readable))
    (hsize : options.tsize = .ofNat file.content.length) :
    reader = firstReader sys session file options := by
  obtain ⟨length, hlength, rfl⟩ := h
  rw [hsize, TftpReader.lengthOf_of_finds hfile] at hlength
  rw [← Except.ok.inj hlength, firstReader]

/-- The reader of an octet transfer starts at block 1 of the file. -/
theorem FirstReader.at_exact (h : FirstReader sys session options reader)
    (hfile : sys.Finds session.filePath (.regular file true))
    (hmode : session.request.xfermode = lit "octet")
    (hsize : options.tsize = .ofNat file.content.length) (hb : 0 < options.blksize.toNat) :
    TftpReader.At file.content.length options.blksize.toNat 1 reader ∧
      TftpReader.Exact file.content reader := by
  have hbinary : (session.request.xfermode == lit "octet") = true := by simp [hmode]
  rw [h.eq hfile hsize, firstReader, hbinary]
  exact ⟨TftpReader.at_initial file hb _, TftpReader.exact_initial hfile _⟩

end TftpSessionV4

end Bootpd
