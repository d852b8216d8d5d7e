import Bootpd.TftpHealthySteps

/-!
# Datagrams from a foreign source

`validate_source` composes the text "ignoring ..." for a datagram that does not come from the
client, answers it with an ERROR packet and returns; its caller goes on to decode the datagram and
to check it as if it were the client's. So a foreign datagram is not ignored: an acknowledgement
with the right number moves the transfer on and anything else ends it.

There is one way out. A send that times out is caught by the loop as if the receive had, and the
loop sends its packet again. Only so does a foreign datagram leave the session where it was.

## How it is proved

What the check of a foreign datagram does is followed up to the handler of the loop.
`AnswerTimesOut` says that one of its sends times out: the answer of `validate_source`, or the one
of `validate_ack` behind it. Otherwise the loop is left, forwards or by an exception, and the
session does not wait in the same place again; `Awaits` says of a computation that it might.

Everything is asked of the session's state before the datagram, of the datagram, and of what the two
sends come to. The sends may depend on the log, as in any `System`.

## Main definitions

* `TftpSessionV4.Undisturbed` — the session is where it was, but for a retry
* `TftpSessionV4.AnswerTimesOut` — one of the answers times out

## Main results

* `TftpSessionV4.awaitAck_timedOut_iff` — when the check of a foreign datagram ends in a time-out
* `TftpSessionV4.undisturbed_iff` — the foreign datagrams that do not disturb a session
* `TftpSessionV4.not_undisturbed_of_sendto` — none, if no send fails
-/

namespace Bootpd

open Imperative SocketUdp

/-- The packet a waiting session has sent last. -/
def Control.Current (control : Control) (client : AddressV4) (d : Datagram) : Prop :=
  match control with
  | .oackSent _ _ oack => d = oackDatagram oack client
  | .dataSent _ reader => d = reader.datagram client
  | _ => False

/-- An ERROR packet as it is sent. -/
def errorDatagram (payload : TypeError) (target : AddressV4) : Datagram :=
  ⟨target, Scalar.encode .network tftpOpcodeError ++
    (Scalar.encode .network payload.errorCode ++ (payload.errorString ++ [0]))⟩

/-- The ERROR packet for a foreign address. -/
def invalidSource (source : AddressV4) : Datagram :=
  errorDatagram ⟨.unknownTransferId, lit "Invalid source address."⟩ source

/-- The ERROR packet of `validate_ack`. -/
def illegalOperation (client : AddressV4) : Datagram :=
  errorDatagram ⟨.illegalOperation, TftpPacket.errorCodeToString .illegalOperation⟩ client

namespace TftpSessionV4

variable {sys : System} {session : TftpSessionV4} {source : AddressV4} {bits : List UInt8}

/-- A datagram from `source` does not disturb a session: it waits as before, and all it has done
is to receive, to send an ERROR packet to `source`, and to send its packet again. A send that
fails does nothing. -/
structure Undisturbed (session : TftpSessionV4) (source : AddressV4) (bits : List UInt8)
    (s s' : State) : Prop where
  control : s'.control.awaited = s.control.awaited
  log : ∃ es, s'.io.log = s.io.log ++ es ∧ ∀ ev ∈ es,
    ev = .received (.datagram source bits) ∨ (∃ d e, ev = .sendFailed d e) ∨
      (∃ rest, ev = .sent ⟨source, Scalar.encode .network tftpOpcodeError ++ rest⟩) ∨
      ∃ d, ev = .sent d ∧ s.control.Current session.remoteClient d

/-! ### When the check times out -/

/-- `validate_ack` answers the packet with an ERROR packet. -/
def Rejected (number : UInt64) (packet : TftpPacket) : Prop :=
  (∀ payload, packet ≠ .error payload) ∧ packet ≠ .ack ⟨UInt16.ofNat number.toNat⟩

/-- One of the ERROR packets for a foreign datagram times out: the one to its source or, for a
packet that is rejected, the one to the client. The second log is the one after that. -/
inductive AnswerTimesOut (sys : System) (session : TftpSessionV4) (number : UInt64)
    (source : AddressV4) (bits : List UInt8) (log : List Event) : List Event → Prop where
  | source {what : StdString}
      (h : sys.sendto log (invalidSource source) = some (.socketTimedOut what)) :
      AnswerTimesOut sys session number source bits log
        (log ++ [.sendFailed (invalidSource source) (.socketTimedOut what)])
  | client {what : StdString} {packet : TftpPacket}
      (hsource : sys.sendto log (invalidSource source) = none)
      (hpacket : TftpPacket.ofBits bits = .ok packet) (hrejected : Rejected number packet)
      (h : sys.sendto (log ++ [.sent (invalidSource source)])
        (illegalOperation session.remoteClient) = some (.socketTimedOut what)) :
      AnswerTimesOut sys session number source bits log (log ++ [.sent (invalidSource source)] ++
        [.sendFailed (illegalOperation session.remoteClient) (.socketTimedOut what)])

/-- Sending an ERROR packet, with any outcome. -/
theorem exec_sendError (payload : TypeError) (target : AddressV4) (s : IoState) :
    exec (send sys (TftpPacket.error payload) target) s =
      (sys.sendto s.log (errorDatagram payload target)).elim
        (.ok (), s.push (.sent (errorDatagram payload target)))
        fun e => (.error e, s.push (.sendFailed (errorDatagram payload target) e)) :=
  exec_send (TftpPacket.serialize_error payload) target s

theorem exec_sendIllegalOperation (s : IoState) :
    exec (send sys (TftpPacket.makeError .illegalOperation) session.remoteClient) s =
      (sys.sendto s.log (illegalOperation session.remoteClient)).elim
        (.ok (), s.push (.sent (illegalOperation session.remoteClient)))
        fun e => (.error e, s.push (.sendFailed (illegalOperation session.remoteClient) e)) :=
  exec_sendError _ _ s

theorem notAnAck_ne (packet : TftpPacket) (what : StdString) :
    notAnAck packet ≠ .socketTimedOut what := by
  rw [notAnAck]
  simp

theorem validateAck_of_rejected (sys : System) (session : TftpSessionV4) {number : UInt64}
    {packet : TftpPacket}
    (h : Rejected number packet) : ∃ e, (∀ what, e ≠ .socketTimedOut what) ∧
      validateAck sys session packet number = (do
        send sys (TftpPacket.makeError .illegalOperation) session.remoteClient
        throw e) := by
  obtain ⟨herror, hack⟩ := h
  cases packet with
  | error payload => exact absurd rfl (herror payload)
  | ack payload =>
    have hne : payload.blockId ≠ UInt16.ofNat number.toNat := by
      intro heq
      apply hack
      rw [← heq]
    refine ⟨unexpectedAck number payload.blockId, by simp [unexpectedAck], ?_⟩
    rw [validateAck_ack, if_neg hne]
  | _ => exact ⟨_, notAnAck_ne _, rfl⟩

theorem validateAck_of_not_rejected {number : UInt64} {packet : TftpPacket}
    (h : ¬Rejected number packet) (s : IoState) (what : StdString) :
    (exec (validateAck sys session packet number) s).1 ≠ .error (.socketTimedOut what) := by
  cases packet with
  | error payload => rintro ⟨⟩
  | ack payload =>
    have heq : payload.blockId = UInt16.ofNat number.toNat := by
      by_contra hne
      refine h ⟨by simp, fun hack => hne ?_⟩
      cases hack
      rfl
    rw [validateAck_ack, if_pos heq]
    simp
  | _ => exact absurd ⟨by simp, by simp⟩ h

/-- **When the check of a foreign datagram ends in a time-out.** -/
theorem awaitAck_timedOut_iff (hsource : source ≠ session.remoteClient) (number : UInt64)
    (io io' : IoState) :
    (∃ what, exec (awaitAck sys session number (.datagram source bits)) io =
        (.error (.socketTimedOut what), io')) ↔
      bits ≠ [] ∧ ∃ log, io' = { io with log } ∧ AnswerTimesOut sys session number source bits
        (io.log ++ [.received (.datagram source bits)]) log := by
  have hrecv := exec_recv (.datagram source bits) io
  by_cases hbits : bits = []
  · subst hbits
    rw [awaitAck, exec_bind_error hrecv]
    simp
  · have hresult : recvResult (.datagram source bits) = .ok (source, bits) := by
      simp [recvResult, hbits]
    rw [hresult] at hrecv
    rw [awaitAck, exec_bind_ok hrecv]
    dsimp only
    rw [validateSource, if_pos hsource.symm, exec_bind, TftpPacket.makeErrorString, exec_sendError,
      ← invalidSource, IoState.log_push]
    constructor
    · rintro ⟨what, h⟩
      refine ⟨hbits, ?_⟩
      cases hanswer : sys.sendto (io.log ++ [.received (.datagram source bits)])
          (invalidSource source) with
      | some e =>
        rw [hanswer] at h
        obtain ⟨he, rfl⟩ := Prod.mk.inj h
        obtain rfl := Except.error.inj he
        exact ⟨_, rfl, .source hanswer⟩
      | none =>
        rw [hanswer, Option.elim_none, andThen_ok, exec_bind, exec_liftExcept] at h
        cases hpacket : TftpPacket.ofBits bits with
        | error e =>
          rw [hpacket] at h
          obtain ⟨he, -⟩ := Prod.mk.inj h
          rw [TftpPacket.ofBits_error hpacket] at he
          cases he
        | ok packet =>
          rw [hpacket, andThen_ok] at h
          by_cases hrejected : Rejected number packet
          · obtain ⟨e, he, hack⟩ := validateAck_of_rejected sys session hrejected
            rw [hack, exec_bind, exec_sendIllegalOperation] at h
            cases htime : sys.sendto _ (illegalOperation session.remoteClient) with
            | some e' =>
              rw [htime] at h
              obtain ⟨he', rfl⟩ := Prod.mk.inj h
              obtain rfl := Except.error.inj he'
              exact ⟨_, rfl, .client hanswer hpacket hrejected htime⟩
            | none =>
              rw [htime] at h
              exact absurd (Except.error.inj (Prod.mk.inj h).1) (he what)
          · exact absurd (congrArg Prod.fst h) (validateAck_of_not_rejected hrejected _ what)
    · rintro ⟨-, log, rfl, hanswer | ⟨hanswer, hpacket, hrejected, htime⟩⟩
      · rw [hanswer]
        exact ⟨_, rfl⟩
      · obtain ⟨e, he, hack⟩ := validateAck_of_rejected sys session hrejected
        rw [hanswer, Option.elim_none, andThen_ok, exec_bind, exec_liftExcept, hpacket, andThen_ok,
          hack, exec_bind, exec_sendIllegalOperation]
        rw [IoState.log_push, IoState.log_push, htime]
        exact ⟨_, rfl⟩

/-! ### When the loop waits again -/

/-- A loop with `n` passes left sends `d`: a send that times out takes a pass. -/
def Resends (sys : System) (d : Datagram) : ℕ → List Event → Prop
  | 0, _ => False
  | n + 1, log => sys.stopRequested log = false ∧ (sys.sendto log d = none ∨
      ∃ what, sys.sendto log d = some (.socketTimedOut what) ∧
        Resends sys d n (log ++ [.sendFailed d (.socketTimedOut what)]))

/-- From `s` on, `x` leaves the session waiting with `a`. -/
def Awaits (a : OptionsType × DictionaryType ⊕ TftpReader) (x : SessionM Control)
    (s : IoState) : Prop :=
  (handled (exec x s).1).awaited = some a

section Awaits

variable {a : OptionsType × DictionaryType ⊕ TftpReader} {packet : TftpPacket}
  {d : List UInt8} {waiting : ℕ → Control} {stopped exhausted : SessionM Control} {n : ℕ}
  {s : IoState}

theorem not_awaits_throw (e : Exception) (s : IoState) : ¬Awaits a (throw e) s := by
  rintro ⟨⟩

theorem Awaits.of_bind {α : Type} {x : SessionM α} {f : α → SessionM Control}
    (h : Awaits a (x >>= f) s) : ∃ v s', exec x s = (.ok v, s') ∧ Awaits a (f v) s' := by
  rw [Awaits, exec_bind] at h
  rcases hx : exec x s with ⟨e | v, s'⟩ <;> rw [hx] at h
  · cases h
  · exact ⟨v, s', rfl, h⟩

/-- A loop that is left waiting waits in its own way, and has sent its packet. -/
theorem resends_of_awaits (hd : serializeToVector packet = .ok d)
    (hstopped : ∀ s, ¬Awaits a stopped s) (hexhausted : ∀ s, ¬Awaits a exhausted s)
    (h : Awaits a (sendLoop sys session packet waiting stopped exhausted n) s) :
    (∃ k, (waiting k).awaited = some a) ∧ Resends sys ⟨session.remoteClient, d⟩ n s.log := by
  induction n generalizing s with
  | zero => exact absurd h (hexhausted s)
  | succ n ih =>
    rw [Awaits, exec_sendLoop_succ hd] at h
    cases hstop : sys.stopRequested s.log with
    | true =>
      rw [hstop, if_pos rfl] at h
      exact absurd h (hstopped s)
    | false =>
      rw [hstop, if_neg Bool.false_ne_true] at h
      cases hsend : sys.sendto s.log ⟨session.remoteClient, d⟩ with
      | none =>
        rw [hsend] at h
        exact ⟨⟨n + 1, h⟩, hstop, .inl hsend⟩
      | some e =>
        rw [hsend] at h
        by_cases he : ∃ what, e = .socketTimedOut what
        · obtain ⟨what, rfl⟩ := he
          obtain ⟨hwaiting, hresends⟩ := ih h
          exact ⟨hwaiting, hstop, .inr ⟨what, hsend, hresends⟩⟩
        · dsimp only at h
          rw [onTimeout_error fun what h => he ⟨what, h⟩] at h
          cases h

/-- A loop that sends its packet is left waiting, and has done nothing else. -/
theorem exec_sendLoop_of_resends (hd : serializeToVector packet = .ok d)
    (waiting : ℕ → Control) (stopped exhausted : SessionM Control)
    (h : Resends sys ⟨session.remoteClient, d⟩ n s.log) :
    ∃ k s' es, exec (sendLoop sys session packet waiting stopped exhausted n) s =
        (.ok (waiting k), s') ∧ s'.log = s.log ++ es ∧ ∀ ev ∈ es,
          (∃ d e, ev = .sendFailed d e) ∨ ev = .sent ⟨session.remoteClient, d⟩ := by
  induction n generalizing s with
  | zero => exact h.elim
  | succ n ih =>
    obtain ⟨hstop, hsend | ⟨what, hsend, hrest⟩⟩ := h
    · refine ⟨n + 1, s.push (.sent ⟨session.remoteClient, d⟩), [.sent ⟨session.remoteClient, d⟩],
        ?_, rfl, by simp⟩
      rw [exec_sendLoop_succ hd, hstop, if_neg Bool.false_ne_true, hsend]
    · obtain ⟨k, s', es, hexec, hlog, hes⟩ :=
        ih (s := s.push (.sendFailed ⟨session.remoteClient, d⟩ (.socketTimedOut what))) hrest
      refine ⟨k, s', .sendFailed ⟨session.remoteClient, d⟩ (.socketTimedOut what) :: es, ?_, ?_,
        List.forall_mem_cons.mpr ⟨.inl ⟨_, _, rfl⟩, hes⟩⟩
      · rw [exec_sendLoop_succ hd, hstop, if_neg Bool.false_ne_true, hsend]
        exact hexec
      · rw [hlog, IoState.log_push, List.append_assoc, List.singleton_append]

end Awaits

/-! ### What a foreign datagram does -/

/-- An ERROR packet for the datagram times out, and `d` is sent again. -/
def AnswerRetried (sys : System) (session : TftpSessionV4) (source : AddressV4)
    (bits : List UInt8) (number : UInt64) (d : Datagram) (n : ℕ) (log : List Event) : Prop :=
  bits ≠ [] ∧ ∃ log', AnswerTimesOut sys session number source bits
    (log ++ [.received (.datagram source bits)]) log' ∧ Resends sys d (n - 1) log'

/-- The same, for what a session waits for. -/
def Retries (sys : System) (session : TftpSessionV4) (source : AddressV4) (bits : List UInt8)
    (s : State) : Prop :=
  match s.control with
  | .oackSent n _ oack =>
    AnswerRetried sys session source bits 0 (oackDatagram oack session.remoteClient) n s.io.log
  | .dataSent n reader => AnswerRetried sys session source bits reader.number
      (reader.datagram session.remoteClient) n s.io.log
  | _ => False

/-- What an answer that timed out has logged. -/
theorem AnswerTimesOut.log {number : UInt64} {log log' : List Event}
    (h : AnswerTimesOut sys session number source bits log log') :
    ∃ es, log' = log ++ es ∧ ∀ ev ∈ es, (∃ d e, ev = .sendFailed d e) ∨
      ev = .sent (invalidSource source) := by
  cases h with
  | source h => exact ⟨_, rfl, by simp⟩
  | client hsource hpacket hrejected h =>
    exact ⟨[.sent (invalidSource source),
      .sendFailed (illegalOperation session.remoteClient) (.socketTimedOut _)],
      List.append_assoc .., by simp⟩

/-- **A foreign datagram**, in either loop: the session stays only by a retry. -/
theorem undisturbed_iff_of_resume {s : State} {number : UInt64} {rest : SessionM Control}
    {packet : TftpPacket} {d : List UInt8} {waiting : ℕ → Control}
    {stopped exhausted : SessionM Control} {n : ℕ}
    {a : OptionsType × DictionaryType ⊕ TftpReader}
    (hsource : source ≠ session.remoteClient)
    (hresume : resume sys session s.control (.datagram source bits) = (do
      let r ← observing (awaitAck sys session number (.datagram source bits))
      onTimeout r (sendLoop sys session packet waiting stopped exhausted (n - 1)) fun _ => rest))
    (ha : s.control.awaited = some a) (hd : serializeToVector packet = .ok d)
    (hcurrent : s.control.Current session.remoteClient ⟨session.remoteClient, d⟩)
    (hwaiting : ∀ k, (waiting k).awaited = some a)
    (hstopped : ∀ s, ¬Awaits a stopped s) (hexhausted : ∀ s, ¬Awaits a exhausted s)
    (hrest : ∀ s, ¬Awaits a rest s) :
    Undisturbed session source bits s (step sys session s (.datagram source bits)) ↔
      AnswerRetried sys session source bits number ⟨session.remoteClient, d⟩ n s.io.log := by
  constructor
  · rintro ⟨hcontrol, -⟩
    rw [ha] at hcontrol
    rcases hawait : exec (awaitAck sys session number (.datagram source bits)) s.io
      with ⟨e | _, io⟩
    · by_cases he : ∃ what, e = .socketTimedOut what
      · obtain ⟨what, rfl⟩ := he
        obtain ⟨hbits, log, rfl, hanswer⟩ :=
          (awaitAck_timedOut_iff hsource number s.io io).mp ⟨what, hawait⟩
        rw [step_of_timedOut hresume hawait] at hcontrol
        exact ⟨hbits, log, hanswer, (resends_of_awaits hd hstopped hexhausted hcontrol).2⟩
      · rw [step_of_error hresume (fun what h => he ⟨what, h⟩) hawait] at hcontrol
        cases hcontrol
    · rw [step_of_ok hresume hawait] at hcontrol
      exact absurd hcontrol (hrest io)
  · rintro ⟨hbits, log, hanswer, hresends⟩
    obtain ⟨what, hawait⟩ := (awaitAck_timedOut_iff hsource number s.io { s.io with log }).mpr
      ⟨hbits, log, rfl, hanswer⟩
    obtain ⟨es, rfl, hes⟩ := hanswer.log
    obtain ⟨k, io, es', hexec, hlog, hes'⟩ :=
      exec_sendLoop_of_resends (s := { s.io with log := _ }) hd waiting stopped exhausted hresends
    rw [step_of_timedOut hresume hawait, hexec]
    refine ⟨?_, .received (.datagram source bits) :: (es ++ es'), ?_, ?_⟩
    · rw [ha]
      exact hwaiting k
    · exact hlog.trans (by simp)
    · refine List.forall_mem_cons.mpr ⟨.inl rfl, fun ev hev => ?_⟩
      rcases List.mem_append.mp hev with hev | hev
      · rcases hes ev hev with hfailed | hsent
        · exact .inr (.inl hfailed)
        · exact .inr (.inr (.inl ⟨_, hsent⟩))
      · rcases hes' ev hev with hfailed | hsent
        · exact .inr (.inl hfailed)
        · exact .inr (.inr (.inr ⟨_, hsent, hcurrent⟩))

theorem not_awaits_dataLoop (reader : TftpReader) (n : ℕ)
    {a : OptionsType × DictionaryType ⊕ TftpReader} (ha : a ≠ .inr reader) (s : IoState) :
    ¬Awaits a (dataLoop sys session reader n) s := by
  intro h
  obtain ⟨⟨k, hk⟩, -⟩ := resends_of_awaits (serialize_readerData reader session.remoteClient)
    (fun _ => by rintro ⟨⟩) (not_awaits_throw _) h
  exact ha (Option.some.inj hk).symm

theorem not_awaits_startTransfer (options : OptionsType)
    (a : OptionsType × DictionaryType) (s : IoState) :
    ¬Awaits (.inl a) (startTransfer sys session options) s := by
  intro h
  obtain ⟨_, _, -, h⟩ := h.of_bind
  obtain ⟨reader, _, -, h⟩ := h.of_bind
  exact not_awaits_dataLoop reader maxRetries (by simp) _ h

/-- A foreign datagram, in any waiting state. -/
theorem undisturbed_iff_of_waiting {s : State} (hwait : s.control.Waiting)
    (hsource : source ≠ session.remoteClient) (bits : List UInt8) :
    Undisturbed session source bits s (step sys session s (.datagram source bits)) ↔
      Retries sys session source bits s := by
  obtain ⟨control, io⟩ := s
  cases control with
  | oackSent n options oack =>
    refine undisturbed_iff_of_resume (s := ⟨.oackSent n options oack, io⟩) hsource rfl rfl
      (TftpPacket.serialize_oack ⟨oack⟩) rfl (fun _ => rfl)
      (not_awaits_startTransfer options _) (fun s h => ?_) (not_awaits_startTransfer options _)
    obtain ⟨_, _, -, h⟩ := h.of_bind
    exact not_awaits_throw _ _ h
  | dataSent n reader =>
    refine undisturbed_iff_of_resume (s := ⟨.dataSent n reader, io⟩) hsource rfl rfl
      (serialize_readerData reader session.remoteClient) rfl (fun _ => rfl)
      (fun _ => by rintro ⟨⟩) (not_awaits_throw _) fun s h => ?_
    -- accepted: the file is done, or the next block is sent
    cases hlast : reader.last
    · rw [hlast, if_neg Bool.false_ne_true] at h
      refine not_awaits_dataLoop reader.next _ (fun hreader => ?_) s h
      have hnumber : reader.number + 1 = reader.number := by
        rw [← reader.number_next, ← Sum.inr.inj hreader]
      simp at hnumber
    · rw [hlast, if_pos rfl] at h
      cases h
  | finished reader => exact absurd rfl hwait
  | thrown e => exact absurd rfl hwait

/-- With a socket that sends everything no foreign datagram is ignored. -/
theorem not_undisturbed_of_sendto (hsend : ∀ log d, sys.sendto log d = none) {s : State}
    (hwait : s.control.Waiting)
    (hsource : source ≠ session.remoteClient) (bits : List UInt8) :
    ¬Undisturbed session source bits s (step sys session s (.datagram source bits)) := by
  have hanswered : ∀ number d n log, ¬AnswerRetried sys session source bits number d n log := by
    rintro number d n log ⟨-, _, h | ⟨-, -, -, h⟩, -⟩ <;> rw [hsend] at h <;> cases h
  rw [undisturbed_iff_of_waiting hwait hsource]
  obtain ⟨control, io⟩ := s
  cases control with
  | oackSent n options oack => exact hanswered _ _ _ _
  | dataSent n reader => exact hanswered _ _ _ _
  | finished reader => exact id
  | thrown e => exact id

/-- **The foreign datagrams that do not disturb a session**: those for which sending an ERROR
packet times out, as long as the session then gets to wait again. -/
theorem undisturbed_iff (os : List RecvOutcome) (hwait : (run sys session os).control.Waiting)
    (hsource : source ≠ session.remoteClient) (bits : List UInt8) :
    Undisturbed session source bits (run sys session os)
        (step sys session (run sys session os) (.datagram source bits)) ↔
      Retries sys session source bits (run sys session os) :=
  undisturbed_iff_of_waiting hwait hsource bits

/-- A stranger's acknowledgement of block 1 of a file of one byte. -/
theorem undisturbed_iff_one_byte :
    let file : File := ⟨[65], by decide⟩
    let session : TftpSessionV4 :=
      ⟨Path.ofString (lit "./"), ⟨1, 1024⟩, ⟨lit "a", lit "octet", ∅⟩⟩
    Undisturbed session ⟨2, 1024⟩ (TftpPacket.ackBits 1) (run (.serving file) session [])
        (step (.serving file) session (run (.serving file) session [])
          (.datagram ⟨2, 1024⟩ (TftpPacket.ackBits 1))) ↔
      Retries (.serving file) session ⟨2, 1024⟩ (TftpPacket.ackBits 1)
        (run (.serving file) session []) :=
  undisturbed_iff [] (by decide +kernel) (by decide) _

set_option maxRecDepth 4000 in
/-- The same acknowledgement, run: the session waits for it, and takes it. -/
theorem foreign_ack_finishes :
    let file : File := ⟨[65], by decide⟩
    let session : TftpSessionV4 :=
      ⟨Path.ofString (lit "./"), ⟨1, 1024⟩, ⟨lit "a", lit "octet", ∅⟩⟩
    ⟨2, 1024⟩ ≠ session.remoteClient ∧ (run (.serving file) session []).control.Waiting ∧
      ¬Undisturbed session ⟨2, 1024⟩ (TftpPacket.ackBits 1) (run (.serving file) session [])
        (step (.serving file) session (run (.serving file) session [])
          (.datagram ⟨2, 1024⟩ (TftpPacket.ackBits 1))) := by
  refine ⟨by decide, by decide +kernel, ?_⟩
  rintro ⟨hsame, -⟩
  revert hsame
  decide +kernel

end TftpSessionV4

end Bootpd
