import Bootpd.TftpHealthySteps
import Bootpd.TftpTransitions

/-!
# How often a packet is sent before a session gives up

Both loops count their retries down from `MAX_RETRIES`. The loop of `io_thread` goes on with the
next block in the same `for`: it sets its counter back in the body, and the decrement of the header
follows. So every block after the first has one retry less.

## Counting from the outside

`Streak` reads the log of a session, and says how many transmissions of the same packet in a row
have timed out, in `sendto` or in `recvfrom`. It knows nothing of the retry counter. A packet is the
same when its bytes are; blocks that follow one another have different numbers, so that a new block
always begins a new streak. Whether the packet is a later block is seen from the one before it.

`Counted` puts the streak beside the counter: what is left and what has timed out make up the limit.
It is kept by every step, for sockets that may fail at any call and receives that may end in any
way.

## What is assumed

The exception of a session that gives up is told apart by its type and its text. So no call of the
system may throw the same one, and this is `System.NeverGivesUp`; the sockets and the file system of
the program throw others. When the report that goes with giving up an OACK cannot be sent, the
exception is that of the socket, and the session has not said that it gives up.

## Main definitions

* `streak`, `Streak.limit` — the time-outs in a row, and how many of them a packet has
* `TftpSessionV4.Counted` — the counter against the streak
* `TftpSessionV4.GivesUp`, `TftpSessionV4.KeepsBudget` — that a session has given up, and that it
  has done so exactly after `MAX_RETRIES` time-outs

## Main results

* `TftpSessionV4.counted_run` — the retry counter against the streak, along every run
* `TftpSessionV4.budget_iff` — when a session gives up after `MAX_RETRIES` time-outs, and only then
-/

namespace Bootpd

open Imperative SocketUdp

/-! ### Counting -/

/-- The opcode of a datagram, as it is sent. -/
def Datagram.opcode (d : Datagram) : List UInt8 := d.bits.take 2

def Datagram.IsError (d : Datagram) : Prop := d.opcode = Scalar.encode .network tftpOpcodeError

def Datagram.IsData (d : Datagram) : Prop := d.opcode = Scalar.encode .network tftpOpcodeData

instance (d : Datagram) : Decidable d.IsError := inferInstanceAs (Decidable (_ = _))

instance (d : Datagram) : Decidable d.IsData := inferInstanceAs (Decidable (_ = _))

/-- The packet a session transmits, apart from ERROR packets, the one it transmitted before, and how
many transmissions of the packet in a row have timed out. -/
structure Streak where
  packet : Option Datagram
  before : Option Datagram
  timeouts : ℕ
deriving DecidableEq

namespace Streak

/-- A transmission: of the same packet again, or of another one. -/
def transmit (k : Streak) (d : Datagram) : Streak :=
  if d.IsError ∨ k.packet = some d then k else ⟨some d, k.packet, 0⟩

/-- A transmission that has timed out, in `sendto` or in `recvfrom`. -/
def timeOut (k : Streak) : Streak := { k with timeouts := k.timeouts + 1 }

/-- What an exception of a call counts for. -/
def throws (k : Streak) : Exception → Streak
  | .socketTimedOut _ => k.timeOut
  | _ => k

def next (k : Streak) : Event → Streak
  | .sent d => k.transmit d
  | .sendFailed d e => (k.transmit d).throws e
  | .received .timedOut => k.timeOut
  | .received _ | .opened _ => k

/-- The packet is a DATA packet behind another one. -/
def IsLaterBlock (k : Streak) : Prop := ∃ d ∈ k.before, d.IsData

/-- The packet is an OACK: what a session sends that is no DATA packet. -/
def IsOack (k : Streak) : Prop := ∃ d ∈ k.packet, ¬d.IsData

instance (k : Streak) : Decidable k.IsLaterBlock :=
  inferInstanceAs (Decidable (∃ d ∈ k.before, d.IsData))

instance (k : Streak) : Decidable k.IsOack :=
  inferInstanceAs (Decidable (∃ d ∈ k.packet, ¬d.IsData))

/-- The time-outs after which a session gives up. -/
def limit (k : Streak) : ℕ := if k.IsLaterBlock then maxRetries - 1 else maxRetries

@[simp] theorem limit_throws (k : Streak) (e : Exception) :
    (k.throws e).limit = k.limit := by
  cases e <;> rfl

theorem timeouts_throws_le (k : Streak) (e : Exception) :
    (k.throws e).timeouts ≤ k.timeouts + 1 := by
  cases e <;> simp [throws, timeOut]

theorem limit_pos (k : Streak) : 0 < k.limit := by
  rw [limit]
  split_ifs <;> decide

theorem limit_le (k : Streak) : k.limit ≤ maxRetries := by
  rw [limit]
  split_ifs <;> decide

/-- The OACK, and the first block. -/
theorem not_isLaterBlock {packet before : Option Datagram} {t : ℕ}
    (hfirst : ∀ d, before = some d → ¬d.IsData) : ¬IsLaterBlock ⟨packet, before, t⟩ := by
  rintro ⟨d, hd, hd'⟩
  exact hfirst d hd hd'

theorem limit_of_first {packet before : Option Datagram} {t : ℕ}
    (hfirst : ∀ d, before = some d → ¬d.IsData) : limit ⟨packet, before, t⟩ = maxRetries :=
  if_neg (not_isLaterBlock hfirst)

end Streak

/-- The streak at the end of a log. -/
def streak (log : List Event) : Streak := log.foldl Streak.next ⟨none, none, 0⟩

@[simp] theorem streak_push (log : List Event) (ev : Event) :
    streak (log ++ [ev]) = (streak log).next ev := by
  rw [streak, List.foldl_append]
  rfl

/-! ### Giving up -/

/-- What a session throws when its retries are used up. -/
def Exception.TooManyRetries (e : Exception) : Prop :=
  e = .runtimeError (lit "Failed to send DATA packet, too many retries.") ∨
    e = .runtimeError (lit "Failed to send OACK packet, too many retries.")

instance (e : Exception) : Decidable e.TooManyRetries := inferInstanceAs (Decidable (_ ∨ _))

/-- An exception that neither ends the retries nor is one of their time-outs. -/
def Exception.Plain (e : Exception) : Prop :=
  ¬e.TooManyRetries ∧ ∀ what, e ≠ .socketTimedOut what

/-- No call of the system throws what a session throws when it gives up. -/
structure System.NeverGivesUp (sys : System) : Prop where
  socket : ∀ e, sys.socket = some e → ¬e.TooManyRetries
  setsockopt : ∀ call option value e, sys.setsockopt call option value = some e →
    ¬e.TooManyRetries
  sendto : ∀ log d e, sys.sendto log d = some e → ¬e.TooManyRetries
  /-- Nor does a call to the file system throw a time-out of the sockets. -/
  filesystem : ∀ call p e, sys.filesystem call p = .inaccessible e → e.Plain

/-- No failed receive throws it either. -/
def RecvOutcome.NeverGivesUp (o : RecvOutcome) : Prop :=
  ∀ e h, o = .failed e h → ¬e.TooManyRetries

/-- Other types of exceptions. -/
theorem plain_of_ne {e : Exception} (hruntime : ∀ what, e ≠ .runtimeError what)
    (htimeout : ∀ what, e ≠ .socketTimedOut what) : e.Plain := by
  refine ⟨?_, htimeout⟩
  rintro (h | h) <;> exact hruntime _ h

theorem plain_of_fileSize {sys : System} (hsys : sys.NeverGivesUp) {call : FileCall} {p : Path}
    {e : Exception} (h : (sys.filesystem call).fileSize p = .error e) : e.Plain := by
  rcases Filesystem.error_of_fileSize h with h | rfl
  · exact hsys.filesystem _ _ _ h
  · exact plain_of_ne (by simp) (by simp)

/-- Texts that begin in another way: both of theirs begin with `Failed`. -/
theorem plain_runtimeError {start : StdString} (rest : StdString)
    (hstart : 2 ≤ start.length ∧ start.take 2 ≠ lit "Fa") :
    (Exception.runtimeError (start ++ rest)).Plain := by
  have htake : ∀ text, start ++ rest = text → start.take 2 = text.take 2 := by
    intro text h
    rw [← h, List.take_append_of_le_length hstart.1]
  refine ⟨?_, by rintro what ⟨⟩⟩
  rintro (h | h)
  · exact hstart.2 ((htake _ (Exception.runtimeError.inj h)).trans (by decide +kernel))
  · exact hstart.2 ((htake _ (Exception.runtimeError.inj h)).trans (by decide +kernel))

namespace TftpSessionV4

variable {sys : System} {session : TftpSessionV4}

/-! ### What transmits no packet -/

/-- `x` sends nothing but ERROR packets, and throws a time-out when its call has timed out. -/
def Steady {α : Type} (x : SessionM α) : Prop :=
  ∀ k, Triple (fun s => streak s.log = k) x (fun _ s => streak s.log = k)
    fun e s => ¬e.TooManyRetries ∧ streak s.log = k.throws e

theorem throws_of_plain {e : Exception} (h : e.Plain) (k : Streak) : k.throws e = k := by
  cases e with
  | socketTimedOut what => exact absurd rfl (h.2 what)
  | _ => rfl

namespace Steady

variable {α β : Type}

theorem pure (a : α) : Steady (pure a) := fun _ => Triple.pure a fun _ h => h

theorem throw {e : Exception} (h : e.Plain) : Steady (throw e : SessionM α) :=
  fun k => Triple.throw e fun _ hs => ⟨h.1, hs.trans (throws_of_plain h k).symm⟩

theorem liftExcept {r : Except Exception α} (h : ∀ e, r = .error e → e.Plain) :
    Steady (liftExcept r) :=
  fun k => Triple.liftExcept (fun _ _ _ hs => hs)
    fun e _ hr hs => ⟨(h e hr).1, hs.trans (throws_of_plain (h e hr) k).symm⟩

theorem bind {x : SessionM α} {f : α → SessionM β} (hx : Steady x) (hf : ∀ a, Steady (f a)) :
    Steady (x >>= f) := fun k => Triple.bind (hx k) fun a => hf a k

end Steady

theorem opcode_eq {op : UInt16} {rest : List UInt8} {target : AddressV4} :
    Datagram.opcode ⟨target, Scalar.encode .network op ++ rest⟩ = Scalar.encode .network op :=
  List.take_left' (Scalar.length_encode .network op)

/-- An ERROR packet is no transmission. -/
theorem transmit_error (k : Streak) (target : AddressV4) (rest : List UInt8) :
    k.transmit ⟨target, Scalar.encode .network tftpOpcodeError ++ rest⟩ = k :=
  if_pos (.inl opcode_eq)

theorem steady_sendError (hsys : sys.NeverGivesUp) (payload : TypeError) (target : AddressV4) :
    Steady (send sys (TftpPacket.error payload) target) := by
  intro k
  have hbits := TftpPacket.serialize_error payload
  generalize Scalar.encode .network payload.errorCode ++ (payload.errorString ++ [0]) = rest
    at hbits
  constructor
  · intro s _ s' hs h
    rw [exec_send hbits] at h
    cases hsend : sys.sendto s.log _ <;> rw [hsend] at h <;> cases h
    rw [IoState.log_push, streak_push, hs]
    exact transmit_error k target rest
  · intro s e s' hs h
    rw [exec_send hbits] at h
    cases hsend : sys.sendto s.log _ <;> rw [hsend] at h <;> cases h
    rw [IoState.log_push, streak_push, hs]
    exact ⟨hsys.sendto _ _ _ hsend, congrArg (Streak.throws · e) (transmit_error k target rest)⟩

theorem steady_recv {o : RecvOutcome} (ho : o.NeverGivesUp) : Steady (recv o) := by
  intro k
  constructor
  · intro s a s' hs h
    rw [exec_recv] at h
    obtain ⟨hresult, rfl⟩ := Prod.mk.inj h
    rw [IoState.log_push, streak_push, hs, eq_datagram_of_recvResult hresult]
    rfl
  · intro s e s' hs h
    rw [exec_recv] at h
    obtain ⟨hresult, rfl⟩ := Prod.mk.inj h
    rw [IoState.log_push, streak_push, hs]
    cases o with
    | timedOut =>
      obtain rfl := Except.error.inj hresult
      exact ⟨by decide, rfl⟩
    | failed e' he =>
      obtain rfl := Except.error.inj hresult
      exact ⟨ho e' he rfl, (throws_of_plain ⟨ho e' he rfl, he⟩ k).symm⟩
    | datagram source bits =>
      rw [recvResult] at hresult
      split_ifs at hresult
      obtain rfl := Except.error.inj hresult
      exact ⟨by decide, rfl⟩

theorem steady_reject (hsys : sys.NeverGivesUp) (α : Type) (payload : TypeError)
    (target : AddressV4) {e : Exception} (he : e.Plain) : Steady (do
      send sys (TftpPacket.error payload) target
      throw e : SessionM α) :=
  (steady_sendError hsys payload target).bind fun _ => Steady.throw he

theorem plain_unexpectedAck (number : UInt64) (blockId : UInt16) :
    (unexpectedAck number blockId).Plain := by
  rw [unexpectedAck, List.append_assoc, List.append_assoc]
  exact plain_runtimeError _ (by decide +kernel)

theorem plain_notAnAck (packet : TftpPacket) : (notAnAck packet).Plain :=
  plain_runtimeError _ (by decide +kernel)

/-- **The half of a loop behind `recv`**. -/
theorem steady_awaitAck (hsys : sys.NeverGivesUp) (session : TftpSessionV4) (number : UInt64)
    {o : RecvOutcome} (ho : o.NeverGivesUp) : Steady (awaitAck sys session number o) := by
  have hsource : ∀ source, Steady (validateSource sys session source) := by
    intro source
    rw [validateSource]
    split_ifs
    · exact steady_sendError hsys _ _
    · exact Steady.pure _
  have hack : ∀ packet, Steady (validateAck sys session packet number) := by
    intro packet
    cases packet with
    | error payload => exact Steady.throw (plain_runtimeError _ (by decide +kernel))
    | ack payload =>
      rw [validateAck_ack]
      split_ifs
      · exact Steady.pure _
      · exact steady_reject hsys _ _ _ (plain_unexpectedAck _ _)
    | monostate | rrq payload | wrq payload | data payload | oack payload =>
      exact steady_reject hsys _ _ _ (plain_notAnAck _)
  have hdecode : ∀ bits e, TftpPacket.ofBits bits = .error e → e.Plain := by
    intro bits e he
    rw [TftpPacket.ofBits_error he]
    exact ⟨by decide, by rintro what ⟨⟩⟩
  exact (steady_recv ho).bind fun a => (hsource a.1).bind fun _ =>
    (Steady.liftExcept (hdecode a.2)).bind hack

/-! ### The retry counter against the streak -/

/-- The last thing in the log is a send that failed. -/
def LastSendFailed (log : List Event) : Prop := ∃ log' d e, log = log' ++ [.sendFailed d e]

/-- How a session ends by an exception. -/
inductive Ended (e : Exception) (log : List Event) : Prop
  | other (he : ¬e.TooManyRetries) (hlt : (streak log).timeouts < (streak log).limit)
  | exhausted (he : e.TooManyRetries) (htimeouts : (streak log).timeouts = (streak log).limit)
      (hreported : ¬((streak log).IsOack ∧ LastSendFailed log))
  /-- The report to the client failed. -/
  | unreported (he : ¬e.TooManyRetries) (hfirst : ¬(streak log).IsLaterBlock)
      (hoack : (streak log).IsOack) (hle : maxRetries ≤ (streak log).timeouts)
      (hlast : LastSendFailed log)

/-- The retries that are left and the time-outs in a row make up the limit. -/
inductive Counted (session : TftpSessionV4) : State → Prop
  | oackSent {n t : ℕ} {before : Option Datagram} {options : OptionsType} {oack : DictionaryType}
      {io : IoState} (hpos : 0 < n)
      (hstreak : streak io.log = ⟨some (oackDatagram oack session.remoteClient), before, t⟩)
      (hfirst : ∀ d, before = some d → ¬d.IsData) (hsum : t + n = maxRetries) :
      Counted session ⟨.oackSent n options oack, io⟩
  | dataSent {n t : ℕ} {before : Option Datagram} {reader : TftpReader} {io : IoState}
      (hpos : 0 < n)
      (hstreak : streak io.log = ⟨some (reader.datagram session.remoteClient), before, t⟩)
      (hsum : t + n = (streak io.log).limit) : Counted session ⟨.dataSent n reader, io⟩
  | finished {reader : TftpReader} {io : IoState}
      (hlt : (streak io.log).timeouts < (streak io.log).limit) :
      Counted session ⟨.finished reader, io⟩
  | thrown {e : Exception} {io : IoState} (h : Ended e io.log) : Counted session ⟨.thrown e, io⟩

theorem counted_thrown {e : Exception} {io : IoState} (he : ¬e.TooManyRetries) {k : Streak}
    (hstreak : streak io.log = k) (hlt : k.timeouts < k.limit) :
    Counted session ⟨.thrown e, io⟩ := by
  refine .thrown (.other he ?_)
  rw [hstreak]
  exact hlt

theorem transmit_again (d : Datagram) (before : Option Datagram) (t : ℕ) :
    Streak.transmit ⟨some d, before, t⟩ d = ⟨some d, before, t⟩ := if_pos (.inr rfl)

/-- **A loop** for the datagram `d`, entered with `t` time-outs of it in a row. Before its first
transmission these are none, whatever was sent before. -/
theorem counted_sendLoop (hsys : sys.NeverGivesUp) (hstop : sys.NoStop) {packet : TftpPacket}
    {d : Datagram} (htarget : d.target = session.remoteClient)
    (hbits : serializeToVector packet = .ok d.bits) {waiting : ℕ → Control}
    {stopped exhausted : SessionM Control} {before : Option Datagram} {limit : ℕ}
    (hlimit : ∀ t, Streak.limit ⟨some d, before, t⟩ = limit)
    (hwaiting : ∀ {n t io}, 0 < n → t + n = limit → streak io.log = ⟨some d, before, t⟩ →
      Counted session ⟨waiting n, io⟩)
    (hexhausted : ∀ {io : IoState}, streak io.log = ⟨some d, before, limit⟩ →
      Counted session (settle (exec exhausted io))) {n t : ℕ} {io : IoState} (hn : t + n = limit)
    (hio : (streak io.log).transmit d = ⟨some d, before, t⟩) :
    Counted session
      (settle (exec (sendLoop sys session packet waiting stopped exhausted n) io)) := by
  obtain ⟨target, bits⟩ := d
  obtain rfl : target = session.remoteClient := htarget
  induction n generalizing t io with
  | zero =>
    refine hexhausted ?_
    -- a loop that has no retries left has transmitted its packet
    obtain rfl : t = limit := hn
    have hpos := Streak.limit_pos ⟨some ⟨session.remoteClient, bits⟩, before, t⟩
    rw [hlimit] at hpos
    rw [Streak.transmit] at hio
    split_ifs at hio
    · exact hio
    · have htimeouts := congrArg Streak.timeouts hio
      exact absurd htimeouts hpos.ne
  | succ n ih =>
    rw [exec_sendLoop_succ hbits, hstop io.log, if_neg Bool.false_ne_true]
    cases hsend : sys.sendto io.log ⟨session.remoteClient, bits⟩ with
    | none =>
      refine hwaiting n.succ_pos hn ?_
      rw [IoState.log_push, streak_push]
      exact hio
    | some e =>
      have hstreak : streak (io.push (.sendFailed ⟨session.remoteClient, bits⟩ e)).log =
          Streak.throws ⟨some ⟨session.remoteClient, bits⟩, before, t⟩ e := by
        rw [IoState.log_push, streak_push]
        exact congrArg (Streak.throws · e) hio
      by_cases htimeout : ∃ what, e = .socketTimedOut what
      · obtain ⟨what, rfl⟩ := htimeout
        have hsum : t + 1 + n = limit := by omega
        refine ih hsum ?_
        rw [hstreak]
        exact transmit_again _ _ _
      · have he : ∀ what, e ≠ .socketTimedOut what := fun what h => htimeout ⟨what, h⟩
        have hplain : e.Plain := ⟨hsys.sendto _ _ _ hsend, he⟩
        dsimp only
        rw [onTimeout_error he]
        refine counted_thrown hplain.1 hstreak ?_
        rw [throws_of_plain hplain, hlimit]
        show t < limit
        omega

/-! ### The packets of a session -/

theorem isData_datagram (reader : TftpReader) (target : AddressV4) :
    (reader.datagram target).IsData := opcode_eq

theorem not_isData_oackDatagram (oack : DictionaryType) (target : AddressV4) :
    ¬(oackDatagram oack target).IsData := by
  rw [Datagram.IsData, oackDatagram, opcode_eq]
  decide

theorem not_isError_datagram (reader : TftpReader) (target : AddressV4) :
    ¬(reader.datagram target).IsError := by
  rw [Datagram.IsError, TftpReader.datagram, TftpPacket.dataBits, opcode_eq]
  decide

theorem not_isError_oackDatagram (oack : DictionaryType) (target : AddressV4) :
    ¬(oackDatagram oack target).IsError := by
  rw [Datagram.IsError, oackDatagram, opcode_eq]
  decide

/-- Two blocks in a row are two packets. -/
theorem datagram_ne_next (reader : TftpReader) (target : AddressV4) :
    reader.datagram target ≠ reader.next.datagram target := by
  intro h
  have hpackets := congrArg (fun d => TftpPacket.ofBits d.bits) h
  simp only [TftpReader.datagram, TftpPacket.ofBits_dataBits] at hpackets
  have hids := (TypeData.mk.inj (TftpPacket.data.inj (Except.ok.inj hpackets))).1
  rw [TftpReader.number_next, ← UInt16.toNat_inj, UInt16.toNat_ofNat', UInt16.toNat_ofNat',
    UInt64.toNat_add] at hids
  have hone : (1 : UInt64).toNat = 1 := rfl
  omega

theorem transmit_of_ne {k : Streak} {d : Datagram} (herror : ¬d.IsError)
    (hne : k.packet ≠ some d) : k.transmit d = ⟨some d, k.packet, 0⟩ :=
  if_neg (not_or.mpr ⟨herror, hne⟩)

/-! ### The parts of a session -/

theorem counted_dataLoop (hsys : sys.NeverGivesUp) (hstop : sys.NoStop) {reader : TftpReader}
    {before : Option Datagram} {n t : ℕ} {io : IoState}
    (hn : t + n =
      Streak.limit ⟨some (reader.datagram session.remoteClient), before, t⟩)
    (hio : (streak io.log).transmit (reader.datagram session.remoteClient) =
      ⟨some (reader.datagram session.remoteClient), before, t⟩) :
    Counted session (settle (exec (dataLoop sys session reader n) io)) := by
  refine counted_sendLoop hsys hstop rfl (serialize_readerData reader session.remoteClient)
    (fun _ => rfl) ?_ ?_ hn hio
  · intro n t io hpos hsum hstreak
    refine .dataSent hpos hstreak ?_
    rw [hstreak]
    exact hsum
  · intro io hstreak
    rw [settle_throw]
    refine .thrown (.exhausted (.inl rfl) ?_ ?_)
    · rw [hstreak]
      rfl
    · rintro ⟨⟨d, hpacket, hdata⟩, -⟩
      obtain rfl := Option.some.inj ((congrArg Streak.packet hstreak).symm.trans hpacket)
      exact hdata (isData_datagram reader session.remoteClient)

/-- Setting the time-outs is no event. -/
theorem counted_timeout (hsys : sys.NeverGivesUp) (session : TftpSessionV4) (call : TimeoutCall)
    (dur : UInt64) {k : Streak} (hlt : k.timeouts < k.limit) :
    Triple (fun io => streak io.log = k) (timeout sys call dur) (fun _ io => streak io.log = k)
      fun e io => Counted session ⟨.thrown e, io⟩ := by
  constructor
  · intro io _ io' hio h
    rcases exec_setTimeout_cases sys call dur io with ⟨-, hset⟩ | ⟨e, s', -, hset, -⟩ <;>
      rw [hset] at h <;> cases h
    exact hio
  · intro io e io' hio h
    rcases exec_setTimeout_cases sys call dur io with ⟨-, hset⟩ | ⟨e', s', herror, hset, hlog⟩ <;>
      rw [hset] at h <;> cases h
    have hthrown : ¬e.TooManyRetries := by
      rcases Option.or_eq_some_iff.mp herror with h | ⟨-, h⟩ <;> exact hsys.setsockopt _ _ _ _ h
    exact counted_thrown hthrown (hlog ▸ hio) hlt

/-- The constructor of the reader transmits nothing, and no time-out comes from it. -/
theorem counted_makeReader (hsys : sys.NeverGivesUp) (session : TftpSessionV4) (path : Path)
    (length blksiz : UInt64) (isBinary : Bool) {k : Streak} (hlt : k.timeouts < k.limit) :
    Triple (fun io => streak io.log = k) (TftpReader.make sys path length blksiz isBinary)
      (fun _ io => streak io.log = k) fun e io => Counted session ⟨.thrown e, io⟩ := by
  have hopened : Triple (fun io => streak io.log = k)
      (modify fun s => s.push (.opened path) : SessionM PUnit) (fun _ io => streak io.log = k)
      fun e io => Counted session ⟨.thrown e, io⟩ := by
    constructor
    · rintro io _ io' hio ⟨⟩
      rw [IoState.log_push, streak_push, hio]
      rfl
    · rintro io e io' hio ⟨⟩
  rw [TftpReader.make]
  refine hopened.bind fun _ => (Triple.liftExcept (fun _ _ _ hio => hio)
    fun e io hsize hio => ?_).bind fun length => ?_
  · refine counted_thrown ?_ hio hlt
    rw [TftpReader.lengthOf] at hsize
    split_ifs at hsize
    exact (plain_of_fileSize hsys hsize).1
  · split_ifs
    · have hbad : Exception.badAlloc.Plain := plain_of_ne (by simp) (by simp)
      exact Triple.throw _ fun io hio => counted_thrown hbad.1 hio hlt
    · exact Triple.pure _ fun io hio => hio

/-- **The start of a transfer**, behind no packet or behind the OACK. -/
theorem counted_startTransfer (hsys : sys.NeverGivesUp) (hstop : sys.NoStop)
    (session : TftpSessionV4) (options : OptionsType) {k : Streak} (hlt : k.timeouts < k.limit)
    (hpacket : ∀ d, k.packet = some d → ¬d.IsData) {io : IoState} (hio : streak io.log = k) :
    Counted session (settle (exec (startTransfer sys session options) io)) := by
  rw [startTransfer]
  refine settle_bind (counted_timeout hsys session _ _ hlt) (fun _ io hio => ?_) hio
  refine settle_bind (counted_makeReader hsys session _ _ _ _ hlt) (fun reader io hio => ?_) hio
  have hdata := isData_datagram reader session.remoteClient
  refine @counted_dataLoop sys session hsys hstop reader k.packet maxRetries 0 io ?_ ?_
  · rw [Streak.limit_of_first hpacket]
    rfl
  · rw [hio]
    exact transmit_of_ne (not_isError_datagram _ _) fun h => hpacket _ h hdata

/-- Giving up the OACK: the client is told, if the report can be sent. -/
theorem counted_giveUpOack (hsys : sys.NeverGivesUp) {oack : DictionaryType}
    {before : Option Datagram} (hfirst : ∀ d, before = some d → ¬d.IsData) {io : IoState}
    (hio : streak io.log =
      ⟨some (oackDatagram oack session.remoteClient), before, maxRetries⟩) :
    Counted session (settle (exec (do
      send sys (TftpPacket.makeErrorString .undefined (lit "TFTP operation timed out."))
        session.remoteClient
      throw (.runtimeError (lit "Failed to send OACK packet, too many retries.")) :
        SessionM Control) io)) := by
  have hbits := TftpPacket.serialize_error ⟨.undefined, lit "TFTP operation timed out."⟩
  have hsend : exec (send sys (TftpPacket.makeErrorString .undefined
    (lit "TFTP operation timed out.")) session.remoteClient) io = _ :=
    exec_send hbits session.remoteClient io
  generalize Scalar.encode .network ErrorCategoryType.undefined ++
    (lit "TFTP operation timed out." ++ [0]) = rest at hsend
  cases hanswer : sys.sendto io.log
    ⟨session.remoteClient, Scalar.encode .network tftpOpcodeError ++ rest⟩ with
  | none =>
    rw [hanswer] at hsend
    rw [exec_bind_ok hsend, settle_throw]
    have hstreak := streak_push io.log
      (.sent ⟨session.remoteClient, Scalar.encode .network tftpOpcodeError ++ rest⟩)
    rw [Streak.next, transmit_error, hio] at hstreak
    refine .thrown (.exhausted (.inr rfl) ?_ ?_)
    · rw [IoState.log_push, hstreak, Streak.limit_of_first hfirst]
    · rintro ⟨-, log', d, e, hlast⟩
      cases (List.append_inj' hlast rfl).2
  | some e =>
    rw [hanswer] at hsend
    rw [exec_bind_error hsend]
    have hstreak := streak_push io.log
      (.sendFailed ⟨session.remoteClient, Scalar.encode .network tftpOpcodeError ++ rest⟩ e)
    rw [Streak.next, transmit_error, hio] at hstreak
    -- the failed report may count as one time-out more
    obtain ⟨t, hle, hthrows⟩ : ∃ t, maxRetries ≤ t ∧ Streak.throws
        ⟨some (oackDatagram oack session.remoteClient), before, maxRetries⟩ e =
        ⟨some (oackDatagram oack session.remoteClient), before, t⟩ := by
      cases e with
      | socketTimedOut what => exact ⟨maxRetries + 1, Nat.le_succ _, rfl⟩
      | _ => exact ⟨maxRetries, le_rfl, rfl⟩
    rw [hthrows] at hstreak
    refine .thrown (.unreported (hsys.sendto _ _ _ hanswer) ?_ ?_ ?_ ⟨io.log, _, e, rfl⟩)
    · rw [IoState.log_push, hstreak]
      exact Streak.not_isLaterBlock hfirst
    · rw [IoState.log_push, hstreak]
      exact ⟨_, rfl, not_isData_oackDatagram _ _⟩
    · rw [IoState.log_push, hstreak]
      exact hle

theorem counted_oackLoop (hsys : sys.NeverGivesUp) (hstop : sys.NoStop) (options : OptionsType)
    (oack : DictionaryType) {before : Option Datagram} {n t : ℕ} {io : IoState}
    (hfirst : ∀ d, before = some d → ¬d.IsData) (hn : t + n = maxRetries)
    (hio : (streak io.log).transmit (oackDatagram oack session.remoteClient) =
      ⟨some (oackDatagram oack session.remoteClient), before, t⟩) :
    Counted session (settle (exec (oackLoop sys session options oack n) io)) := by
  exact counted_sendLoop (d := oackDatagram oack session.remoteClient) hsys hstop rfl
    (TftpPacket.serialize_oack ⟨oack⟩) (fun _ => Streak.limit_of_first hfirst)
    (fun hpos hsum hstreak => .oackSent hpos hstreak hfirst hsum)
    (counted_giveUpOack hsys hfirst) hn hio

/-! ### The streak of a session -/

theorem plain_of_parseOptions {options : OptionsType} {dict : DictionaryType} {e : Exception}
    (h : parseOptions options dict = .error e) : e.Plain := by
  have hnumber : ∀ {text : StdString} {e : Exception}, stoull 10 text = .error e → e.Plain := by
    intro text e h
    rw [stoull] at h
    dsimp only at h
    split_ifs at h <;> obtain rfl := Except.error.inj h <;> exact plain_of_ne (by simp) (by simp)
  have hoption : ∀ {name : StdString} {oack : DictionaryType} {value : UInt64} {e : Exception},
      parseOption name dict oack value = .error e → e.Plain := by
    intro name oack value e h
    cases htext : dict.lookup name with
    | none =>
      rw [parseOption, htext] at h
      cases h
    | some text =>
      rw [parseOption_some htext] at h
      cases hresult : stoull 10 text <;> rw [hresult] at h <;> cases h
      exact hnumber hresult
  rw [parseOptions] at h
  cases hblksize : parseOption (lit "blksize") dict ∅ options.blksize with
  | error e' =>
    rw [hblksize] at h
    obtain rfl := Except.error.inj h
    exact hoption hblksize
  | ok r =>
    rw [hblksize] at h
    cases htimeout : parseOption (lit "timeout") dict r.2 options.timeout with
    | error e' =>
      dsimp only [bind, Except.bind] at h
      rw [htimeout] at h
      obtain rfl := Except.error.inj h
      exact hoption htimeout
    | ok r' =>
      dsimp only [bind, Except.bind] at h
      rw [htimeout] at h
      cases h

theorem steady_validateRequest (hsys : sys.NeverGivesUp) (session : TftpSessionV4) :
    Steady (validateRequest sys session) := by
  rw [validateRequest]
  split_ifs
  · exact steady_reject hsys _ _ _ (plain_runtimeError _ (by decide +kernel))
  · exact Steady.pure _

theorem steady_validateFilepath (hsys : sys.NeverGivesUp) (session : TftpSessionV4)
    (filePath : Path) : Steady (validateFilepath sys session filePath) := by
  have hplain : ∀ start rest, start = lit "File not found: " ∨ start = lit "Not a file: " →
      (Exception.runtimeError (start ++ rest)).Plain := by
    rintro start rest (rfl | rfl)
    · exact plain_runtimeError _ (by decide +kernel)
    · exact plain_runtimeError _ (by decide +kernel)
  have hregular : Steady (do
      let regular ← liftExcept ((sys.filesystem .isRegularFile).isRegularFile filePath)
      if !regular then
        send sys (TftpPacket.makeError .fileNotFound) session.remoteClient
        throw (.runtimeError (lit "Not a file: " ++ filePath.string))) := by
    refine (Steady.liftExcept fun e he =>
      hsys.filesystem _ _ _ (Filesystem.error_of_isRegularFile he)).bind fun regular => ?_
    split_ifs
    · exact steady_reject hsys _ _ _ (hplain _ _ (.inr rfl))
    · exact Steady.pure _
  rw [validateFilepath]
  refine (Steady.liftExcept fun e he =>
    hsys.filesystem _ _ _ (Filesystem.error_of_fileExists he)).bind fun found => ?_
  split_ifs
  · exact (steady_sendError hsys _ _).bind fun _ =>
      (Steady.throw (hplain _ _ (.inl rfl))).bind fun _ => hregular
  · exact hregular

/-- The first state of a session. -/
theorem counted_start (hsys : sys.NeverGivesUp) (hstop : sys.NoStop) (session : TftpSessionV4) :
    Counted session (start sys session) := by
  have hlimit : Streak.limit ⟨none, none, 0⟩ = maxRetries := Streak.limit_of_first (by simp)
  have hlt : Streak.timeouts ⟨none, none, 0⟩ < Streak.limit ⟨none, none, 0⟩ := by
    rw [hlimit]
    decide
  have hsteady : ∀ {α : Type} {x : SessionM α}, Steady x →
      Triple (fun io => streak io.log = ⟨none, none, 0⟩) x
        (fun _ io => streak io.log = ⟨none, none, 0⟩)
        fun e io => Counted session ⟨.thrown e, io⟩ := by
    intro α x hx
    refine (hx _).mono (fun _ h => h) (fun _ _ h => h) fun e io h => counted_thrown h.1 h.2 ?_
    have hle := Streak.timeouts_throws_le ⟨none, none, 0⟩ e
    rw [Streak.limit_throws, hlimit]
    exact hle.trans_lt (by decide)
  have hmake : Triple (fun io => streak io.log = ⟨none, none, 0⟩) (SocketUdp.make sys)
      (fun _ io => streak io.log = ⟨none, none, 0⟩)
      fun e io => Counted session ⟨.thrown e, io⟩ := by
    rw [SocketUdp.make]
    cases hsocket : sys.socket with
    | none => exact Triple.pure _ fun _ h => h
    | some e => exact Triple.throw e fun _ h => counted_thrown (hsys.socket e hsocket) h hlt
  rw [start, ioThread]
  refine settle_bind hmake (fun _ io hio => ?_) rfl
  refine settle_bind (counted_timeout hsys session _ _ hlt) (fun _ io hio => ?_) hio
  refine settle_bind (hsteady (steady_validateRequest hsys session)) (fun _ io hio => ?_) hio
  refine settle_bind (hsteady (steady_validateFilepath hsys session _)) (fun _ io hio => ?_) hio
  refine settle_bind (hsteady (Steady.liftExcept fun e he =>
    plain_of_fileSize hsys he)) (fun tsize io hio => ?_) hio
  dsimp only
  split_ifs
  · exact counted_startTransfer hsys hstop session _ hlt (by simp) hio
  · refine settle_bind (hsteady (Steady.liftExcept fun e => plain_of_parseOptions))
      (fun r io hio => ?_) hio
    refine @counted_oackLoop sys session hsys hstop r.1 r.2 none maxRetries 0 io (by simp) rfl ?_
    rw [hio]
    exact transmit_of_ne (not_isError_oackDatagram _ _) (by simp)

/-- A wait: it times out, or is acknowledged, or ends the session. -/
theorem counted_wait (hsys : sys.NeverGivesUp) {s : State} {number : UInt64} {o : RecvOutcome}
    (ho : o.NeverGivesUp) {retry rest : SessionM Control}
    (hresume : resume sys session s.control o = (do
      let r ← observing (awaitAck sys session number o)
      onTimeout r retry fun _ => rest)) {k : Streak} (hs : streak s.io.log = k)
    (hlt : k.timeouts < k.limit)
    (hretry : ∀ io, streak io.log = k.timeOut → Counted session (settle (exec retry io)))
    (hrest : ∀ io, streak io.log = k → Counted session (settle (exec rest io))) :
    Counted session (step sys session s o) := by
  have hsteady := steady_awaitAck hsys session number ho k
  rcases hawait : exec (awaitAck sys session number o) s.io with ⟨e | _, io⟩
  · obtain ⟨he, hio⟩ := hsteady.error hs hawait
    by_cases htimeout : ∃ what, e = .socketTimedOut what
    · obtain ⟨what, rfl⟩ := htimeout
      rw [step_of_timedOut hresume hawait]
      exact hretry io hio
    · have hne : ∀ what, e ≠ .socketTimedOut what := fun what h => htimeout ⟨what, h⟩
      rw [throws_of_plain ⟨he, hne⟩] at hio
      rw [step_of_error hresume hne hawait]
      exact counted_thrown he hio hlt
  · rw [step_of_ok hresume hawait]
    exact hrest io (hsteady.ok hs hawait)

/-- **One outcome.** -/
theorem counted_step (hsys : sys.NeverGivesUp) (hstop : sys.NoStop) {s : State}
    (h : Counted session s) {o : RecvOutcome} (ho : o.NeverGivesUp) :
    Counted session (step sys session s o) := by
  cases h with
  | @oackSent n t before options oack io hpos hstreak hfirst hsum =>
    have hlt : Streak.timeouts ⟨some (oackDatagram oack session.remoteClient), before, t⟩ <
        Streak.limit ⟨some (oackDatagram oack session.remoteClient), before, t⟩ := by
      rw [Streak.limit_of_first hfirst]
      show t < maxRetries
      omega
    refine counted_wait hsys ho rfl hstreak hlt ?_ ?_
    · intro io' hio
      have hretry : t + 1 + (n - 1) = maxRetries := by omega
      refine counted_oackLoop hsys hstop options oack hfirst hretry ?_
      rw [hio]
      exact transmit_again _ _ _
    · intro io' hio
      refine counted_startTransfer hsys hstop session options hlt ?_ hio
      intro d hd
      obtain rfl := Option.some.inj hd
      exact not_isData_oackDatagram oack session.remoteClient
  | @dataSent n t before reader io hpos hstreak hsum =>
    rw [hstreak] at hsum
    have hlt : Streak.timeouts ⟨some (reader.datagram session.remoteClient), before, t⟩ <
        Streak.limit ⟨some (reader.datagram session.remoteClient), before, t⟩ := by
      show t < _
      omega
    refine counted_wait hsys ho rfl hstreak hlt ?_ ?_
    · intro io' hio
      have hretry : t + 1 + (n - 1) =
          Streak.limit ⟨some (reader.datagram session.remoteClient), before, t + 1⟩ := by
        rw [show t + 1 + (n - 1) = t + n by omega, hsum]
        rfl
      refine counted_dataLoop hsys hstop hretry ?_
      rw [hio]
      exact transmit_again _ _ _
    · intro io' hio
      split_ifs
      · show Counted session ⟨.finished reader, io'⟩
        refine .finished ?_
        rw [hio]
        exact hlt
      · -- the next block comes behind a DATA packet, so it has one retry less
        have hlater : Streak.IsLaterBlock ⟨some (reader.next.datagram session.remoteClient),
            some (reader.datagram session.remoteClient), 0⟩ :=
          ⟨_, rfl, isData_datagram reader session.remoteClient⟩
        have hbudget : 0 + (maxRetries - 1) = Streak.limit
            ⟨some (reader.next.datagram session.remoteClient),
              some (reader.datagram session.remoteClient), 0⟩ := by
          rw [Streak.limit, if_pos hlater]
          rfl
        refine counted_dataLoop hsys hstop hbudget ?_
        rw [hio]
        exact transmit_of_ne (not_isError_datagram _ _) fun h =>
          datagram_ne_next reader session.remoteClient (Option.some.inj h)
  | finished hlt => exact .finished hlt
  | thrown h => exact .thrown h

/-- **The retry counter along a run.** -/
theorem counted_run (hsys : sys.NeverGivesUp) (hstop : sys.NoStop) (session : TftpSessionV4)
    {os : List RecvOutcome} (hos : ∀ o ∈ os, o.NeverGivesUp) :
    Counted session (run sys session os) := by
  induction os using List.reverseRecOn with
  | nil => exact counted_start hsys hstop session
  | append_singleton os o ih =>
    rw [run_append_singleton]
    exact counted_step hsys hstop (ih fun o ho => hos o (List.mem_append_left _ ho))
      (hos o (List.mem_append_right _ (List.mem_singleton_self o)))

/-! ### The budget -/

/-- The session has given up. -/
def GivesUp (s : State) : Prop := ∃ e, s.control = .thrown e ∧ e.TooManyRetries

/-- The session has given up exactly if `MAX_RETRIES` transmissions of its packet in a row have
timed out. -/
def KeepsBudget (s : State) : Prop :=
  GivesUp s ↔ maxRetries ≤ (streak s.io.log).timeouts

/-- A DATA packet behind another one that has timed out nine times in a row. -/
def CutShort (log : List Event) : Prop :=
  (streak log).IsLaterBlock ∧ (streak log).timeouts = maxRetries - 1

/-- An OACK that has timed out ten times in a row, and then a report that could not be sent. -/
def Unreported (log : List Event) : Prop :=
  (streak log).IsOack ∧ maxRetries ≤ (streak log).timeouts ∧ LastSendFailed log

/-- Below the limit no session has given up, and none has to. -/
theorem keepsBudget_iff_of_lt {s : State} (hgives : ¬GivesUp s)
    (hlt : (streak s.io.log).timeouts < (streak s.io.log).limit) :
    KeepsBudget s ↔ ¬CutShort s.io.log ∧ ¬Unreported s.io.log := by
  have hle := Streak.limit_le (streak s.io.log)
  refine iff_of_true (iff_of_false hgives (by omega)) ⟨?_, ?_⟩
  · rintro ⟨hlater, htimeouts⟩
    rw [Streak.limit, if_pos hlater] at hlt
    omega
  · rintro ⟨-, hmany, -⟩
    omega

theorem keepsBudget_iff_of_ended {e : Exception} {io : IoState} (h : Ended e io.log) :
    KeepsBudget ⟨.thrown e, io⟩ ↔ ¬CutShort io.log ∧ ¬Unreported io.log := by
  have hgives : GivesUp ⟨.thrown e, io⟩ ↔ e.TooManyRetries := by
    refine ⟨?_, fun he => ⟨e, rfl, he⟩⟩
    rintro ⟨e', he', hmany⟩
    obtain rfl := Control.thrown.inj he'
    exact hmany
  cases h with
  | other he hlt => exact keepsBudget_iff_of_lt (mt hgives.mp he) hlt
  | exhausted he htimeouts hreported =>
    by_cases hlater : (streak io.log).IsLaterBlock
    · rw [Streak.limit, if_pos hlater] at htimeouts
      refine iff_of_false ?_ fun h => h.1 ⟨hlater, htimeouts⟩
      intro hkeeps
      have hle : maxRetries ≤ (streak io.log).timeouts := hkeeps.mp (hgives.mpr he)
      rw [htimeouts] at hle
      exact absurd hle (by decide)
    · rw [Streak.limit, if_neg hlater] at htimeouts
      exact iff_of_true (iff_of_true (hgives.mpr he) htimeouts.ge)
        ⟨fun h => hlater h.1, fun h => hreported ⟨h.1, h.2.2⟩⟩
  | unreported he hfirst hoack hle hlast =>
    refine iff_of_false ?_ ?_
    · intro hkeeps
      exact he (hgives.mp (hkeeps.mpr hle))
    · intro h
      exact h.2 ⟨hoack, hle, hlast⟩

/-- **The retry budget.** It is the same for every packet but for two kinds of runs: a block after
the first is given up after nine time-outs, and an OACK that is given up is not reported as such
when the ERROR packet for it cannot be sent. -/
theorem budget_iff (hsys : sys.NeverGivesUp) (hstop : sys.NoStop) (session : TftpSessionV4)
    {os : List RecvOutcome} (hos : ∀ o ∈ os, o.NeverGivesUp) :
    KeepsBudget (run sys session os) ↔
      ¬CutShort (run sys session os).io.log ∧ ¬Unreported (run sys session os).io.log := by
  have hcounted := counted_run hsys hstop session hos
  generalize run sys session os = s at hcounted
  cases hcounted with
  | @oackSent n t before options oack io hpos hstreak hfirst hsum =>
    refine keepsBudget_iff_of_lt (by rintro ⟨e, ⟨⟩, -⟩) ?_
    rw [hstreak, Streak.limit_of_first hfirst]
    show t < maxRetries
    omega
  | @dataSent n t before reader io hpos hstreak hsum =>
    refine keepsBudget_iff_of_lt (by rintro ⟨e, ⟨⟩, -⟩) ?_
    rw [← hsum, hstreak]
    show t < t + n
    omega
  | finished hlt => exact keepsBudget_iff_of_lt (by rintro ⟨e, ⟨⟩, -⟩) hlt
  | thrown h => exact keepsBudget_iff_of_ended h

theorem neverGivesUp_serving (file : File) : (System.serving file).NeverGivesUp :=
  ⟨by rintro _ ⟨⟩, by rintro _ _ _ _ ⟨⟩, by rintro _ _ _ ⟨⟩, by rintro _ _ _ ⟨⟩⟩

/-- A client that asks for blocks of 2 bytes. -/
def shortBlocks : TftpSessionV4 :=
  ⟨Path.ofString (lit "./"), ⟨1, 1024⟩,
    ⟨lit "a", lit "octet", UnorderedMap.emplace ∅ (lit "blksize") (lit "2")⟩⟩

theorem budget_firstBlock :
    KeepsBudget (run (.serving ⟨[65, 66, 67], by decide⟩) shortBlocks
      (shortBlocks.ackOf 0 :: List.replicate 10 .timedOut)) := by
  refine (budget_iff (neverGivesUp_serving _)
    (System.noStop_serving _) shortBlocks ?_).mpr ⟨?_, ?_⟩
  · rintro o ho e he rfl
    rcases List.mem_cons.mp ho with h | h
    · cases h
    · cases (List.mem_replicate.mp h).2
  · rintro ⟨hlater, -⟩
    exact absurd hlater (by decide +kernel)
  · rintro ⟨hoack, -⟩
    exact absurd hoack (by decide +kernel)

/-- **The second block** is given up after nine time-outs. -/
theorem not_keepsBudget :
    ¬KeepsBudget (run (.serving ⟨[65, 66, 67], by decide⟩) shortBlocks
      (shortBlocks.ackOf 0 :: shortBlocks.ackOf 1 :: List.replicate 9 .timedOut)) := by
  intro h
  have hle := h.mp ⟨.runtimeError (lit "Failed to send DATA packet, too many retries."),
    by decide +kernel, by decide +kernel⟩
  exact absurd hle (by decide +kernel)

end TftpSessionV4

end Bootpd
