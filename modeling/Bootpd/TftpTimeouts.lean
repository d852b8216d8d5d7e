import Bootpd.TftpHealthySteps
import Bootpd.TftpTransitions

/-!
# The time-out a client asks for

The number of the option `timeout` is multiplied by 1000 in 64 bits, and the two options of the
socket get the low 32 bits of that. A session sets them twice: to one second at its start, and to
what the client asked for in front of the first block.

## What can be asked for

Any text that `stoull` reads is accepted, whatever its number. A socket takes the time-out 0 for no
time-out at all, so that 0 seconds, and every number whose milliseconds are a multiple of 2^32, turn
it off; other large numbers become whatever is left of them in 32 bits. What is acknowledged is the
number, and honouring it means that both options of the socket are exactly that many seconds, and
that no receive waits for ever.

A call of `setsockopt` may fail, and then no transfer begins. So nothing is assumed about the
system: within a transfer both options are what `timeout` has set.

## Main definitions

* `TftpSessionV4.Timed` — what the options of the socket are, at every place of a session
* `TftpSessionV4.InTransfer` — the data loop has been entered
* `TftpSessionV4.HonoursTimeout` — the options are what a text asks for

## Main results

* `TftpSessionV4.timed_run` — what the options of the socket are, along every run
* `TftpSessionV4.honoursTimeout_iff` — the numbers of seconds that are honoured
-/

namespace Bootpd

open Imperative SocketUdp

/-- Both time-outs of the socket. -/
def IoState.timeouts (s : IoState) : UInt32 × UInt32 := (s.soRcvtimeo, s.soSndtimeo)

namespace TftpSessionV4

variable {sys : System} {session : TftpSessionV4}

/-! ### What leaves the time-outs alone -/

theorem preserves_send {T : Type} [Serializable T] (packet : T) (target : AddressV4) :
    Preserves IoState.timeouts (send sys packet target) := by
  rw [send]
  refine (Preserves.liftExcept _).bind fun bits => fun s => ?_
  rw [exec_bind_ok (exec_get s)]
  cases sys.sendto s.log ⟨target, bits⟩ <;> rfl

theorem preserves_awaitAck (number : UInt64) (o : RecvOutcome) :
    Preserves IoState.timeouts (awaitAck sys session number o) := by
  have hrecv : ∀ o, Preserves IoState.timeouts (recv o) := fun o s => by
    rw [exec_recv]
    rfl
  exact compositional_awaitAck (Preserves.compositional _) (fun _ _ => preserves_send _ _) hrecv
    session number o

theorem preserves_dataLoop (reader : TftpReader) (n : ℕ) :
    Preserves IoState.timeouts (dataLoop sys session reader n) :=
  compositional_sendLoop (Preserves.compositional _) (preserves_send _ _) (Preserves.pure _)
    (Preserves.throw _) n

theorem preserves_makeReader (path : Path) (length blksiz : UInt64) (isBinary : Bool) :
    Preserves IoState.timeouts (TftpReader.make sys path length blksiz isBinary) :=
  compositional_makeReader (Preserves.compositional _) path (fun _ => rfl) length blksiz isBinary

/-- The data loop, from one `recv` to the next. -/
theorem preserves_resume_dataSent (c : ℕ) (reader : TftpReader) (o : RecvOutcome) :
    Preserves IoState.timeouts (resume sys session (.dataSent c reader) o) := by
  refine (preserves_awaitAck reader.number o).observing.bind fun r =>
    compositional_onTimeout (Preserves.compositional _) r (preserves_dataLoop reader _)
      fun _ => ?_
  split_ifs
  · exact Preserves.pure _
  · exact preserves_dataLoop reader.next _

/-! ### What the time-outs are -/

/-- A transfer has both time-outs at `T` seconds, and a session in front of it will have. -/
def Timed (T : UInt64) (s : State) : Prop :=
  match s.control with
  | .oackSent _ options _ => options.timeout = T
  | .dataSent .. | .finished _ => s.io.timeouts = ((seconds T).toUInt32, (seconds T).toUInt32)
  | .thrown _ => True

/-- `x` leaves a session as `I` says. -/
def Leaves (x : SessionM Control) (I : State → Prop) : Prop := ∀ io, I (settle (exec x io))

theorem timed_startTransfer (sys : System) (session : TftpSessionV4) (options : OptionsType) :
    Leaves (startTransfer sys session options) (Timed options.timeout) := by
  intro io
  have hbegins := @returns_startTransfer sys session options
  rcases hrun : exec (startTransfer sys session options) io with ⟨e | control, io'⟩
  · trivial
  · have htimeouts : io'.timeouts =
        ((seconds options.timeout).toUInt32, (seconds options.timeout).toUInt32) := by
      rw [startTransfer] at hrun
      obtain ⟨_, io₁, htimeout, hrun⟩ := exec_bind_eq_ok hrun
      obtain ⟨reader, io₂, hmake, hrun⟩ := exec_bind_eq_ok hrun
      have hloop := @preserves_dataLoop sys session reader maxRetries io₂
      have hreader := @preserves_makeReader sys session.filePath options.tsize
        options.blksize (session.request.xfermode == lit "octet") io₁
      rw [hrun] at hloop
      rw [hmake] at hreader
      rw [hloop, hreader]
      rcases exec_setTimeout_cases sys .transfer (seconds options.timeout) io with
        ⟨-, hset⟩ | ⟨e, s', -, hset, -⟩ <;> rw [hset] at htimeout <;> cases htimeout
      rfl
    rcases hbegins.ok trivial hrun with _ | _ <;> exact htimeouts

theorem timed_oackLoop (options : OptionsType) (oack : DictionaryType) (n : ℕ) :
    Leaves (oackLoop sys session options oack n) (Timed options.timeout) := by
  rw [oackLoop]
  induction n with
  | zero =>
    intro io
    rw [sendLoop]
    rcases hrun : exec (send sys (TftpPacket.makeErrorString .undefined
      (lit "TFTP operation timed out.")) session.remoteClient) io with ⟨e | _, io'⟩
    · rw [exec_bind_error hrun]
      trivial
    · rw [exec_bind_ok hrun]
      trivial
  | succ n ih =>
    intro io
    rw [sendLoop, exec_bind_ok (exec_get io)]
    split_ifs
    · exact timed_startTransfer sys session options io
    · rw [exec_bind_ok (exec_observing ..)]
      rcases exec (send sys (TftpPacket.makeOack oack) session.remoteClient) io with ⟨e | _, io'⟩
      · rcases onTimeout_error_or (sendLoop sys session (TftpPacket.makeOack oack) _ _ _ n) _ e
          with h | h <;> rw [h]
        · exact ih io'
        · trivial
      · rfl

theorem entries_isEmpty_of_lookup {dict : DictionaryType} {name text : StdString}
    (h : dict.lookup name = some text) : dict.entries.isEmpty = false := by
  obtain ⟨_ | ⟨e, entries⟩, hnodup⟩ := dict
  · cases h
  · rfl

/-- The first state, of a request for a time-out. -/
theorem timed_start {text : StdString}
    (htext : session.request.options.lookup (lit "timeout") = some text) :
    (∃ e, (start sys session).control = .thrown e) ∨
      ∃ T idx, stoull 10 text = .ok (T, idx) ∧ Timed T (start sys session) := by
  rw [start]
  rcases hrun : exec (ioThread sys session) ⟨[], 0, 0⟩ with ⟨e | control, io⟩
  · exact .inl ⟨e, rfl⟩
  · have hrun' := hrun
    rw [ioThread] at hrun
    obtain ⟨_, _, -, hrun⟩ := exec_bind_eq_ok hrun
    obtain ⟨_, _, -, hrun⟩ := exec_bind_eq_ok hrun
    obtain ⟨_, _, -, hrun⟩ := exec_bind_eq_ok hrun
    obtain ⟨_, _, -, hrun⟩ := exec_bind_eq_ok hrun
    obtain ⟨tsize, io₁, -, hrun⟩ := exec_bind_eq_ok hrun
    rw [entries_isEmpty_of_lookup htext, if_neg Bool.false_ne_true] at hrun
    obtain ⟨⟨options, oack⟩, io₂, hparse, hrun⟩ := exec_bind_eq_ok hrun
    rw [exec_liftExcept] at hparse
    obtain ⟨idx, hnumber⟩ := timeout_of_parseOptions (Prod.mk.inj hparse).1 htext
    have htimed := @timed_oackLoop sys session options oack maxRetries io₂
    rw [hrun] at htimed
    exact .inr ⟨options.timeout, idx, hnumber, htimed⟩

/-- **One outcome.** -/
theorem timed_step {T : UInt64} {s : State} (h : Timed T s) (o : RecvOutcome) :
    Timed T (step sys session s o) := by
  obtain ⟨control, io⟩ := s
  cases control with
  | oackSent c options oack =>
    obtain rfl : options.timeout = T := h
    rw [step, resume]
    rw [exec_bind_ok (exec_observing ..)]
    rcases exec (awaitAck sys session 0 o) io with ⟨e | _, io'⟩
    · rcases onTimeout_error_or (oackLoop sys session options oack (c - 1))
        (fun _ : Unit => startTransfer sys session options) e with hretry | hretry <;> rw [hretry]
      · exact timed_oackLoop options oack (c - 1) io'
      · trivial
    · exact timed_startTransfer sys session options io'
  | dataSent c reader =>
    have htimeouts : (step sys session ⟨.dataSent c reader, io⟩ o).io.timeouts = _ :=
      (preserves_resume_dataSent c reader o io).trans h
    have hnext := next_step sys session ⟨.dataSent c reader, io⟩ o
    rw [Timed]
    cases hcontrol : (step sys session ⟨.dataSent c reader, io⟩ o).control with
    | oackSent =>
      rw [hcontrol] at hnext
      cases hnext
    | dataSent | finished => exact htimeouts
    | thrown => trivial
  | finished reader => exact h
  | thrown e => trivial

/-- **The time-outs along a run**: the session has failed, or they are what the client asked for,
from the first block on. -/
theorem timed_run {text : StdString}
    (htext : session.request.options.lookup (lit "timeout") = some text) (os : List RecvOutcome) :
    (∃ e, (run sys session os).control = .thrown e) ∨
      ∃ T idx, stoull 10 text = .ok (T, idx) ∧ Timed T (run sys session os) := by
  refine run_induction (P := fun s => (∃ e, s.control = .thrown e) ∨
    ∃ T idx, stoull 10 text = .ok (T, idx) ∧ Timed T s) (timed_start htext) ?_ os
  rintro s o (⟨e, hthrown⟩ | ⟨T, idx, hnumber, htimed⟩)
  · obtain ⟨control, io⟩ := s
    obtain rfl : control = .thrown e := hthrown
    exact .inl ⟨e, rfl⟩
  · exact .inr ⟨T, idx, hnumber, timed_step htimed o⟩

/-! ### The time-outs that are honoured -/

/-- The data loop has been entered. -/
def InTransfer : Control → Prop
  | .dataSent .. | .finished _ => True
  | .oackSent .. | .thrown _ => False

instance : DecidablePred InTransfer
  | .dataSent .. | .finished _ => inferInstanceAs (Decidable True)
  | .oackSent .. | .thrown _ => inferInstanceAs (Decidable False)

/-- Both time-outs are exactly the seconds of the text, and no receive waits for ever. -/
def HonoursTimeout (text : StdString) (io : IoState) : Prop :=
  ∃ T idx, stoull 10 text = .ok (T, idx) ∧ io.soRcvtimeo.toNat = 1000 * T.toNat ∧
    io.soSndtimeo.toNat = 1000 * T.toNat ∧ io.soRcvtimeo ≠ 0

theorem toNat_milliseconds (T : UInt64) :
    (seconds T).toUInt32.toNat = 1000 * T.toNat % 2 ^ 32 := by
  have hthousand : (1000 : UInt64).toNat = 1000 := rfl
  rw [UInt64.toNat_toUInt32, seconds, UInt64.toNat_mul, hthousand]
  exact Nat.mod_mod_of_dvd _ (by decide)

/-- The time-outs of a transfer are what the client asked for, as far as 32 bits can hold it. -/
theorem timeouts_of_inTransfer {text : StdString}
    (htext : session.request.options.lookup (lit "timeout") = some text) {os : List RecvOutcome}
    (htransfer : InTransfer (run sys session os).control) :
    ∃ T idx, stoull 10 text = .ok (T, idx) ∧
      (run sys session os).io.timeouts = ((seconds T).toUInt32, (seconds T).toUInt32) := by
  rcases @timed_run sys session text htext os with ⟨e, hthrown⟩ | ⟨T, idx, hnumber, htimed⟩
  · rw [hthrown] at htransfer
    exact htransfer.elim
  · refine ⟨T, idx, hnumber, ?_⟩
    rw [Timed] at htimed
    cases hcontrol : (run sys session os).control with
    | oackSent | thrown =>
      rw [hcontrol] at htransfer
      exact htransfer.elim
    | dataSent | finished =>
      rw [hcontrol] at htimed
      exact htimed

/-- **The time-outs that are honoured**: from 1 second to 4294967, which is the largest number of
seconds whose milliseconds fit into 32 bits. -/
theorem honoursTimeout_iff (sys : System) (session : TftpSessionV4) {text : StdString}
    (htext : session.request.options.lookup (lit "timeout") = some text) (os : List RecvOutcome)
    (htransfer : InTransfer (run sys session os).control) :
    HonoursTimeout text (run sys session os).io ↔
      ∃ T idx, stoull 10 text = .ok (T, idx) ∧ 1 ≤ T.toNat ∧ T.toNat ≤ 4294967 := by
  constructor
  · rintro ⟨T, idx, hnumber, hrcv, -, hne⟩
    have hlt := (run sys session os).io.soRcvtimeo.toNat_lt
    have hpos : (run sys session os).io.soRcvtimeo.toNat ≠ 0 := fun h => hne (UInt32.toNat_inj.mp h)
    exact ⟨T, idx, hnumber, by omega, by omega⟩
  · rintro ⟨T, idx, hnumber, hpos, hle⟩
    obtain ⟨T', idx', hnumber', htimeouts⟩ := timeouts_of_inTransfer htext htransfer
    obtain ⟨rfl, rfl⟩ := Prod.mk.inj (Except.ok.inj (hnumber.symm.trans hnumber'))
    obtain ⟨hrcv, hsnd⟩ := Prod.mk.inj htimeouts
    have hvalue : (seconds T).toUInt32.toNat = 1000 * T.toNat := by
      rw [toNat_milliseconds, Nat.mod_eq_of_lt (by omega)]
    refine ⟨T, idx, hnumber, by rw [hrcv, hvalue], by rw [hsnd, hvalue], ?_⟩
    intro hzero
    rw [hrcv, ← UInt32.toNat_inj, hvalue] at hzero
    have hnone : (0 : UInt32).toNat = 0 := rfl
    omega

/-- A client that asks for `text` seconds, and acknowledges the OACK. -/
def timeoutSession (text : StdString) : TftpSessionV4 :=
  ⟨Path.ofString (lit "./"), ⟨1, 1024⟩,
    ⟨lit "a", lit "octet", UnorderedMap.emplace ∅ (lit "timeout") text⟩⟩

theorem honoursTimeout_five :
    HonoursTimeout (lit "5") (run (.serving ⟨[65], by decide⟩) (timeoutSession (lit "5"))
      [(timeoutSession (lit "5")).ackOf 0]).io :=
  (honoursTimeout_iff (.serving ⟨[65], by decide⟩) (timeoutSession (lit "5")) rfl _
    (by decide +kernel)).mpr ⟨5, 1, by decide, by decide, by decide⟩

/-- **A time-out of 0 seconds** lets `recv` wait for ever, and one of 4294968 is one of 704
milliseconds. Both transfers go on. -/
theorem not_honoursTimeout :
    (InTransfer (run (.serving ⟨[65], by decide⟩) (timeoutSession (lit "0"))
        [(timeoutSession (lit "0")).ackOf 0]).control ∧
      ¬HonoursTimeout (lit "0") (run (.serving ⟨[65], by decide⟩) (timeoutSession (lit "0"))
        [(timeoutSession (lit "0")).ackOf 0]).io) ∧
    InTransfer (run (.serving ⟨[65], by decide⟩) (timeoutSession (lit "4294968"))
        [(timeoutSession (lit "4294968")).ackOf 0]).control ∧
      ¬HonoursTimeout (lit "4294968") (run (.serving ⟨[65], by decide⟩)
        (timeoutSession (lit "4294968")) [(timeoutSession (lit "4294968")).ackOf 0]).io := by
  refine ⟨⟨by decide +kernel, ?_⟩, by decide +kernel, ?_⟩
  · rintro ⟨T, idx, -, -, -, hne⟩
    exact hne (by decide +kernel)
  · rintro ⟨T, idx, hnumber, hrcv, -, -⟩
    have hT : stoull 10 (lit "4294968") = .ok (4294968, 7) := by decide +kernel
    obtain ⟨rfl, -⟩ := Prod.mk.inj (Except.ok.inj (hT.symm.trans hnumber))
    have hprogrammed : (run (.serving ⟨[65], by decide⟩) (timeoutSession (lit "4294968"))
        [(timeoutSession (lit "4294968")).ackOf 0]).io.soRcvtimeo.toNat = 704 := by
      decide +kernel
    rw [hprogrammed] at hrcv
    exact absurd hrcv (by decide)

end TftpSessionV4

end Bootpd
