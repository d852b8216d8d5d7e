import Bootpd.TftpOack
import Bootpd.TftpRetries
import Bootpd.TftpThreads

/-!
# A session that is asked to stop

The destructor of a session requests the stop and joins the thread. The thread looks at its token
at the head of its loops only, and each time it does it goes on to a transmission or leaves for
good.

## When the stop comes

`stopRequested` answers by the log, so the stop may come between any two events; one that
comes between a look and the transmission behind it counts as behind that transmission. A stop is
not taken back, and nothing else is assumed about the system. `System.Stopping` says that the stop
has been requested when the log is as it is, and that it still is in every longer one.

## What is behind the stop

A session that is in `recv` still has that receive. When it has returned, the next look at the token
finds the stop, and the thread leaves. An ERROR may be sent then, as on any other way out, and the
file may be opened on the way to the first look; no OACK and no DATA packet is sent any more. What
is not promised is that the receive returns. A `recv` without a time-out keeps the thread from its
next look as long as nothing arrives.

Each function of the session has a transmission only behind a look, because its parts do:
`partings_compositional` and `heeds_bind` compose them.

## Main definitions

* `System.Stopping` — the stop has been requested
* `TftpSessionV4.Parting` — what a session does without a look at its token
* `TftpSessionV4.Heeded`, `TftpSessionV4.Heeds` — a transmission behind a look, and a state whose
  log has no others

## Main results

* `TftpSessionV4.heeds_start`, `heeds_step` — every transmission has a look at the token in front
  of it
* `TftpSessionV4.stops_of_run` — what a session does behind the stop, and that its thread returns
-/

namespace Bootpd

open Imperative SocketUdp

/-- From this log on the stop is requested: a token does not forget. -/
def System.Stopping (sys : System) (log : List Event) : Prop :=
  ∀ es, sys.stopRequested (log ++ es) = true

theorem System.Stopping.append {sys : System} {log : List Event} (h : sys.Stopping log)
    (es : List Event) : sys.Stopping (log ++ es) := by
  intro es'
  rw [List.append_assoc]
  exact h _

/-- `sys`, with the stop requested from the `n`th event on. -/
def System.stoppingAt (sys : System) (n : ℕ) : System :=
  { sys with stopRequested := fun log => decide (n ≤ log.length) }

theorem System.stopping_stoppingAt {sys : System} {n : ℕ} {log : List Event}
    (h : n ≤ log.length) : (sys.stoppingAt n).Stopping log := by
  intro es
  rw [stoppingAt, decide_eq_true_eq, List.length_append]
  exact Nat.le_add_right_of_le h

namespace TftpSessionV4

variable {sys : System} {session : TftpSessionV4}

/-! ### The events of a session -/

/-- What a session does without a look at its token, besides a receive. -/
inductive Parting (path : Path) : Event → Prop where
  | sent {d : Datagram} (h : d.IsError) : Parting path (.sent d)
  | sendFailed {d : Datagram} {e : Exception} (h : d.IsError) : Parting path (.sendFailed d e)
  | opened : Parting path (.opened path)

/-- An event of a session, besides a receive, and the log in front of it. -/
inductive Heeded (sys : System) (path : Path) (log : List Event) : Event → Prop where
  | parting {ev : Event} (h : Parting path ev) : Heeded sys path log ev
  /-- A transmission, for which no stop was requested. -/
  | transmission {ev : Event} (hlog : sys.stopRequested log = false)
      (hev : ev.datagram.isSome) : Heeded sys path log ev

/-- What a session does behind the stop: one receive if it was in `recv`, and nothing but partings
then. -/
inductive Departs (path : Path) : List Event → Prop where
  | running {es : List Event} (h : ∀ ev ∈ es, Parting path ev) : Departs path es
  | waiting {o : RecvOutcome} {es : List Event} (h : ∀ ev ∈ es, Parting path ev) :
      Departs path (.received o :: es)

theorem Heeded.parting_of_stopping {path : Path} {log : List Event} (hstop : sys.Stopping log)
    (es : List Event) (ev : Event) (h : Heeded sys path (log ++ es) ev) : Parting path ev := by
  cases h with
  | parting h => exact h
  | transmission hlog hev =>
    rw [hstop es] at hlog
    cases hlog

/-- Where a session gets to that has done `log` before: its transmissions are heeded, and if it
waits it has just made one. -/
def Heeds (sys : System) (session : TftpSessionV4) (log : List Event) (s : State) : Prop :=
  ∃ es, s.io.log = log ++ es ∧ Guarded (Heeded sys session.filePath) log es ∧
    (s.control.Waiting → ∃ front ev, es = front ++ [ev] ∧
      sys.stopRequested (log ++ front) = false)

theorem Heeds.append_left {log es : List Event} {s : State} (h : Heeds sys session (log ++ es) s)
    (hes : Guarded (Heeded sys session.filePath) log es) : Heeds sys session log s := by
  obtain ⟨es', hlog, hes', hwaiting⟩ := h
  refine ⟨es ++ es', by rw [hlog, List.append_assoc], guarded_append.mpr ⟨hes, hes'⟩, ?_⟩
  intro hs
  obtain ⟨front, ev, rfl, hfront⟩ := hwaiting hs
  exact ⟨es ++ front, ev, (List.append_assoc ..).symm, by rwa [← List.append_assoc]⟩

/-- A session that has ended, and has done nothing. -/
theorem heeds_of_ended {s : State} (h : ¬s.control.Waiting) : Heeds sys session s.io.log s :=
  ⟨[], (List.append_nil _).symm, trivial, fun hs => absurd hs h⟩

theorem heeds_throw (e : Exception) (io : IoState) :
    Heeds sys session io.log (settle (exec (throw e) io)) :=
  heeds_of_ended (s := ⟨.thrown e, io⟩) (by simp [Control.Waiting, Control.awaited])

theorem heeds_finished (reader : TftpReader) (io : IoState) :
    Heeds sys session io.log (settle (exec (return .finished reader) io)) :=
  heeds_of_ended (s := ⟨.finished reader, io⟩) (by simp [Control.Waiting, Control.awaited])

/-- A sequence whose first part has no transmission in it. -/
theorem heeds_bind {α : Type} {x : SessionM α} {f : α → SessionM Control}
    (hx : LogsOnly IoState.log x (Parting session.filePath))
    (hf : ∀ a io, Heeds sys session io.log (settle (exec (f a) io))) (io : IoState) :
    Heeds sys session io.log (settle (exec (x >>= f) io)) := by
  obtain ⟨es, hlog, hes⟩ := hx io
  have hguarded : Guarded (Heeded sys session.filePath) io.log es :=
    guarded_of_forall fun _ ev hev => .parting (hes ev hev)
  refine Heeds.append_left ?_ hguarded
  rcases hrun : exec x io with ⟨e | a, io'⟩ <;> rw [hrun] at hlog <;> rw [← hlog]
  · rw [exec_bind_error hrun]
    exact heeds_throw e io'
  · rw [exec_bind_ok hrun]
    exact hf a io'

/-! ### The calls without a transmission -/

theorem partings_of_quiet {α : Type} {x : SessionM α} (h : Quiet x) :
    LogsOnly IoState.log x (Parting session.filePath) :=
  h.mono fun _ es hes => by simp [hes]

theorem partings_compositional (session : TftpSessionV4) :
    Compositional fun (α : Type) (x : SessionM α) =>
      LogsOnly IoState.log x (Parting session.filePath) :=
  LogsOnly.compositional _ _

theorem partings_sendError (payload : TypeError) (target : AddressV4) :
    LogsOnly IoState.log (send sys (TftpPacket.error payload) target)
      (Parting session.filePath) := by
  have herror (rest : List UInt8) :
      Datagram.IsError ⟨target, Scalar.encode .network tftpOpcodeError ++ rest⟩ := opcode_eq
  refine (logs_send (TftpPacket.serialize_error payload) target).mono ?_
  rintro r es (_ | e) ev hev <;> obtain rfl := List.mem_singleton.mp hev
  · exact .sent (herror _)
  · exact .sendFailed (herror _)

theorem partings_makeReader (path : Path) (hpath : path = session.filePath)
    (length blksiz : UInt64) (isBinary : Bool) :
    LogsOnly IoState.log (TftpReader.make sys path length blksiz isBinary)
      (Parting session.filePath) := by
  refine compositional_makeReader (partings_compositional session) _ (fun s => ?_) _ _ _
  exact ⟨_, rfl, by simp [hpath, Parting.opened]⟩

/-- **The half of a loop behind `recv`** has no transmission in it. -/
theorem logs_awaitAck_partings (number : UInt64) (o : RecvOutcome) :
    Logs IoState.log (awaitAck sys session number o) fun _ es =>
      ∃ es', es = .received o :: es' ∧ ∀ ev ∈ es', Parting session.filePath ev := by
  have hkinds : LogsOnly IoState.log (awaitAck sys session number o) fun ev =>
      (∃ o, ev = .received o) ∨ Parting session.filePath ev := by
    refine compositional_awaitAck (LogsOnly.compositional _ _) ?_ ?_ session number o
    · intro payload target
      exact (partings_sendError payload target).mono fun _ es hes ev hev => .inr (hes ev hev)
    · intro o s
      rw [exec_recv]
      exact ⟨_, rfl, by simp⟩
  refine (hkinds.and (logs_awaitAck number o)).mono ?_
  rintro r _ ⟨hes, minor, rfl, hminor, -⟩
  refine ⟨minor, rfl, fun ev hev => ?_⟩
  rcases hes ev (by simp [hev]) with ⟨o', rfl⟩ | h
  · cases hminor _ hev
  · exact h

/-! ### The loops -/

/-- **A loop** looks at the token in front of each transmission. The induction is on the retries. -/
theorem heeds_sendLoop {packet : TftpPacket} {bits : List UInt8}
    (hbits : serializeToVector packet = .ok bits) (waiting : ℕ → Control)
    {stopped exhausted : SessionM Control}
    (hstopped : ∀ io, Heeds sys session io.log (settle (exec stopped io)))
    (hexhausted : ∀ io, Heeds sys session io.log (settle (exec exhausted io)))
    (n : ℕ) (io : IoState) :
    Heeds sys session io.log
      (settle (exec (sendLoop sys session packet waiting stopped exhausted n) io)) := by
  induction n generalizing io with
  | zero => exact hexhausted io
  | succ n ih =>
    rw [exec_sendLoop_succ hbits]
    split_ifs with hstop
    · exact hstopped io
    · have hfalse : sys.stopRequested io.log = false := eq_false_of_ne_true hstop
      cases sys.sendto io.log ⟨session.remoteClient, bits⟩ with
      | none =>
        refine ⟨_, rfl, ⟨.transmission hfalse rfl, trivial⟩, fun _ => ⟨[], _, rfl, ?_⟩⟩
        rwa [List.append_nil]
      | some e =>
        have hfailed : Guarded (Heeded sys session.filePath) io.log
            [.sendFailed ⟨session.remoteClient, bits⟩ e] := ⟨.transmission hfalse rfl, trivial⟩
        refine Heeds.append_left ?_ hfailed
        dsimp only
        rcases onTimeout_error_or (sendLoop sys session packet waiting stopped exhausted n)
          (fun _ : Unit => return waiting (n + 1)) e with h | h <;> rw [h]
        · exact ih _
        · exact heeds_throw e _

theorem heeds_dataLoop (reader : TftpReader) (n : ℕ) (io : IoState) :
    Heeds sys session io.log (settle (exec (dataLoop sys session reader n) io)) :=
  heeds_sendLoop (serialize_readerData reader session.remoteClient) _ (heeds_finished reader)
    (heeds_throw _) n io

theorem heeds_startTransfer (options : OptionsType) (io : IoState) :
    Heeds sys session io.log (settle (exec (startTransfer sys session options) io)) :=
  heeds_bind (partings_of_quiet (quiet_timeout _ _)) (fun _ => heeds_bind
    (partings_makeReader _ rfl _ _ _) fun reader => heeds_dataLoop reader maxRetries) io

theorem heeds_oackLoop (options : OptionsType) (oack : DictionaryType) (n : ℕ) (io : IoState) :
    Heeds sys session io.log (settle (exec (oackLoop sys session options oack n) io)) :=
  heeds_sendLoop (TftpPacket.serialize_oack ⟨oack⟩) _ (heeds_startTransfer options)
    (heeds_bind (partings_sendError _ _) fun _ => heeds_throw _) n io

/-! ### The thread -/

/-- **The session up to its first `recv`.** -/
theorem heeds_start (sys : System) (session : TftpSessionV4) :
    Heeds sys session [] (start sys session) := by
  have hC := partings_compositional session
  have herror := fun payload => @partings_sendError sys session payload
  refine heeds_bind (partings_of_quiet quiet_make) (fun _ => heeds_bind
    (partings_of_quiet (quiet_timeout _ _)) fun _ => heeds_bind
      (compositional_validateRequest hC herror session) fun _ => heeds_bind
        (compositional_validateFilepath hC herror session _) fun _ => heeds_bind
          (LogsOnly.liftExcept _) fun tsize => ?_) ⟨[], 0, 0⟩
  cases session.request.options.entries.isEmpty
  · exact heeds_bind (LogsOnly.liftExcept _) fun r => heeds_oackLoop r.1 r.2 maxRetries
  · exact heeds_startTransfer _

/-- A wait: the receive, and then the retry or the rest. -/
theorem heeds_wait {s : State} {number : UInt64} {o : RecvOutcome} {retry rest : SessionM Control}
    (hresume : resume sys session s.control o = (do
      let r ← observing (awaitAck sys session number o)
      onTimeout r retry fun _ => rest))
    (hretry : ∀ io, Heeds sys session io.log (settle (exec retry io)))
    (hrest : ∀ io, Heeds sys session io.log (settle (exec rest io))) :
    Heeds sys session (s.io.log ++ [.received o]) (step sys session s o) := by
  obtain ⟨_, hlog, es, rfl, hes⟩ := @logs_awaitAck_partings sys session number o s.io
  have hguarded : Guarded (Heeded sys session.filePath) (s.io.log ++ [.received o]) es :=
    guarded_of_forall fun _ ev hev => .parting (hes ev hev)
  refine Heeds.append_left ?_ hguarded
  rw [List.append_assoc, List.singleton_append, ← hlog, step, hresume,
    exec_bind_ok (exec_observing ..)]
  cases (exec (awaitAck sys session number o) s.io).1 with
  | ok _ => exact hrest _
  | error e =>
    rcases onTimeout_error_or retry (fun _ : Unit => rest) e with h | h <;> rw [h]
    · exact hretry _
    · exact heeds_throw e _

/-- **One outcome** of a wait. -/
theorem heeds_step {s : State} (hs : s.control.Waiting) (o : RecvOutcome) :
    Heeds sys session (s.io.log ++ [.received o]) (step sys session s o) := by
  obtain ⟨control, io⟩ := s
  cases control with
  | oackSent n options oack =>
    exact heeds_wait rfl (heeds_oackLoop options oack (n - 1)) (heeds_startTransfer options)
  | dataSent n reader =>
    refine heeds_wait rfl (heeds_dataLoop reader (n - 1)) ?_
    cases reader.last
    · exact heeds_dataLoop reader.next (maxRetries - 1)
    · exact heeds_finished reader
  | finished reader => exact absurd rfl hs
  | thrown e => exact absurd rfl hs

/-! ### Behind the stop -/

variable {log before after : List Event} {s : State}

/-- The stop comes in front of everything. -/
theorem Heeds.stopped (h : Heeds sys session log s) (hstop : sys.Stopping log) :
    ∃ es, s.io.log = log ++ es ∧ (∀ ev ∈ es, Parting session.filePath ev) ∧
      ¬s.control.Waiting := by
  obtain ⟨es, hlog, hes, hwaiting⟩ := h
  refine ⟨es, hlog, hes.forall (Heeded.parting_of_stopping hstop), fun hs => ?_⟩
  obtain ⟨front, ev, -, hfront⟩ := hwaiting hs
  rw [hstop front] at hfront
  cases hfront

/-- The stop comes somewhere behind `log`. -/
theorem Heeds.behind (h : Heeds sys session log s) (front : List Event)
    (hlog : s.io.log = log ++ front ++ after) (hstop : sys.Stopping (log ++ front)) :
    (∀ ev ∈ after, Parting session.filePath ev) ∧ (s.control.Waiting → after = []) := by
  obtain ⟨es, hes, hguarded, hwaiting⟩ := h
  obtain rfl : es = front ++ after :=
    List.append_cancel_left (hes.symm.trans (hlog.trans (List.append_assoc ..)))
  refine ⟨(guarded_append.mp hguarded).2.forall (Heeded.parting_of_stopping hstop), fun hs => ?_⟩
  obtain ⟨front', ev, heq, hfalse⟩ := hwaiting hs
  -- the last event is the transmission, and no stop was requested for it
  rcases after.eq_nil_or_concat with rfl | ⟨middle, last, rfl⟩
  · rfl
  · rw [List.concat_eq_append, ← List.append_assoc] at heq
    obtain ⟨rfl, -⟩ := List.append_inj' heq rfl
    rw [← List.append_assoc, hstop middle] at hfalse
    cases hfalse

/-- What a session has done behind a stop, wherever that came: if it still waits, nothing. -/
def Stops (sys : System) (session : TftpSessionV4) (s : State) : Prop :=
  ∀ before after, s.io.log = before ++ after → sys.Stopping before →
    Departs session.filePath after ∧ (s.control.Waiting → after = [])

theorem stops_start (sys : System) (session : TftpSessionV4) :
    Stops sys session (start sys session) := by
  intro before after hlog hstop
  obtain ⟨hafter, hwaiting⟩ := (heeds_start sys session).behind before hlog hstop
  exact ⟨.running hafter, hwaiting⟩

theorem step_of_not_waiting (hs : ¬s.control.Waiting) (o : RecvOutcome) :
    step sys session s o = s := by
  obtain ⟨control, io⟩ := s
  cases control with
  | oackSent n options oack => exact absurd (Option.some_ne_none _) hs
  | dataSent n reader => exact absurd (Option.some_ne_none _) hs
  | finished reader => rfl
  | thrown e => rfl

theorem Stops.step (h : Stops sys session s) (o : RecvOutcome) :
    Stops sys session (step sys session s o) := by
  by_cases hs : s.control.Waiting
  · intro before after hlog hstop
    have hheeds := @heeds_step sys session s hs o
    obtain ⟨es, hes, -⟩ := id hheeds
    by_cases hfront : s.io.log ++ [.received o] <+: before
    · obtain ⟨front, rfl⟩ := hfront
      obtain ⟨hafter, hwaiting⟩ := hheeds.behind front hlog hstop
      exact ⟨.running hafter, hwaiting⟩
    · -- the stop came in front of the receive, and so in the wait
      have hprefix : before <+: s.io.log ++ [.received o] :=
        (List.prefix_or_prefix_of_prefix ⟨after, hlog.symm⟩ ⟨es, hes.symm⟩).resolve_right hfront
      obtain ⟨middle, hmiddle⟩ : before <+: s.io.log :=
        (List.prefix_concat_iff.mp hprefix).resolve_left fun heq => hfront (heq ▸ List.prefix_rfl)
      obtain rfl := (h before middle hmiddle.symm hstop).2 hs
      obtain rfl : before = s.io.log := by rwa [List.append_nil] at hmiddle
      obtain ⟨es', hes', hpartings, hended⟩ := hheeds.stopped (hstop.append _)
      obtain rfl : after = .received o :: es' := by
        rw [List.append_assoc] at hes'
        exact List.append_cancel_left (hlog.symm.trans hes')
      exact ⟨.waiting hpartings, fun hwaiting => absurd hwaiting hended⟩
  · rwa [step_of_not_waiting hs]

/-- **One more receive** at the most. -/
theorem not_waiting_of_stopping (hstop : sys.Stopping s.io.log) (o : RecvOutcome) :
    ¬(TftpSessionV4.step sys session s o).control.Waiting := by
  by_cases hs : s.control.Waiting
  · obtain ⟨-, -, -, hended⟩ := (heeds_step hs o).stopped (hstop.append [.received o])
    exact hended
  · rwa [step_of_not_waiting hs]

/-- **Behind the stop.** In every run of a session, with any file system, sockets and outcomes, and
wherever the stop comes: no DATA and no OACK packet is sent any more, whether it is due for the
first time or again; a session in `recv` has at most that receive, any other has none; and with the
next outcome its thread has returned. -/
theorem stops_of_run {os : List RecvOutcome} (hlog : (run sys session os).io.log = before ++ after)
    (hstop : sys.Stopping before) :
    Departs session.filePath after ∧ ((run sys session os).control.Waiting → after = []) ∧
      ∀ o this, thread sys session.baseDir session.remoteClient (.rrq session.request) this
        (os ++ [o]) = .returned (epilogue this) := by
  obtain ⟨hdeparts, hwaiting⟩ :=
    run_induction (P := Stops sys session) (stops_start sys session) (fun _ o h => h.step o) os
      before after hlog hstop
  refine ⟨hdeparts, hwaiting, fun o this => ?_⟩
  have hstop' : sys.Stopping (run sys session os).io.log := by
    rw [hlog]
    exact hstop.append after
  rw [thread, run_append_singleton, if_neg (not_waiting_of_stopping hstop' o)]

theorem length_nil_lt : ([] : List UInt8).length < 2 ^ 63 := by decide

/-- A system that requests the stop once the first packet has been sent. -/
def stopAtFirst : System := (System.serving ⟨[], length_nil_lt⟩).stoppingAt 2

/-- A session with one block to send. -/
def singleBlock : TftpSessionV4 :=
  ⟨Path.ofString (lit "./"), ⟨1, 1024⟩, ⟨lit "a", lit "octet", ∅⟩⟩

/-- The block is not sent again. -/
theorem stops_of_run_timedOut : (start stopAtFirst singleBlock).control.Waiting ∧
    Departs singleBlock.filePath [.received .timedOut] ∧
      ((run stopAtFirst singleBlock [.timedOut]).control.Waiting →
        [Event.received .timedOut] = []) ∧
      ∀ o this, thread stopAtFirst singleBlock.baseDir singleBlock.remoteClient
        (.rrq singleBlock.request) this ([.timedOut] ++ [o]) = .returned (epilogue this) := by
  have hlog : (run stopAtFirst singleBlock [.timedOut]).io.log =
      (start stopAtFirst singleBlock).io.log ++ [.received .timedOut] := by decide +kernel
  -- it has opened its file and sent the block
  have hstop : stopAtFirst.Stopping (start stopAtFirst singleBlock).io.log :=
    System.stopping_stoppingAt (by decide +kernel)
  exact ⟨by decide +kernel, stops_of_run hlog hstop⟩

end TftpSessionV4

end Bootpd
