import Bootpd.TftpServerV4
import Bootpd.TftpTermination
import Bootpd.TftpTransitions

/-!
# How a session thread ends

Both overloads of `io_thread` end by setting `m_done` and notifying the server. The one for an RRQ
gets there from every exception, and not at all while it goes on receiving. The one for a WRQ has
no handler: an exception of its socket leaves the thread, and ends the program.

## The question

The server destroys a session when it has been told that its thread is done, and joins the thread
then. A thread that never tells it is never joined, and a thread that ends by an exception takes
the program with it. `FinishesCleanly` says that neither happens: the thread sets `m_done`, tells
the server once, and returns. It is asked of every system, that is of every way in which each call
may come out, and of every sequence of receive outcomes.

What can go wrong for an RRQ is a transfer without an end. That needs blocks of no bytes, since a
reader that makes progress runs out of blocks and each block has only so many time-outs. The
condition is on the request: its transfer mode, and whether it asks for blocks of no bytes. For a
WRQ it is on the system: that the socket can be made, and its one datagram sent.

## Main definitions

* `TftpSessionV4.Thread`, `thread` — the two overloads, and what one does up to an outcome
* `TftpSessionV4.epilogue` — `m_done.store(true)` and `session_notify(this)`
* `TftpSessionV4.Progressing` — the reader has blocks of at least one byte

## Main results

* `TftpSessionV4.exists_not_waiting` — with blocks of at least one byte, a run has a last wait
* `TftpSessionV4.run_epilogue` — what the end of a thread does to the server
* `TftpSessionV4.finishesCleanly_iff` — the threads that finish cleanly
-/

namespace Bootpd

open Imperative SocketUdp

namespace TftpSessionV4

open TftpServerV4 (Action Pointer Request)

/-! ### The two overloads -/

/-- What a thread has come to. -/
inductive Thread where
  /-- It is in a call of `recv`. -/
  | receiving
  /-- It has returned, and has done this to the server. -/
  | returned (actions : List Action)
  /-- An exception has left it. -/
  | escaped (e : Exception)

/-- The last two lines of `io_thread`. -/
def epilogue (this : Pointer) : List Action := [.store this, .notify this]

/-- `io_thread` for a WRQ, in front of the last two lines. -/
def rejectUpload (sys : System) (remoteClient : AddressV4) : SessionM Unit := do
  SocketUdp.make sys
  send sys (TftpPacket.makeErrorString .accessViolation (lit "Not upload implemented."))
    remoteClient

/-- `io_thread` for a request, after some receive outcomes. -/
def thread (sys : System) (baseDir : Path) (remoteClient : AddressV4) (request : Request)
    (this : Pointer) (os : List RecvOutcome) : Thread :=
  match request with
  | .rrq request =>
    -- every exception is handled in front of the last two lines
    if (run sys ⟨baseDir, remoteClient, request⟩ os).control.Waiting then .receiving
    else .returned (epilogue this)
  | .wrq _ =>
    match (exec (rejectUpload sys remoteClient) ⟨[], 0, 0⟩).1 with
    | .ok _ => .returned (epilogue this)
    | .error e => .escaped e

/-- The first `n` outcomes of a sequence. -/
def firstOutcomes (os : ℕ → RecvOutcome) (n : ℕ) : List RecvOutcome := (List.range n).map os

/-- Whatever is received, the thread returns, and has set `m_done` and then pushed a notification,
once. -/
def FinishesCleanly (sys : System) (baseDir : Path) (remoteClient : AddressV4) (request : Request)
    (this : Pointer) : Prop :=
  ∀ os, ∃ n, thread sys baseDir remoteClient request this (firstOutcomes os n) =
    .returned [.store this, .notify this]

variable {sys : System} {session : TftpSessionV4}

theorem run_firstOutcomes_succ (os : ℕ → RecvOutcome) (n : ℕ) :
    run sys session (firstOutcomes os (n + 1)) =
      step sys session (run sys session (firstOutcomes os n)) (os n) := by
  rw [firstOutcomes, List.range_succ, List.map_append, run, List.foldl_append]
  rfl

/-! ### Blocks of at least one byte -/

/-- A place of a session that sends its file in blocks of at least one byte. The reader has a length
of its own: what the file is by now does not matter. -/
def Progressing : Control → Prop
  | .oackSent c options _ => 0 < c ∧ options.tsize.toNat < 2 ^ 63 ∧ 0 < options.blksize.toNat
  | .dataSent c reader =>
    0 < c ∧ TftpReader.At reader.length.toNat reader.blksiz.toNat reader.number.toNat reader
  | .finished _ | .thrown _ => True

/-- How many waits there can still be: `maxRetries` for each packet that is left. -/
def waitsLeft : Control → ℕ
  | .oackSent c options _ => c + maxRetries * (2 ^ 63 / options.blksize.toNat + 1)
  | .dataSent c reader => c + maxRetries *
      (reader.length.toNat / reader.blksiz.toNat + 1 - reader.number.toNat)
  | .finished _ | .thrown _ => 0

variable {file : File} {readable : Bool} {options : OptionsType} {reader : TftpReader}

/-- The reader of a transfer starts at block 1. -/
theorem FirstReader.at (h : FirstReader sys session options reader)
    (hsize : options.tsize.toNat < 2 ^ 63) (hb : 0 < options.blksize.toNat) :
    reader.length.toNat < 2 ^ 63 ∧
      TftpReader.At reader.length.toNat options.blksize.toNat 1 reader := by
  obtain ⟨length, hlength, rfl⟩ := h
  have hlt := TftpReader.lt_of_lengthOf hsize hlength
  rw [TftpReader.length_next]
  exact ⟨hlt, TftpReader.at_next_of (k := 0) hb hlt rfl rfl rfl (by omega)⟩

/-- A reader at a block, with its own length, block size and number. -/
theorem TftpReader.At.self {n b k : ℕ} (h : TftpReader.At n b k reader) :
    TftpReader.At reader.length.toNat reader.blksiz.toNat reader.number.toNat reader := by
  rwa [h.length, h.blksiz, h.number]

/-- **One outcome** takes a wait, and more than one when there is a next packet. -/
theorem progressing_next {control control' : Control} (h : Progressing control)
    (hnext : Next sys session control control') :
    Progressing control' ∧ (control'.Waiting → waitsLeft control' < waitsLeft control) := by
  cases hnext with
  | oackSent hpos hlt =>
    obtain ⟨-, hsize, hb⟩ := h
    exact ⟨⟨hpos, hsize, hb⟩, fun _ => Nat.add_lt_add_right hlt _⟩
  | @starts c n options oack reader hreader hpos hle =>
    obtain ⟨hc, hsize, hb⟩ := h
    obtain ⟨hlt, hat⟩ := hreader.at hsize hb
    refine ⟨⟨hpos, TftpReader.At.self hat⟩, ?_⟩
    intro _
    have hdiv : reader.length.toNat / options.blksize.toNat ≤ 2 ^ 63 / options.blksize.toNat :=
      Nat.div_le_div_right hlt.le
    have hmul := Nat.mul_le_mul_left maxRetries hdiv
    rw [waitsLeft, waitsLeft, hat.blksiz, hat.number, Nat.add_sub_cancel, Nat.mul_succ]
    omega
  | dataSent hpos hlt =>
    exact ⟨⟨hpos, h.2⟩, fun _ => Nat.add_lt_add_right hlt _⟩
  | @advances c n reader hlast hpos hlt =>
    obtain ⟨hc, hat⟩ := h
    have hnext := hat.next hlast
    have hle := hnext.number_le
    refine ⟨⟨hpos, TftpReader.At.self hnext⟩, ?_⟩
    intro _
    rw [waitsLeft, waitsLeft, hnext.length, hnext.blksiz, hnext.number]
    have hleft : reader.length.toNat / reader.blksiz.toNat + 1 - reader.number.toNat =
        reader.length.toNat / reader.blksiz.toNat + 1 - (reader.number.toNat + 1) + 1 := by omega
    rw [hleft, Nat.mul_succ]
    omega
  | startsStopped | finishes | advancesStopped | throws =>
    exact ⟨trivial, fun hwait => absurd rfl hwait⟩
  | ended hended => exact ⟨h, fun hwait => absurd hwait hended⟩

/-- A session that is not asked for blocks of 0 bytes makes progress, or has ended at once. -/
theorem progressing_start (sys : System) (session : TftpSessionV4)
    (hzero : ¬(Supported session.request.xfermode ∧ AsksForZero session.request.options)) :
    Progressing (start sys session).control := by
  have hblksize : ∀ {tsize options oack}, Supported session.request.xfermode →
      parseOptions ⟨512, 1, tsize⟩ session.request.options = .ok (options, oack) →
      0 < options.blksize.toNat ∧ options.tsize = tsize := by
    intro tsize options oack hmode hparse
    obtain ⟨_, _, _, _, -, -, hoptions⟩ := cases_of_parseOptions hparse
    refine ⟨Nat.pos_of_ne_zero fun hb => hzero ⟨hmode, ?_⟩, by rw [hoptions]⟩
    exact (asksForZero_iff 1 tsize (by decide)).mpr
      ⟨options, oack, hparse, UInt64.toNat_inj.mp hb⟩
  have hstart := starts_start sys session
  generalize (start sys session).control = control at hstart
  cases hstart with
  | oackSent hmode hsize hparse hpos hle =>
    obtain ⟨hb, htsize⟩ := hblksize hmode hparse
    exact ⟨hpos, htsize ▸ Filesystem.lt_of_fileSize hsize, hb⟩
  | begins hmode hsize hparse hbegins =>
    obtain ⟨hb, htsize⟩ := hblksize hmode hparse
    cases hbegins with
    | dataSent hreader hpos hle =>
      obtain ⟨-, hat⟩ := hreader.at (htsize ▸ Filesystem.lt_of_fileSize hsize) hb
      exact ⟨hpos, TftpReader.At.self hat⟩
    | finished hreader => trivial
  | thrown e => trivial

/-- **A run has a last wait**, whatever the calls answer and whatever is received. -/
theorem exists_not_waiting (sys : System) (session : TftpSessionV4)
    (hzero : ¬(Supported session.request.xfermode ∧ AsksForZero session.request.options))
    (os : ℕ → RecvOutcome) : ∃ n, ¬(run sys session (firstOutcomes os n)).control.Waiting := by
  by_contra hforever
  push Not at hforever
  -- each wait takes one from what is left
  have hrun : ∀ n, Progressing (run sys session (firstOutcomes os n)).control ∧
      waitsLeft (run sys session (firstOutcomes os n)).control + n ≤
        waitsLeft (start sys session).control := by
    intro n
    induction n with
    | zero => exact ⟨progressing_start sys session hzero, le_rfl⟩
    | succ n ih =>
      have hnext := next_step sys session (run sys session (firstOutcomes os n)) (os n)
      rw [← run_firstOutcomes_succ] at hnext
      obtain ⟨hprogress, hlt⟩ := progressing_next ih.1 hnext
      have := hlt (hforever (n + 1))
      exact ⟨hprogress, by omega⟩
  have := (hrun (waitsLeft (start sys session).control + 1)).2
  omega

/-! ### Blocks of 0 bytes -/

/-- The acknowledgement a session waits for. -/
def awaitedAck (session : TftpSessionV4) : Control → RecvOutcome
  | .oackSent .. => session.ackOf 0
  | .dataSent _ reader => session.ackOf reader.number
  | .finished _ | .thrown _ => .timedOut

theorem cooperate_of_endless {s : State} (h : Endless session file s) :
    cooperate sys session s = step sys session s (session.awaitedAck s.control) := by
  obtain ⟨control, io⟩ := s
  rcases h with ⟨n, options, oack, hcontrol, -, -, hlast⟩ | ⟨n, reader, hcontrol, -, hlast⟩
  · obtain rfl : control = .oackSent n options oack := hcontrol
    exact cooperate_oack hlast
  · obtain rfl : control = .dataSent n reader := hcontrol
    exact cooperate_data hlast

theorem waiting_of_endless {s : State} (h : Endless session file s) : s.control.Waiting := by
  obtain ⟨hfinished, hthrown⟩ := not_ended_of_endless h
  cases hcontrol : s.control with
  | oackSent | dataSent => simp [Control.Waiting, Control.awaited]
  | finished reader => exact absurd hcontrol (hfinished reader)
  | thrown e => exact absurd hcontrol (hthrown e)

/-- **A client that acknowledges everything** keeps a session with blocks of 0 bytes waiting. -/
theorem exists_forever_waiting (hsys : sys.Healthy (session.longest file))
    (hstop : sys.NoStop)
    (hfile : sys.Finds session.filePath (.regular file readable))
    (hmode : Supported session.request.xfermode) (hzero : AsksForZero session.request.options) :
    ∃ os, ∀ n, (run sys session (firstOutcomes os n)).control.Waiting := by
  have hendless : ∀ n, Endless session file ((cooperate sys session)^[n] (start sys session)) := by
    intro n
    induction n with
    | zero => exact endless_start hsys hstop hmode hfile hzero
    | succ n ih =>
      rw [Function.iterate_succ_apply']
      exact endless_cooperate hsys (le_longest session file) hstop hfile ih
  refine ⟨fun n => session.awaitedAck ((cooperate sys session)^[n] (start sys session)).control, ?_⟩
  intro n
  have hrun : run sys session (firstOutcomes (fun n => session.awaitedAck
      ((cooperate sys session)^[n] (start sys session)).control) n) =
      (cooperate sys session)^[n] (start sys session) := by
    induction n with
    | zero => rfl
    | succ n ih =>
      rw [run_firstOutcomes_succ, ih, Function.iterate_succ_apply',
        cooperate_of_endless (hendless n)]
  rw [hrun]
  exact waiting_of_endless (hendless n)

/-! ### The threads -/

/-- **The end of a thread**: its session is finished, and its notification is in the queue. -/
theorem run_epilogue {s : TftpServerV4.State} {this : Pointer} {number : ℕ} {done : Bool}
    (h : s.sessions this = some ⟨number, done, .transferring⟩) :
    ∃ s', Transition.run TftpServerV4.step s (epilogue this) = some s' ∧
      s'.sessions this = some ⟨number, true, .finished⟩ ∧
      s'.events = s.events ++ [.notify this number] := by
  simp [epilogue, Transition.run, TftpServerV4.step, h]

/-- The answer to a WRQ. -/
def uploadError (remoteClient : AddressV4) : Datagram :=
  ⟨remoteClient, Scalar.encode .network tftpOpcodeError ++
    (Scalar.encode .network ErrorCategoryType.accessViolation ++
      (lit "Not upload implemented." ++ [0]))⟩

theorem exec_rejectUpload (sys : System) (remoteClient : AddressV4) :
    (exec (rejectUpload sys remoteClient) ⟨[], 0, 0⟩).1 =
      (sys.socket.or (sys.sendto [] (uploadError remoteClient))).elim (.ok ()) .error := by
  rw [rejectUpload, SocketUdp.make]
  cases sys.socket with
  | some e => rfl
  | none =>
    rw [exec_bind_ok (show exec (ofOutcome none) ⟨[], 0, 0⟩ = (.ok (), ⟨[], 0, 0⟩) from rfl),
      TftpPacket.makeErrorString, exec_send (TftpPacket.serialize_error _)]
    cases hsend : sys.sendto [] (uploadError remoteClient) <;> rw [uploadError] at hsend <;>
      simp only [hsend] <;> rfl

theorem finishesCleanly_wrq_iff (sys : System) (baseDir : Path) (remoteClient : AddressV4)
    (request : TypeWrq) (this : Pointer) :
    FinishesCleanly sys baseDir remoteClient (.wrq request) this ↔
      sys.socket = none ∧ sys.sendto [] (uploadError remoteClient) = none := by
  have hthread : ∀ os, thread sys baseDir remoteClient (.wrq request) this os =
      (sys.socket.or (sys.sendto [] (uploadError remoteClient))).elim
        (.returned (epilogue this)) .escaped := by
    intro os
    rw [thread, exec_rejectUpload]
    cases sys.socket.or (sys.sendto [] (uploadError remoteClient)) <;> rfl
  rw [← Option.or_eq_none_iff]
  constructor
  · intro h
    obtain ⟨n, hn⟩ := h fun _ => .timedOut
    rw [hthread] at hn
    cases hanswer : sys.socket.or (sys.sendto [] (uploadError remoteClient)) with
    | none => rfl
    | some e =>
      rw [hanswer] at hn
      cases hn
  · intro hanswer os
    refine ⟨0, ?_⟩
    rw [hthread, hanswer]
    rfl

theorem finishesCleanly_rrq_iff (baseDir : Path) (remoteClient : AddressV4) (request : TypeRrq)
    (this : Pointer) :
    (∀ sys, FinishesCleanly sys baseDir remoteClient (.rrq request) this) ↔
      ¬(Supported request.xfermode ∧ AsksForZero request.options) := by
  constructor
  · rintro h ⟨hmode, hzero⟩
    have hwaiting := @exists_forever_waiting (.serving ⟨[], by decide⟩)
      ⟨baseDir, remoteClient, request⟩ ⟨[], by decide⟩ true
    obtain ⟨os, hos⟩ := hwaiting (System.healthy_serving _) (System.noStop_serving _)
      (System.finds_serving _ _) hmode hzero
    obtain ⟨n, hn⟩ := h (.serving ⟨[], by decide⟩) os
    rw [thread, if_pos (hos n)] at hn
    cases hn
  · intro hzero sys os
    obtain ⟨n, hn⟩ := exists_not_waiting sys ⟨baseDir, remoteClient, request⟩ hzero os
    exact ⟨n, if_neg hn⟩

/-- **The threads that finish cleanly.** For an RRQ, whatever the system answers: all but those
asked for blocks of 0 bytes. For a WRQ: those whose socket is made and sends the answer. What a
thread does in the end is all the server needs to destroy its session. -/
theorem finishesCleanly_iff (baseDir : Path) (remoteClient : AddressV4) (this : Pointer) :
    (∀ request : TypeRrq,
      (∀ sys, FinishesCleanly sys baseDir remoteClient (.rrq request) this) ↔
        ¬(Supported request.xfermode ∧ AsksForZero request.options)) ∧
    (∀ (request : TypeWrq) (sys : System),
      FinishesCleanly sys baseDir remoteClient (.wrq request) this ↔
        sys.socket = none ∧ sys.sendto [] (uploadError remoteClient) = none) ∧
    ∀ (s : TftpServerV4.State) (number : ℕ) (done : Bool),
      s.sessions this = some ⟨number, done, .transferring⟩ →
        ∃ s', Transition.run TftpServerV4.step s [.store this, .notify this] = some s' ∧
          s'.sessions this = some ⟨number, true, .finished⟩ ∧
          s'.events = s.events ++ [.notify this number] :=
  ⟨fun request => finishesCleanly_rrq_iff baseDir remoteClient request this,
    fun request sys => finishesCleanly_wrq_iff sys baseDir remoteClient request this,
    fun _ _ _ h => run_epilogue h⟩

/-- A server with one session, at 1. -/
def oneSession : TftpServerV4.State :=
  { TftpServerV4.start with
    sessions := fun p => if p = 1 then some ⟨0, false, .transferring⟩ else none }

theorem finishesCleanly_one :
    FinishesCleanly (.serving ⟨[], by decide⟩) (Path.ofString (lit "./")) ⟨1, 1024⟩
        (.rrq ⟨lit "a", lit "octet", ∅⟩) 1 ∧
      ∃ s', Transition.run TftpServerV4.step oneSession [.store 1, .notify 1] = some s' ∧
        s'.sessions 1 = some ⟨0, true, .finished⟩ ∧
        s'.events = oneSession.events ++ [.notify 1 0] :=
  ⟨((finishesCleanly_iff (Path.ofString (lit "./")) ⟨1, 1024⟩ 1).1
      ⟨lit "a", lit "octet", ∅⟩).mpr (fun h => by
        obtain ⟨-, ⟨text, idx, htext, -⟩, -⟩ := h
        cases htext) _,
    (finishesCleanly_iff (Path.ofString (lit "./")) ⟨1, 1024⟩ 1).2.2 oneSession 0 false rfl⟩

/-- A system that has no socket for the session. -/
def noSocket : System :=
  { System.serving ⟨[], by decide⟩ with socket := some (.runtimeError (lit "socket")) }

/-- **A WRQ without a socket**: the exception leaves the thread. -/
theorem not_finishesCleanly :
    thread noSocket (Path.ofString (lit "./")) ⟨1, 1024⟩ (.wrq ⟨lit "a", lit "octet", ∅⟩) 1 [] =
        .escaped (.runtimeError (lit "socket")) ∧
      ¬FinishesCleanly noSocket (Path.ofString (lit "./")) ⟨1, 1024⟩
        (.wrq ⟨lit "a", lit "octet", ∅⟩) 1 := by
  refine ⟨rfl, ?_⟩
  intro h
  obtain ⟨hsocket, -⟩ := (finishesCleanly_wrq_iff _ _ _ _ _).mp h
  cases hsocket

end TftpSessionV4

end Bootpd
