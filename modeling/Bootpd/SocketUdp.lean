import Bootpd.Filesystem
import Bootpd.Lib.EventLog
import Bootpd.Serdes

/-!
# `socket_udp`, and the system a session runs on

What the sockets, the file system, the allocator and the stop token answer is not decided by this
program. `System` holds their answers, and every call has an answer of its own: a theorem about all
systems is about every way in which each of the calls may come out, alone and after any other.

Two ways of giving a call its own answer are needed. The calls that a session makes any number of
times, `sendto` and `stop_requested`, are asked with the log of everything that happened before, and
the log has grown by the next time. The calls that a session makes once at most are told apart by
where they stand: the five calls to the file system by `FileCall`, the four of `setsockopt` by
`TimeoutCall` and `SoOption`. `socket` and the allocation of the reader's buffer stand in one place
each. Nothing ties the answers together: a file may be there for `exists` and gone for `file_size`.

What a session does to the outside is kept as a log of events. Receive outcomes are the input of
the session model and are passed to `recv`.

## What is left out

A socket is not an object here, since a session has one and keeps it: how `socket_udp` objects make,
pass on and close their handles is in `SocketHandles`. Nothing takes time. A time-out is an outcome
of the call, whatever value the socket's options have, and the options are kept to be compared with
the request. A call that never returns is no outcome. A conversion of a text to a path that fails
counts as a failure of `exists`, which comes next and has no effect before it.

## Main definitions

* `System` — the answers, and `System.Finds`, for a file that does not change during the session
* `SocketUdp.send`, `SocketUdp.recv`, `SocketUdp.timeout` — the calls

## Main results

* `SocketUdp.exec_send`, `SocketUdp.logs_send` — a send, with any outcome
* `SocketUdp.exec_recv` — a receive
* `SocketUdp.exec_setTimeout` — both options, the first of them only, or none
-/

namespace Bootpd

open Imperative

/-- `address_v4`. -/
structure AddressV4 where
  addr : UInt32
  port : UInt16
deriving DecidableEq, Repr

/-- `address_v4::everyone()`. -/
def AddressV4.everyone : AddressV4 := ⟨0xffffffff, 0⟩

/-- A datagram as it is sent. -/
structure Datagram where
  target : AddressV4
  bits : List UInt8
deriving DecidableEq, Repr

/-- What `recv` of the system comes to: a time-out, another exception, or a datagram. -/
inductive RecvOutcome where
  | timedOut
  | failed (e : Exception) (h : ∀ what, e ≠ .socketTimedOut what)
  | datagram (source : AddressV4) (bits : List UInt8)
deriving DecidableEq

/-- What a session does, seen from outside. -/
inductive Event where
  | sent (d : Datagram)
  | sendFailed (d : Datagram) (e : Exception)
  | received (o : RecvOutcome)
  /-- A file was opened for reading. -/
  | opened (p : Path)
deriving DecidableEq

/-- The calls of a session to the file system. Each is made once at most. -/
inductive FileCall where
  /-- `exists` of `validate_filepath`. -/
  | fileExists
  /-- `is_regular_file` of `validate_filepath`. -/
  | isRegularFile
  /-- `file_size` of `io_thread`. -/
  | fileSize
  /-- The `std::ifstream` of `tftp_reader`, with all that is read from it. -/
  | stream
  /-- `file_size` of `tftp_reader`, for a length of zero. -/
  | streamSize
deriving DecidableEq, Repr

/-- The calls of `timeout` in a session. Each is made once at most. -/
inductive TimeoutCall where
  /-- `timeout(1s)`, once there is a socket. -/
  | first
  /-- The time-out of the options, in front of the transfer. -/
  | transfer
deriving DecidableEq, Repr

/-- The two options a call of `timeout` sets, in this order. -/
inductive SoOption where
  | soRcvtimeo
  | soSndtimeo
deriving DecidableEq, Repr

/-- The answers of everything outside the program. -/
structure System where
  /-- What each call to the file system finds. -/
  filesystem : FileCall → Filesystem
  /-- Whether there is memory for a buffer of this size. A session asks once at most. -/
  canAllocate : UInt64 → Bool
  /-- What `socket` and `bind` throw. A session has one socket. -/
  socket : Option Exception
  /-- What setting an option throws. -/
  setsockopt : TimeoutCall → SoOption → UInt32 → Option Exception
  /-- What `sendto` throws, after the events so far. -/
  sendto : List Event → Datagram → Option Exception
  /-- `std::stop_token::stop_requested`, after the events so far. -/
  stopRequested : List Event → Bool
  canAllocate_zero : canAllocate 0 = true

/-- A path that leads to the same for every call: what is there does not change meanwhile. -/
abbrev System.Finds (sys : System) (p : Path) (entry : Entry) : Prop :=
  ∀ call, sys.filesystem call p = entry

/-- The sockets work: they can be made and configured, and a datagram of at most `longest` bytes is
sent. A datagram of more than 65507 bytes never is. -/
structure System.Healthy (sys : System) (longest : ℕ) : Prop where
  socket : sys.socket = none
  setsockopt : ∀ call option value, sys.setsockopt call option value = none
  sendto : ∀ log d, d.bits.length ≤ longest → sys.sendto log d = none

/-- Nobody asks the session to stop. -/
def System.NoStop (sys : System) : Prop := ∀ log, sys.stopRequested log = false

/-- A system on which nothing fails and every path leads to `file`. -/
def System.serving (file : File) : System where
  filesystem _ _ := .regular file true
  canAllocate _ := true
  socket := none
  setsockopt _ _ _ := none
  sendto _ _ := none
  stopRequested _ := false
  canAllocate_zero := rfl

theorem System.healthy_serving (file : File) {longest : ℕ} :
    (System.serving file).Healthy longest :=
  ⟨rfl, fun _ _ _ => rfl, fun _ _ _ => rfl⟩

theorem System.noStop_serving (file : File) : (System.serving file).NoStop := fun _ => rfl

theorem System.finds_serving (file : File) (p : Path) :
    (System.serving file).Finds p (.regular file true) := fun _ => rfl

variable {sys : System} {p : Path} {file : File} {readable : Bool}

/-- A file that does not change has one size. -/
theorem System.Finds.fileSize (h : sys.Finds p (.regular file readable)) (call : FileCall) :
    (sys.filesystem call).fileSize p = .ok (.ofNat file.content.length) := by
  rw [Filesystem.fileSize, h]

/-- What a session has done, and the options its socket has. -/
structure IoState where
  log : List Event
  soRcvtimeo : UInt32
  soSndtimeo : UInt32
deriving DecidableEq

/-- A computation of a session. -/
abbrev SessionM := Imp IoState Exception

/-- The only effect most calls have. -/
def IoState.push (s : IoState) (ev : Event) : IoState := { s with log := s.log ++ [ev] }

@[simp] theorem IoState.log_push (s : IoState) (ev : Event) :
    (s.push ev).log = s.log ++ [ev] := rfl

/-- The outcome of a call, as a computation. -/
def ofOutcome : Option Exception → SessionM Unit
  | none => pure ()
  | some e => throw e

/-- `std::chrono::seconds` as milliseconds, in 64 bits. -/
def seconds (n : UInt64) : UInt64 := 1000 * n

namespace SocketUdp

/-- `address_v4::make_udp`. -/
def make (sys : System) : SessionM Unit := ofOutcome sys.socket

/-- `timeout(dur)`, for a duration in milliseconds: both options get the low 32 bits of it. -/
def timeout (sys : System) (call : TimeoutCall) (dur : UInt64) : SessionM Unit := do
  ofOutcome (sys.setsockopt call .soRcvtimeo dur.toUInt32)
  modify fun s => { s with soRcvtimeo := dur.toUInt32 }
  ofOutcome (sys.setsockopt call .soSndtimeo dur.toUInt32)
  modify fun s => { s with soSndtimeo := dur.toUInt32 }

/-- `send(packet, target, 0)`. -/
def send {T : Type} [Serializable T] (sys : System) (packet : T) (target : AddressV4) :
    SessionM Unit := do
  let bits ← liftExcept (serializeToVector packet)
  let s ← get
  match sys.sendto s.log ⟨target, bits⟩ with
  | none => set (s.push (.sent ⟨target, bits⟩))
  | some e =>
    set (s.push (.sendFailed ⟨target, bits⟩ e))
    throw e

/-- What `recv(0)` makes of it. A datagram without bytes is an error. -/
def recvResult : RecvOutcome → Except Exception (AddressV4 × List UInt8)
  | .timedOut => .error (.socketTimedOut (lit "receive operation timed out."))
  | .failed e _ => .error e
  | .datagram source bits =>
    if bits.isEmpty then .error (.runtimeError (lit "recv failed")) else .ok (source, bits)

/-- `recv(0)`. -/
def recv (o : RecvOutcome) : SessionM (AddressV4 × List UInt8) := do
  modify fun s => s.push (.received o)
  liftExcept (recvResult o)

/-! ### What the calls log -/

/-- A call that leaves the log alone, whatever it answers. -/
def Quiet {α : Type} (x : SessionM α) : Prop := Logs IoState.log x fun _ es => es = []

variable {T : Type} [Serializable T] {packet : T} {bits : List UInt8}

theorem quiet_make : Quiet (make sys) := by
  rw [make]
  cases sys.socket with
  | none => exact Logs.pure rfl
  | some e => exact Logs.throw rfl

theorem exec_make_of_socket (h : sys.socket = none) (s : IoState) :
    exec (make sys) s = (.ok (), s) := by
  rw [make, h]
  rfl

/-- What setting the two options throws. -/
def timeoutError (sys : System) (call : TimeoutCall) (dur : UInt64) : Option Exception :=
  (sys.setsockopt call .soRcvtimeo dur.toUInt32).or (sys.setsockopt call .soSndtimeo dur.toUInt32)

/-- **The time-outs**: both are set, or the first of them is, or none. -/
theorem exec_setTimeout (sys : System) (call : TimeoutCall) (dur : UInt64) (s : IoState) :
    exec (timeout sys call dur) s = match sys.setsockopt call .soRcvtimeo dur.toUInt32,
        sys.setsockopt call .soSndtimeo dur.toUInt32 with
      | some e, _ => (.error e, s)
      | none, some e => (.error e, { s with soRcvtimeo := dur.toUInt32 })
      | none, none =>
        (.ok (), { s with soRcvtimeo := dur.toUInt32, soSndtimeo := dur.toUInt32 }) := by
  rw [timeout]
  cases sys.setsockopt call .soRcvtimeo dur.toUInt32 with
  | some e => rfl
  | none => cases sys.setsockopt call .soSndtimeo dur.toUInt32 <;> rfl

/-- It ends by the first exception, if there is one, and leaves the log alone. -/
theorem exec_setTimeout_cases (sys : System) (call : TimeoutCall) (dur : UInt64) (s : IoState) :
    (timeoutError sys call dur = none ∧ exec (timeout sys call dur) s =
      (.ok (), { s with soRcvtimeo := dur.toUInt32, soSndtimeo := dur.toUInt32 })) ∨
    ∃ e s', timeoutError sys call dur = some e ∧ exec (timeout sys call dur) s = (.error e, s') ∧
      s'.log = s.log := by
  rw [exec_setTimeout, timeoutError]
  cases sys.setsockopt call .soRcvtimeo dur.toUInt32 with
  | some e => exact .inr ⟨e, s, rfl, rfl, rfl⟩
  | none =>
    cases sys.setsockopt call .soSndtimeo dur.toUInt32 with
    | some e => exact .inr ⟨e, _, rfl, rfl, rfl⟩
    | none => exact .inl ⟨rfl, rfl⟩

theorem quiet_timeout (call : TimeoutCall) (dur : UInt64) : Quiet (timeout sys call dur) := by
  intro s
  refine ⟨[], ?_, rfl⟩
  rw [List.append_nil]
  rcases exec_setTimeout_cases sys call dur s with ⟨-, h⟩ | ⟨e, s', -, h, hlog⟩ <;> rw [h]
  exact hlog

/-- **A send**, with any outcome. -/
theorem exec_send (h : serializeToVector packet = .ok bits) (target : AddressV4) (s : IoState) :
    exec (send sys packet target) s =
      (sys.sendto s.log ⟨target, bits⟩).elim (.ok (), s.push (.sent ⟨target, bits⟩))
        fun e => (.error e, s.push (.sendFailed ⟨target, bits⟩ e)) := by
  rw [send, h, exec_bind_ok (exec_liftExcept ..), exec_bind_ok (exec_get ..)]
  cases sys.sendto s.log ⟨target, bits⟩ <;> rfl

theorem exec_send_healthy {longest : ℕ} (hsys : sys.Healthy longest)
    (h : serializeToVector packet = .ok bits) (hlength : bits.length ≤ longest)
    (target : AddressV4) (s : IoState) :
    exec (send sys packet target) s = (.ok (), s.push (.sent ⟨target, bits⟩)) := by
  rw [exec_send h, hsys.sendto _ _ hlength]
  rfl

/-- What a send leaves in the log. -/
inductive SendLog (d : Datagram) : Except Exception Unit → List Event → Prop where
  | sent : SendLog d (.ok ()) [.sent d]
  | failed (e : Exception) : SendLog d (.error e) [.sendFailed d e]

theorem logs_send (h : serializeToVector packet = .ok bits) (target : AddressV4) :
    Logs IoState.log (send sys packet target) (SendLog ⟨target, bits⟩) := by
  intro s
  rw [exec_send h]
  cases sys.sendto s.log ⟨target, bits⟩ with
  | none => exact ⟨_, rfl, .sent⟩
  | some e => exact ⟨_, rfl, .failed e⟩

/-- **A receive.** -/
theorem exec_recv (o : RecvOutcome) (s : IoState) :
    exec (recv o) s = (recvResult o, s.push (.received o)) := by
  rw [recv, exec_bind_ok (exec_modify ..), exec_liftExcept]

/-- Only a datagram is received, and as it came. -/
theorem eq_datagram_of_recvResult {o : RecvOutcome} {source : AddressV4} {bits : List UInt8}
    (h : recvResult o = .ok (source, bits)) : o = .datagram source bits := by
  cases o with
  | timedOut => cases h
  | failed e he => cases h
  | datagram source' bits' =>
    by_cases hbits : bits'.isEmpty <;> simp [recvResult, hbits] at h
    rw [h.1, h.2]

end SocketUdp

end Bootpd
