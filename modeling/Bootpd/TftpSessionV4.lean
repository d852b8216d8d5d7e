import Bootpd.TftpReader

/-!
# `tftp_session_v4`: the thread that serves a read request

`io_thread` for an RRQ, cut at its two calls of `recv`. Between two of them the thread runs by
itself, as a computation of `SessionM`; at one of them it waits, and `Control` is what its local
variables hold there. A run is the first computation and then one for every receive outcome.

## The loops

Both loops of the source are a `for` over `try`: send a packet, receive, check, and go round again
with one retry less on a time-out, of the send or of the receive. `sendLoop` is the half in front
of `recv`, `awaitAck` with `onTimeout` the half behind it. The two halves are shared by both loops;
what differs is the packet, the number that is awaited and what follows the acknowledgement, and
`dataLoop` and `oackLoop` say it.

The data loop stays one loop from block to block. Its counter is set back in the body and counted
down in the header all the same, so that `resume` goes on with `maxRetries - 1` and not with
`maxRetries`.

## Outcomes

Nothing here decides what a call comes to. The calls that the thread makes by itself are answered by
`System`; the receive outcomes are the input of `step`, and any list of them is a run. An exception
is caught at the end of `io_thread` and leaves a session in `thrown`, which no outcome changes.

Log messages are left out. `m_done` and the notification of the server are the same on every way
out, and are in `TftpThreads`. The overload for a WRQ is there too.

## Main definitions

* `Control`, `TftpSessionV4.State` — where a session is, and with what log
* `TftpSessionV4.ioThread`, `TftpSessionV4.resume` — the thread up to its first `recv`, and from one
  to the next
* `TftpSessionV4.start`, `TftpSessionV4.step`, `TftpSessionV4.run` — a session over its outcomes
-/

namespace Bootpd

open Imperative SocketUdp

/-- `tftp_session_v4`, with the arguments of its thread. -/
structure TftpSessionV4 where
  baseDir : Path
  remoteClient : AddressV4
  request : TypeRrq

/-- `tftp_session_v4::options_type`. -/
structure OptionsType where
  blksize : UInt64
  timeout : UInt64
  tsize : UInt64
deriving DecidableEq, Repr

/-- `MAX_RETRIES`. -/
def maxRetries : ℕ := 10

/-- Where the thread is when it is not running. -/
inductive Control where
  /-- In `recv` of `validate_options`. -/
  | oackSent (retryCounter : ℕ) (options : OptionsType) (oack : DictionaryType)
  /-- In `recv` of the data loop. -/
  | dataSent (retryCounter : ℕ) (reader : TftpReader)
  /-- The data loop was left without an exception. -/
  | finished (reader : TftpReader)
  /-- An exception reached the handlers at the end of `io_thread`. -/
  | thrown (e : Exception)
deriving DecidableEq

/-- `catch (error_socket_timed_out) { continue; }` behind a `try`, with the rest of the `try`. -/
def onTimeout {α β : Type} (r : Except Exception α) (retry : SessionM β) (rest : α → SessionM β) :
    SessionM β :=
  match r with
  | .ok a => rest a
  | .error (.socketTimedOut _) => retry
  | .error e => throw e

namespace TftpSessionV4

variable (sys : System) (session : TftpSessionV4)

/-! ### The checks -/

/-- `validate_source`: a datagram from elsewhere is answered, and nothing else. -/
def validateSource (fromClient : AddressV4) : SessionM Unit := do
  if session.remoteClient ≠ fromClient then
    send sys (TftpPacket.makeErrorString .unknownTransferId (lit "Invalid source address."))
      fromClient

/-- What `validate_ack` throws for an ACK of another block. -/
def unexpectedAck (number : UInt64) (blockId : UInt16) : Exception :=
  .runtimeError (lit "Expected ACK to block: " ++ toString (number &&& 0xffff).toNat ++
    lit ", received : " ++ toString blockId.toNat)

/-- What `validate_ack` throws for any other kind of packet. -/
def notAnAck (packet : TftpPacket) : Exception :=
  .runtimeError (lit "Expected ACK packet, received : " ++ packet.toStdString)

/-- `validate_ack`. -/
def validateAck (packet : TftpPacket) (number : UInt64) : SessionM Unit :=
  match packet with
  | .error _ => throw (.runtimeError (lit "Connection terminated : " ++ packet.toStdString))
  | .ack payload => do
    if payload.blockId.toUInt64 ≠ number &&& 0xffff then
      send sys (TftpPacket.makeError .illegalOperation) session.remoteClient
      throw (unexpectedAck number payload.blockId)
  | _ => do
    send sys (TftpPacket.makeError .illegalOperation) session.remoteClient
    throw (notAnAck packet)

/-- `validate_request`. -/
def validateRequest : SessionM Unit := do
  if session.request.xfermode ≠ lit "octet" ∧ session.request.xfermode ≠ lit "netascii" then
    send sys (TftpPacket.makeError .illegalOperation) session.remoteClient
    throw (.runtimeError (lit "Unsupported transfer mode: " ++ session.request.xfermode))

/-- `validate_filepath`. -/
def validateFilepath (filePath : Path) : SessionM Unit := do
  let found ← liftExcept ((sys.filesystem .fileExists).fileExists filePath)
  if !found then
    send sys (TftpPacket.makeError .fileNotFound) session.remoteClient
    throw (.runtimeError (lit "File not found: " ++ filePath.string))
  let regular ← liftExcept ((sys.filesystem .isRegularFile).isRegularFile filePath)
  if !regular then
    send sys (TftpPacket.makeError .fileNotFound) session.remoteClient
    throw (.runtimeError (lit "Not a file: " ++ filePath.string))

/-! ### The options -/

/-- The `if` of `validate_options` for `blksize`, and the one for `timeout`: the number the text
of the option denotes, and the text in the OACK. -/
def parseOption (name : StdString) (dict oack : DictionaryType) (value : UInt64) :
    Except Exception (UInt64 × DictionaryType) :=
  match dict.lookup name with
  | none => .ok (value, oack)
  | some text => do
    let (value, _) ← stoull 10 text
    return (value, oack.emplace name text)

/-- The first half of `validate_options`: the options in use and the OACK. -/
def parseOptions (options : OptionsType) (dict : DictionaryType) :
    Except Exception (OptionsType × DictionaryType) := do
  let (blksize, oack) ← parseOption (lit "blksize") dict ∅ options.blksize
  let (timeout, oack) ← parseOption (lit "timeout") dict oack options.timeout
  let oack := if (lit "tsize") ∈ dict then
    oack.emplace (lit "tsize") (toString options.tsize.toNat) else oack
  return ({ options with blksize, timeout }, oack)

/-! ### The loops -/

/-- The part of a loop in front of `recv`, from its condition on. -/
def sendLoop (packet : TftpPacket) (waiting : ℕ → Control) (stopped exhausted : SessionM Control) :
    ℕ → SessionM Control
  | 0 => exhausted
  | retryCounter + 1 => do
    let s ← get
    if sys.stopRequested s.log then stopped
    else
      let r ← observing (send sys packet session.remoteClient)
      onTimeout r (sendLoop packet waiting stopped exhausted retryCounter) fun _ =>
        return waiting (retryCounter + 1)

/-- The part of a loop behind `recv`, up to the check of the acknowledgement. -/
def awaitAck (number : UInt64) (o : RecvOutcome) : SessionM Unit := do
  let (fromClient, packetBits) ← recv o
  validateSource sys session fromClient
  let packet ← liftExcept (TftpPacket.ofBits packetBits)
  validateAck sys session packet number

/-- The loop of `io_thread`. -/
def dataLoop (reader : TftpReader) : ℕ → SessionM Control :=
  sendLoop sys session reader.data (fun retryCounter => .dataSent retryCounter reader)
    (return .finished reader)
    (throw (.runtimeError (lit "Failed to send DATA packet, too many retries.")))

/-- `m_base_dir / request_v.filename`. -/
def filePath : Path := session.baseDir.append (Path.ofString session.request.filename)

/-- `io_thread` from behind `validate_options` on. -/
def startTransfer (options : OptionsType) : SessionM Control := do
  timeout sys .transfer (seconds options.timeout)
  let reader ← TftpReader.make sys session.filePath options.tsize options.blksize
    (session.request.xfermode == lit "octet")
  dataLoop sys session reader maxRetries

/-- The loop of `validate_options`. -/
def oackLoop (options : OptionsType) (oack : DictionaryType) : ℕ → SessionM Control :=
  sendLoop sys session (TftpPacket.makeOack oack)
    (fun retryCounter => .oackSent retryCounter options oack)
    (startTransfer sys session options)
    (do
      send sys (TftpPacket.makeErrorString .undefined (lit "TFTP operation timed out."))
        session.remoteClient
      throw (.runtimeError (lit "Failed to send OACK packet, too many retries.")))

/-! ### The thread -/

/-- `io_thread` up to its first `recv`. -/
def ioThread : SessionM Control := do
  SocketUdp.make sys
  timeout sys .first (seconds 1)
  validateRequest sys session
  validateFilepath sys session session.filePath
  let tsize ← liftExcept ((sys.filesystem .fileSize).fileSize session.filePath)
  let options : OptionsType := ⟨512, 1, tsize⟩
  if session.request.options.entries.isEmpty then
    startTransfer sys session options
  else
    let (options, oack) ← liftExcept (parseOptions options session.request.options)
    oackLoop sys session options oack maxRetries

/-- `io_thread` from a `recv` to the next. -/
def resume (control : Control) (o : RecvOutcome) : SessionM Control :=
  match control with
  | .oackSent retryCounter options oack => do
    let r ← observing (awaitAck sys session 0 o)
    onTimeout r (oackLoop sys session options oack (retryCounter - 1)) fun _ =>
      startTransfer sys session options
  | .dataSent retryCounter reader => do
    let r ← observing (awaitAck sys session reader.number o)
    onTimeout r (dataLoop sys session reader (retryCounter - 1)) fun _ =>
      -- the loop's own decrement follows the assignment of MAX_RETRIES
      if reader.last then return .finished reader
      else dataLoop sys session reader.next (maxRetries - 1)
  | control => return control

/-- A session between two outcomes. -/
structure State where
  control : Control
  io : IoState
deriving DecidableEq

/-- The handlers at the end of `io_thread`. -/
def handled : Except Exception Control → Control
  | .ok control => control
  | .error e => .thrown e

@[simp] theorem handled_ok (control : Control) : handled (.ok control) = control := rfl

@[simp] theorem handled_error (e : Exception) : handled (.error e) = .thrown e := rfl

def settle (r : Except Exception Control × IoState) : State := ⟨handled r.1, r.2⟩

/-- A session at its first `recv`, or ended before. -/
def start : State := settle (exec (ioThread sys session) ⟨[], 0, 0⟩)

/-- One receive outcome. -/
def step (s : State) (o : RecvOutcome) : State :=
  settle (exec (resume sys session s.control o) s.io)

/-- A whole run. -/
def run (os : List RecvOutcome) : State := os.foldl (step sys session) (start sys session)

end TftpSessionV4

end Bootpd
