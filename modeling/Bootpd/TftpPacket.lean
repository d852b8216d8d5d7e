import Bootpd.Serdes

/-!
# `tftp_packet`: the six packets on the wire

The decoder and the encoder of `bootpd/tftp_packet.cpp`, and the facts about them that the session
proofs use: what a DATA or an ACK looks like on the wire, that it is read back as itself, and that
the decoder throws nothing but the reader's own exception.

## The variant

`tftp_packet` holds a `std::variant` whose first alternative is `std::monostate`, and `TftpPacket`
is the sum of the alternatives. The opcode decides between them when a packet is read; an opcode
that is none of the six leaves the first one, with nothing read behind it. What follows a packet in
the datagram is not looked at. A field that is cut off is an exception of the reader; the data of a
DATA packet go as far as the datagram does.

The options of a request are an `std::unordered_map`. `emplace` keeps the first of two texts under
one name, and the order in which they are written is that of the iteration, which the model takes to
be some order.

The texts of the errors are those of the source. `to_string` is there for the exceptions that carry
it, and not for the log.

## Main definitions

* `TftpPacket`, `TftpPacket.ofBits`, `TftpPacket.write` — the packets, read and written
* `TftpPacket.makeError`, `TftpPacket.makeOack`, `TftpPacket.makeData` — those that a server makes
* `TftpPacket.dataBits`, `TftpPacket.ackBits` — the bytes of a DATA and of an ACK

## Main results

* `TftpPacket.ofBits_error` — what a decode that fails throws
* `TftpPacket.serialize_data`, `serialize_ack`, `serialize_error`, `serialize_oack` — the bytes
* `TftpPacket.ofBits_dataBits`, `ofBits_ackBits` — and back
* `TftpPacket.not_data_of_opcode` — only opcode 3 is read as a DATA packet
-/

namespace Bootpd

open Imperative

/-! ### Constants of `tftp_consts.hpp` -/

def tftpOpcodeRrq : UInt16 := 1
def tftpOpcodeWrq : UInt16 := 2
def tftpOpcodeData : UInt16 := 3
def tftpOpcodeAck : UInt16 := 4
def tftpOpcodeError : UInt16 := 5
def tftpOpcodeOack : UInt16 := 6

/-- `tftp_packet::dictionary_type`. -/
abbrev DictionaryType := UnorderedMap StdString StdString

/-- `tftp_packet::error_category_type`: the underlying type is fixed, so a decoded packet can hold
any 16-bit code. -/
abbrev ErrorCategoryType := UInt16

namespace ErrorCategoryType

def undefined : ErrorCategoryType := 0
def fileNotFound : ErrorCategoryType := 1
def accessViolation : ErrorCategoryType := 2
def diskFull : ErrorCategoryType := 3
def illegalOperation : ErrorCategoryType := 4
def unknownTransferId : ErrorCategoryType := 5
def fileAlreadyExists : ErrorCategoryType := 6
def noSuchUser : ErrorCategoryType := 7

end ErrorCategoryType

structure TypeRrq where
  filename : StdString
  xfermode : StdString
  options : DictionaryType
deriving DecidableEq

structure TypeWrq where
  filename : StdString
  xfermode : StdString
  options : DictionaryType
deriving DecidableEq

structure TypeData where
  blockId : UInt16
  data : List UInt8
deriving DecidableEq

structure TypeAck where
  blockId : UInt16
deriving DecidableEq

structure TypeError where
  errorCode : ErrorCategoryType
  errorString : StdString
deriving DecidableEq

structure TypeOack where
  options : DictionaryType
deriving DecidableEq

/-- `tftp_packet`, that is, its `payload_type`. -/
inductive TftpPacket where
  | monostate
  | rrq (payload : TypeRrq)
  | wrq (payload : TypeWrq)
  | data (payload : TypeData)
  | ack (payload : TypeAck)
  | error (payload : TypeError)
  | oack (payload : TypeOack)
deriving DecidableEq

namespace TftpPacket

/-- `error_code_to_string`. -/
def errorCodeToString (value : ErrorCategoryType) : StdString :=
  if value = .undefined then lit "Not defined"
  else if value = .fileNotFound then lit "File not found"
  else if value = .accessViolation then lit "Access violation"
  else if value = .diskFull then lit "Disk full or allocation exceeded."
  else if value = .illegalOperation then lit "Illegal TFTP operation."
  else if value = .unknownTransferId then lit "Unknown transfer ID."
  else if value = .fileAlreadyExists then lit "File already exists."
  else if value = .noSuchUser then lit "No such user."
  else lit "Unknown error code (" ++ toString value.toNat ++ lit ")"

/-! ### The decoder -/

/-- One pass of the option loops: `emplace` keeps the first value of a repeated name. -/
def readOption (options : DictionaryType) : Reader .network DictionaryType := do
  let option ← SerdesReader.asciiz
  let value ← SerdesReader.asciiz
  return options.emplace option value

/-- The option loops of RRQ, WRQ and OACK. -/
def readOptions : Reader .network DictionaryType := SerdesReader.whileNotEmpty readOption ∅

/-- One pass of the loop over the payload of DATA. -/
def readDataByte (data : List UInt8) : Reader .network (List UInt8) := do
  let byte ← SerdesReader.scalar UInt8
  return data ++ [byte]

/-- The `switch` of `serdes(serdes<serdes_reader>&)`. An opcode without a case leaves the packet
as it was constructed. -/
def readPayload (opcode : UInt16) : Reader .network TftpPacket :=
  if opcode = tftpOpcodeRrq then do
    let filename ← SerdesReader.asciiz
    let xfermode ← SerdesReader.asciiz
    let options ← readOptions
    return .rrq ⟨filename, xfermode, options⟩
  else if opcode = tftpOpcodeWrq then do
    let filename ← SerdesReader.asciiz
    let xfermode ← SerdesReader.asciiz
    let options ← readOptions
    return .wrq ⟨filename, xfermode, options⟩
  else if opcode = tftpOpcodeData then do
    let blockId ← SerdesReader.scalar UInt16
    let data ← SerdesReader.whileNotEmpty readDataByte []
    return .data ⟨blockId, data⟩
  else if opcode = tftpOpcodeAck then do
    let blockId ← SerdesReader.scalar UInt16
    return .ack ⟨blockId⟩
  else if opcode = tftpOpcodeError then do
    let errorCode ← SerdesReader.scalar UInt16
    let errorString ← SerdesReader.asciiz
    return .error ⟨errorCode, errorString⟩
  else if opcode = tftpOpcodeOack then do
    let options ← readOptions
    return .oack ⟨options⟩
  else return .monostate

/-- `serdes(serdes<serdes_reader>&)` on a fresh packet. -/
def read : Reader .network TftpPacket := do
  let opcode ← SerdesReader.scalar UInt16
  readPayload opcode

/-- The constructor from the bytes of a datagram. -/
def ofBits (bits : List UInt8) : Except Exception TftpPacket :=
  (exec read (SerdesReader.ofBits bits)).1

/-! ### The encoder -/

def writeOptions (options : DictionaryType) : Writer .network Unit :=
  options.toList.forM fun entry => do
    SerdesWriter.asciiz entry.1
    SerdesWriter.asciiz entry.2

/-- `serdes(serdes<serdes_writer>&)`. -/
def write : TftpPacket → Writer .network Unit
  | rrq value => do
    SerdesWriter.scalar tftpOpcodeRrq
    SerdesWriter.asciiz value.filename
    SerdesWriter.asciiz value.xfermode
    writeOptions value.options
  | wrq value => do
    SerdesWriter.scalar tftpOpcodeWrq
    SerdesWriter.asciiz value.filename
    SerdesWriter.asciiz value.xfermode
    writeOptions value.options
  | data value => do
    SerdesWriter.scalar tftpOpcodeData
    SerdesWriter.scalar value.blockId
    SerdesWriter.span value.data
  | ack value => do
    SerdesWriter.scalar tftpOpcodeAck
    SerdesWriter.scalar value.blockId
  | error value => do
    SerdesWriter.scalar tftpOpcodeError
    SerdesWriter.scalar value.errorCode
    SerdesWriter.asciiz value.errorString
  | oack value => do
    SerdesWriter.scalar tftpOpcodeOack
    writeOptions value.options
  | monostate => throw (.logicError (lit "Can't serialize empty packet."))

/-- The bytes the size functions count for a dictionary. -/
def optionsSize (options : DictionaryType) : ℕ :=
  (options.toList.map fun entry => entry.1.length + entry.2.length + 2).sum

/-- `serdes_size_hint`. -/
def serdesSizeHint : TftpPacket → Except Exception ℕ
  | rrq value =>
    .ok (2 + value.filename.length + 1 + value.xfermode.length + 1 + optionsSize value.options)
  | wrq value =>
    .ok (2 + value.filename.length + 1 + value.xfermode.length + 1 + optionsSize value.options)
  | data value => .ok (2 + 2 + value.data.length)
  | ack _ => .ok (2 + 2)
  | error value => .ok (2 + 2 + value.errorString.length + 1)
  | oack value => .ok (2 + optionsSize value.options)
  | monostate => .error (.logicError (lit "Empty packet has no size."))

instance : Serializable TftpPacket where
  serdesSizeHint := serdesSizeHint
  serdes := write

/-- `opcode()`. -/
def opcode : TftpPacket → Except Exception UInt16
  | rrq _ => .ok tftpOpcodeRrq
  | wrq _ => .ok tftpOpcodeWrq
  | data _ => .ok tftpOpcodeData
  | ack _ => .ok tftpOpcodeAck
  | error _ => .ok tftpOpcodeError
  | oack _ => .ok tftpOpcodeOack
  | monostate => .error (.logicError (lit "Can't get opcode of empty packet."))

/-! ### Making packets -/

def makeData (blockId : UInt16) (data : List UInt8) : TftpPacket := .data ⟨blockId, data⟩

def makeAck (blockId : UInt16) : TftpPacket := .ack ⟨blockId⟩

/-- `make_error` with a text. -/
def makeErrorString (errorCode : ErrorCategoryType) (errorString : StdString) : TftpPacket :=
  .error ⟨errorCode, errorString⟩

/-- `make_error` without: the text is the one of the code. -/
def makeError (errorCode : ErrorCategoryType) : TftpPacket :=
  makeErrorString errorCode (errorCodeToString errorCode)

def makeOack (options : DictionaryType) : TftpPacket := .oack ⟨options⟩

/-! ### Printing packets -/

def optionString (options : DictionaryType) : StdString :=
  options.toList.flatMap fun entry => lit ", " ++ entry.1 ++ lit "=\"" ++ entry.2 ++ lit "\""

/-- `to_string`. -/
def toStdString : TftpPacket → StdString
  | rrq value => lit "RRQ(file=\"" ++ value.filename ++ lit "\", mode=\"" ++ value.xfermode ++
      lit "\"" ++ optionString value.options ++ lit ")"
  | wrq value => lit "WRQ(file=\"" ++ value.filename ++ lit "\", mode=\"" ++ value.xfermode ++
      lit "\"" ++ optionString value.options ++ lit ")"
  | data value => lit "DATA(block_id=" ++ toString value.blockId.toNat ++ lit ", data=[" ++
      toString value.data.length ++ lit " bytes])"
  | ack value => lit "ACK(block_id=" ++ toString value.blockId.toNat ++ lit ")"
  | error value => lit "ERROR(code=" ++ errorCodeToString value.errorCode ++ lit ", message=\"" ++
      value.errorString ++ lit "\")"
  | oack value => lit "OACK(options=" ++ optionString value.options ++ lit ")"
  | monostate => lit "(Nil)"

/-! ### What the decoder returns and throws -/

theorem consumes_readOption (options : DictionaryType) :
    SerdesReader.Consumes 1 (readOption options) := by
  refine SerdesReader.Consumes.bind (n := 1) (m := 0) SerdesReader.consumes_asciiz fun option => ?_
  refine SerdesReader.Consumes.bind (n := 0) (m := 0) ?_ fun value => SerdesReader.Consumes.pure _
  exact SerdesReader.consumes_asciiz.mono (Nat.zero_le 1)

theorem consumes_readDataByte (data : List UInt8) :
    SerdesReader.Consumes 1 (readDataByte data) :=
  SerdesReader.Consumes.bind (n := 1) (m := 0) SerdesReader.consumes_scalar fun _ =>
    SerdesReader.Consumes.pure _

theorem truncates_readOptions : SerdesReader.Truncates readOptions := by
  refine SerdesReader.truncates_whileNotEmpty consumes_readOption (fun options => ?_) ∅
  refine SerdesReader.truncates_asciiz.bind fun option => ?_
  exact SerdesReader.truncates_asciiz.bind fun value => SerdesReader.Truncates.pure _

theorem truncates_readPayload (opcode : UInt16) : SerdesReader.Truncates (readPayload opcode) := by
  rw [readPayload]
  split_ifs
  · refine SerdesReader.truncates_asciiz.bind fun _ => ?_
    refine SerdesReader.truncates_asciiz.bind fun _ => ?_
    exact truncates_readOptions.bind fun _ => SerdesReader.Truncates.pure _
  · refine SerdesReader.truncates_asciiz.bind fun _ => ?_
    refine SerdesReader.truncates_asciiz.bind fun _ => ?_
    exact truncates_readOptions.bind fun _ => SerdesReader.Truncates.pure _
  · refine SerdesReader.truncates_scalar.bind fun _ => ?_
    refine SerdesReader.Truncates.bind ?_ fun _ => SerdesReader.Truncates.pure _
    refine SerdesReader.truncates_whileNotEmpty consumes_readDataByte (fun _ => ?_) []
    exact SerdesReader.truncates_scalar.bind fun _ => SerdesReader.Truncates.pure _
  · exact SerdesReader.truncates_scalar.bind fun _ => SerdesReader.Truncates.pure _
  · refine SerdesReader.truncates_scalar.bind fun _ => ?_
    exact SerdesReader.truncates_asciiz.bind fun _ => SerdesReader.Truncates.pure _
  · exact truncates_readOptions.bind fun _ => SerdesReader.Truncates.pure _
  · exact SerdesReader.Truncates.pure _

/-- **A failed decode** throws the reader's exception and no other. -/
theorem ofBits_error {bits : List UInt8} {e : Exception} (h : ofBits bits = .error e) :
    e = SerdesReader.notEnoughData := by
  have hread : SerdesReader.Truncates read :=
    SerdesReader.truncates_scalar.bind truncates_readPayload
  exact hread.error trivial (Prod.ext h rfl)

/-- What the decoder of an opcode returns has that opcode, or is empty. -/
theorem opcode_readPayload (op : UInt16) :
    Triple (fun _ => True) (readPayload op)
      (fun packet _ => packet = monostate ∨ packet.opcode = .ok op) fun _ _ => True := by
  rw [readPayload]
  split_ifs with h h h h h h
  · exact Triple.after fun _ => Triple.after fun _ => Triple.after fun _ =>
      Triple.pure _ fun _ _ => Or.inr (by rw [h]; rfl)
  · exact Triple.after fun _ => Triple.after fun _ => Triple.after fun _ =>
      Triple.pure _ fun _ _ => Or.inr (by rw [h]; rfl)
  · exact Triple.after fun _ => Triple.after fun _ => Triple.pure _ fun _ _ =>
      Or.inr (by rw [h]; rfl)
  · exact Triple.after fun _ => Triple.pure _ fun _ _ => Or.inr (by rw [h]; rfl)
  · exact Triple.after fun _ => Triple.after fun _ => Triple.pure _ fun _ _ =>
      Or.inr (by rw [h]; rfl)
  · exact Triple.after fun _ => Triple.pure _ fun _ _ => Or.inr (by rw [h]; rfl)
  · exact Triple.pure _ fun _ _ => Or.inl rfl

theorem ofBits_encode (op : UInt16) (rest : List UInt8) :
    ofBits (Scalar.encode .network op ++ rest) =
      (exec (readPayload op) ⟨Scalar.encode .network op ++ rest, rest⟩).1 := by
  rw [ofBits, read, SerdesReader.ofBits, exec_bind_ok (SerdesReader.exec_scalar_append ..)]

/-- **The opcode decides the kind**, whatever follows it. -/
theorem opcode_ofBits {op : UInt16} {rest : List UInt8} {packet : TftpPacket}
    (h : ofBits (Scalar.encode .network op ++ rest) = .ok packet) :
    packet = monostate ∨ packet.opcode = .ok op := by
  rw [ofBits_encode] at h
  exact (opcode_readPayload op).ok trivial (Prod.ext h rfl)

/-- Only opcode 3 is read as a DATA packet. -/
theorem not_data_of_opcode {op : UInt16} (hop : op ≠ tftpOpcodeData) (rest : List UInt8)
    (payload : TypeData) :
    ofBits (Scalar.encode .network op ++ rest) ≠ .ok (.data payload) := by
  intro h
  rcases opcode_ofBits h with h | h
  · cases h
  · exact hop (Except.ok.inj h).symm

/-! ### The bytes of the packets a session sends -/

/-- A DATA packet on the wire. -/
def dataBits (blockId : UInt16) (data : List UInt8) : List UInt8 :=
  Scalar.encode .network tftpOpcodeData ++ (Scalar.encode .network blockId ++ data)

/-- An ACK packet on the wire. -/
def ackBits (blockId : UInt16) : List UInt8 :=
  Scalar.encode .network tftpOpcodeAck ++ Scalar.encode .network blockId

/-- The options of a dictionary on the wire, in iteration order. -/
def optionsBits (options : DictionaryType) : List UInt8 :=
  options.toList.flatMap fun entry => (entry.1 ++ [0]) ++ (entry.2 ++ [0])

theorem emits_writeOptions (options : DictionaryType) :
    SerdesWriter.Emits (writeOptions options) (optionsBits options) := by
  refine SerdesWriter.emits_forM (fun entry => ?_) options.toList
  exact (SerdesWriter.emits_asciiz entry.1).bind (SerdesWriter.emits_asciiz entry.2)

theorem length_optionsBits (options : DictionaryType) :
    (optionsBits options).length = optionsSize options := by
  rw [optionsBits, optionsSize, List.length_flatMap]
  congr 1
  refine List.map_congr_left fun entry _ => ?_
  simp only [List.length_append, List.length_singleton]
  omega

/-- The part RRQ and WRQ share. -/
theorem emits_writeRequest (op : UInt16) (filename xfermode : StdString)
    (options : DictionaryType) :
    SerdesWriter.Emits (do
      SerdesWriter.scalar op
      SerdesWriter.asciiz filename
      SerdesWriter.asciiz xfermode
      writeOptions options)
      (Scalar.encode .network op ++
        (filename ++ 0 :: (xfermode ++ 0 :: optionsBits options))) := by
  have h := (SerdesWriter.emits_scalar (o := .network) op).bind (f := fun _ => _)
    ((SerdesWriter.emits_asciiz filename).bind (f := fun _ => _)
      ((SerdesWriter.emits_asciiz xfermode).bind (f := fun _ => _) (emits_writeOptions options)))
  simpa using h

theorem length_requestBits (op : UInt16) (filename xfermode : StdString)
    (options : DictionaryType) :
    (Scalar.encode .network op ++
      (filename ++ 0 :: (xfermode ++ 0 :: optionsBits options))).length =
        2 + filename.length + 1 + xfermode.length + 1 + optionsSize options := by
  simp only [List.length_append, List.length_cons, Scalar.length_encode, Scalar.size,
    length_optionsBits]
  omega

/-- A packet on the wire; an empty packet cannot be written. -/
def bits : TftpPacket → List UInt8
  | rrq value => Scalar.encode .network tftpOpcodeRrq ++
      (value.filename ++ 0 :: (value.xfermode ++ 0 :: optionsBits value.options))
  | wrq value => Scalar.encode .network tftpOpcodeWrq ++
      (value.filename ++ 0 :: (value.xfermode ++ 0 :: optionsBits value.options))
  | data value => dataBits value.blockId value.data
  | ack value => ackBits value.blockId
  | error value => Scalar.encode .network tftpOpcodeError ++
      (Scalar.encode .network value.errorCode ++ (value.errorString ++ [0]))
  | oack value => Scalar.encode .network tftpOpcodeOack ++ optionsBits value.options
  | monostate => []

variable {packet : TftpPacket}

theorem emits_write (hne : packet ≠ monostate) : SerdesWriter.Emits packet.write packet.bits := by
  cases packet with
  | rrq value => exact emits_writeRequest tftpOpcodeRrq value.filename value.xfermode value.options
  | wrq value => exact emits_writeRequest tftpOpcodeWrq value.filename value.xfermode value.options
  | data value =>
    refine (SerdesWriter.emits_scalar tftpOpcodeData).bind ?_
    exact (SerdesWriter.emits_scalar value.blockId).bind (SerdesWriter.emits_bytes value.data)
  | ack value =>
    exact (SerdesWriter.emits_scalar tftpOpcodeAck).bind (SerdesWriter.emits_scalar value.blockId)
  | error value =>
    refine (SerdesWriter.emits_scalar tftpOpcodeError).bind ?_
    exact (SerdesWriter.emits_scalar value.errorCode).bind
      (SerdesWriter.emits_asciiz value.errorString)
  | oack value =>
    exact (SerdesWriter.emits_scalar tftpOpcodeOack).bind (emits_writeOptions value.options)
  | monostate => exact absurd rfl hne

/-- The size hint is the size. -/
theorem serdesSizeHint_eq (hne : packet ≠ monostate) :
    packet.serdesSizeHint = .ok packet.bits.length := by
  cases packet with
  | rrq value => exact congrArg Except.ok (length_requestBits ..).symm
  | wrq value => exact congrArg Except.ok (length_requestBits ..).symm
  | monostate => exact absurd rfl hne
  | data value | oack value =>
    simp only [serdesSizeHint, bits, dataBits, List.length_append, Scalar.length_encode,
      Scalar.size, length_optionsBits, Nat.add_assoc]
  | ack value => rfl
  | error value =>
    simp only [serdesSizeHint, bits, List.length_append, Scalar.length_encode, Scalar.size,
      List.length_singleton, Nat.add_assoc]

/-- **Serialisation** of a packet succeeds, unless it is empty. -/
theorem serialize_eq (hne : packet ≠ monostate) : serializeToVector packet = .ok packet.bits :=
  serializeToVector_eq (serdesSizeHint_eq hne) (emits_write hne) (Nat.le_add_right _ _)

theorem serialize_rrq (payload : TypeRrq) :
    serializeToVector (TftpPacket.rrq payload) =
      .ok (Scalar.encode .network tftpOpcodeRrq ++
        (payload.filename ++ 0 :: (payload.xfermode ++ 0 :: optionsBits payload.options))) :=
  @serialize_eq (rrq payload) nofun

theorem serialize_wrq (payload : TypeWrq) :
    serializeToVector (TftpPacket.wrq payload) =
      .ok (Scalar.encode .network tftpOpcodeWrq ++
        (payload.filename ++ 0 :: (payload.xfermode ++ 0 :: optionsBits payload.options))) :=
  @serialize_eq (wrq payload) nofun

theorem serialize_data (payload : TypeData) :
    serializeToVector (TftpPacket.data payload) =
      .ok (dataBits payload.blockId payload.data) :=
  @serialize_eq (data payload) nofun

theorem serialize_ack (payload : TypeAck) :
    serializeToVector (TftpPacket.ack payload) = .ok (ackBits payload.blockId) :=
  @serialize_eq (ack payload) nofun

theorem serialize_error (payload : TypeError) :
    serializeToVector (TftpPacket.error payload) =
      .ok (Scalar.encode .network tftpOpcodeError ++
        (Scalar.encode .network payload.errorCode ++ (payload.errorString ++ [0]))) :=
  @serialize_eq (error payload) nofun

theorem serialize_oack (payload : TypeOack) :
    serializeToVector (TftpPacket.oack payload) =
      .ok (Scalar.encode .network tftpOpcodeOack ++ optionsBits payload.options) :=
  @serialize_eq (oack payload) nofun

/-! ### Reading them back -/

theorem exec_readData (d data acc : List UInt8) :
    exec (SerdesReader.whileNotEmpty readDataByte acc) ⟨d, data⟩ =
      (.ok (acc ++ data), ⟨d, []⟩) := by
  induction data generalizing acc with
  | nil => simp [SerdesReader.exec_whileNotEmpty consumes_readDataByte]
  | cons byte data ih =>
    rw [SerdesReader.exec_whileNotEmpty consumes_readDataByte, if_neg (List.cons_ne_nil _ _),
      readDataByte, exec_bind_ok (SerdesReader.exec_byte_cons ..), exec_pure, andThen_ok, ih,
      List.append_assoc, List.singleton_append]

theorem ofBits_dataBits (blockId : UInt16) (data : List UInt8) :
    ofBits (dataBits blockId data) = .ok (.data ⟨blockId, data⟩) := by
  rw [dataBits, ofBits_encode]
  change (exec (do
    let blockId ← SerdesReader.scalar UInt16
    let data ← SerdesReader.whileNotEmpty readDataByte []
    return .data ⟨blockId, data⟩ : Reader .network TftpPacket) _).1 = _
  rw [exec_bind_ok (SerdesReader.exec_scalar_append ..), exec_bind_ok (exec_readData ..)]
  rfl

theorem ofBits_ackBits (blockId : UInt16) : ofBits (ackBits blockId) = .ok (.ack ⟨blockId⟩) := by
  have hscalar : ∀ d, exec (SerdesReader.scalar UInt16)
      (⟨d, Scalar.encode .network blockId⟩ : SerdesReader .network) = (.ok blockId, ⟨d, []⟩) := by
    intro d
    simpa using SerdesReader.exec_scalar_append (o := .network) d [] blockId
  rw [ackBits, ofBits_encode]
  change (exec (do
    let blockId ← SerdesReader.scalar UInt16
    return .ack ⟨blockId⟩ : Reader .network TftpPacket) _).1 = _
  rw [exec_bind_ok (hscalar _)]
  rfl

end TftpPacket

end Bootpd
