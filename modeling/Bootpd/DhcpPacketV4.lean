import Bootpd.DhcpOptionsV4

/-!
# `dhcp_packet_v4`: the packet, its setters and its bytes

The three arrays of the packet have fixed sizes and are vectors here. `hardware_address()` is a
view of the first `m_hardware_address_length` bytes of a 16-byte array, and nothing keeps that
number below 17: a `Span` can be made that reaches past its array, and reading it has no defined
result.

## Setters

A setter of a number cannot fail. The setters of the hardware address and of the two names throw a
logic error for what is too long. A name that is shorter than its array is filled up with zeros; of
the hardware address only the bytes that are given change, and the length. `assign_options` copies
the options with the codes it is given out of another table; for a code without an entry it is
undefined, as `assign` is.

## The bytes

The decoder takes the fixed header field by field and leaves the rest to the option table. It checks
none of the fields. The encoder writes all of it, the name of the server and the boot file with
their zeros. A packet comes back in front of anything that follows it, since its options end with a
marker.

## Main definitions

* `DhcpPacketV4` — the packet, with `DhcpPacketV4.default`, `ofBits` and `write`
* `Span` — a view of a member array
* `DhcpPacketV4.Setter`, `Reachable`, `Origin` — where a packet can come from
* `DhcpPacketV4.InField` — its hardware address is inside its array

## Main results

* `DhcpPacketV4.serialize_eq`, `DhcpPacketV4.exec_read_bits` — the bytes of a packet, and back
* `DhcpPacketV4.round_trip` — a packet is read back from what it is serialised to
* `DhcpPacketV4.inField_iff` — the packets whose hardware address stays inside its field
-/

namespace Bootpd

open Imperative

/-- A `std::span` of bytes: its size, and what reading all of it gives. -/
structure Span where
  size : ℕ
  read : Except Exception StdString
  length_read : ∀ bytes, read = .ok bytes → bytes.length = size

/-- A span over bytes that are there. -/
def Span.of (bytes : StdString) : Span :=
  ⟨bytes.length, .ok bytes, fun _ h => congrArg List.length (Except.ok.inj h).symm⟩

/-- `std::copy` to the start of an array that is large enough. -/
def copyTo {n : ℕ} (array : List.Vector UInt8 n) (bytes : StdString) (h : bytes.length ≤ n) :
    List.Vector UInt8 n :=
  ⟨bytes ++ array.toList.drop bytes.length, by
    rw [List.length_append, List.length_drop, List.Vector.toList_length, Nat.add_sub_cancel' h]⟩

/-- An array of zeros. -/
def zeros (n : ℕ) : List.Vector UInt8 n := List.Vector.replicate n 0

theorem toList_copyTo_zeros {n : ℕ} {bytes : StdString} (h : bytes.length ≤ n) :
    (copyTo (zeros n) bytes h).toList = bytes ++ List.replicate (n - bytes.length) 0 := by
  have hzeros : (zeros n).toList = List.replicate n 0 := rfl
  rw [copyTo, List.Vector.toList_mk, hzeros, List.drop_replicate]

/-- `dhcp_packet_v4`. -/
structure DhcpPacketV4 where
  opcode : UInt8
  hardwareType : UInt8
  hardwareAddressLength : UInt8
  numberOfHops : UInt8
  transactionId : UInt32
  secondsElapsed : UInt16
  flags : UInt16
  clientIpAddressV4 : UInt32
  yourIpAddressV4 : UInt32
  serverIpAddressV4 : UInt32
  gatewayIpAddressV4 : UInt32
  clientHardwareAddress : List.Vector UInt8 16
  serverHostName : List.Vector UInt8 64
  bootFileName : List.Vector UInt8 128
  options : DhcpOptionsV4
deriving DecidableEq

namespace DhcpPacketV4

/-- The default constructor. -/
def default : DhcpPacketV4 where
  opcode := dhcpOpcodeResponse
  hardwareType := dhcpHardwareTypeEthernet
  hardwareAddressLength := 6
  numberOfHops := 0
  transactionId := 0
  secondsElapsed := 0
  flags := dhcpFlagsBroadcast
  clientIpAddressV4 := 0
  yourIpAddressV4 := 0
  serverIpAddressV4 := 0
  gatewayIpAddressV4 := 0
  clientHardwareAddress := zeros 16
  serverHostName := zeros 64
  bootFileName := zeros 128
  options := .empty

/-- The copy constructor. -/
def copy (p : DhcpPacketV4) : DhcpPacketV4 := { p with options := p.options.copy }

/-! ### The accessors -/

/-- `hardware_address()`. -/
def hardwareAddress (p : DhcpPacketV4) : Span where
  size := p.hardwareAddressLength.toNat
  read :=
    if p.hardwareAddressLength.toNat ≤ 16 then
      .ok (p.clientHardwareAddress.toList.take p.hardwareAddressLength.toNat)
    else .error (.undefinedBehaviour (lit "m_client_hardware_address"))
  length_read := by
    intro bytes h
    split at h
    · rename_i hle
      rw [← Except.ok.inj h, List.length_take, List.Vector.toList_length, min_eq_left hle]
    · cases h

/-- `message_type()`. -/
def messageType (p : DhcpPacketV4) : Except Exception (Option UInt8) := p.options.messageType

/-- `is_message_type`. -/
def isMessageType (p : DhcpPacketV4) (msgType : UInt8) : Except Exception Bool := do
  let mto ← p.options.messageType
  return match mto with
    | some value => value == msgType
    | none => false

/-- `requested_parameters`. -/
def requestedParameters (p : DhcpPacketV4) : Except Exception StdString :=
  p.options.requestedParameters

/-! ### The setters -/

variable (p : DhcpPacketV4)

def setOpcode (value : UInt8) : DhcpPacketV4 := { p with opcode := value }

def setHardwareType (value : UInt8) : DhcpPacketV4 := { p with hardwareType := value }

/-- `hardware_address(value)`: the rest of the array stays as it is. -/
def setHardwareAddress (value : Span) : Except Exception DhcpPacketV4 :=
  if h : value.size > 16 then .error (.logicError (lit "hardware_address too large"))
  else match hread : value.read with
    | .error e => .error e
    | .ok bytes => .ok { p with
        hardwareAddressLength := UInt8.ofNat value.size
        clientHardwareAddress := copyTo p.clientHardwareAddress bytes
          (by rw [value.length_read bytes hread]; exact not_lt.mp h) }

def setNumberOfHops (hops : UInt8) : DhcpPacketV4 := { p with numberOfHops := hops }

def setClientAddress (value : UInt32) : DhcpPacketV4 := { p with clientIpAddressV4 := value }

def setYourAddress (value : UInt32) : DhcpPacketV4 := { p with yourIpAddressV4 := value }

def setServerAddress (value : UInt32) : DhcpPacketV4 := { p with serverIpAddressV4 := value }

def setGatewayAddress (value : UInt32) : DhcpPacketV4 := { p with gatewayIpAddressV4 := value }

def setTransactionId (value : UInt32) : DhcpPacketV4 := { p with transactionId := value }

def setSecondsElapsed (value : UInt16) : DhcpPacketV4 := { p with secondsElapsed := value }

def setFlags (value : UInt16) : DhcpPacketV4 := { p with flags := value }

/-- `server_host_name(value)`. -/
def setServerHostName (value : StdString) : Except Exception DhcpPacketV4 :=
  if h : value.length ≤ 64 then .ok { p with serverHostName := copyTo (zeros 64) value h }
  else .error (.logicError (lit "host_name too large"))

/-- `boot_file_name(value)`. -/
def setBootFileName (value : StdString) : Except Exception DhcpPacketV4 :=
  if h : value.length ≤ 128 then .ok { p with bootFileName := copyTo (zeros 128) value h }
  else .error (.logicError (lit "boot_file_name too large"))

/-- `message_type(msg_type)`. -/
def setMessageType (msgType : UInt8) : Except Exception DhcpPacketV4 :=
  (fun options => { p with options }) <$> p.options.setMessageType msgType

/-- `assign_options`. -/
def assignOptions (source : DhcpOptionsV4) (which : List UInt8) : Except Exception DhcpPacketV4 :=
  (fun options => { p with options }) <$>
    which.foldlM (fun options index => Prod.snd <$> options.assign index source) p.options

/-- Setting a hardware address that fits and can be read. -/
theorem setHardwareAddress_of_read {value : Span} {bytes : StdString} (hsize : value.size ≤ 16)
    (hread : value.read = .ok bytes) : ∃ hlen, p.setHardwareAddress value = .ok { p with
      hardwareAddressLength := UInt8.ofNat value.size
      clientHardwareAddress := copyTo p.clientHardwareAddress bytes hlen } := by
  refine ⟨(value.length_read bytes hread).le.trans hsize, ?_⟩
  rw [setHardwareAddress, dif_neg (not_lt.mpr hsize)]
  split
  · rename_i e herror
    rw [hread] at herror
    cases herror
  · rename_i bytes' hbytes'
    obtain rfl := Except.ok.inj (hread.symm.trans hbytes')
    rfl

/-! ### The decoder and the encoder -/

/-- `serdes(serdes<serdes_reader>&)` on a fresh packet. -/
def read : Reader .network DhcpPacketV4 := do
  let opcode ← SerdesReader.scalar UInt8
  let hardwareType ← SerdesReader.scalar UInt8
  let hardwareAddressLength ← SerdesReader.scalar UInt8
  let numberOfHops ← SerdesReader.scalar UInt8
  let transactionId ← SerdesReader.scalar UInt32
  let secondsElapsed ← SerdesReader.scalar UInt16
  let flags ← SerdesReader.scalar UInt16
  let clientIpAddressV4 ← SerdesReader.scalar UInt32
  let yourIpAddressV4 ← SerdesReader.scalar UInt32
  let serverIpAddressV4 ← SerdesReader.scalar UInt32
  let gatewayIpAddressV4 ← SerdesReader.scalar UInt32
  let clientHardwareAddress ← SerdesReader.array UInt8 16
  let serverHostName ← SerdesReader.array UInt8 64
  let bootFileName ← SerdesReader.array UInt8 128
  let options ← DhcpOptionsV4.read default.options
  return { opcode, hardwareType, hardwareAddressLength, numberOfHops, transactionId,
           secondsElapsed, flags, clientIpAddressV4, yourIpAddressV4, serverIpAddressV4,
           gatewayIpAddressV4, clientHardwareAddress, serverHostName, bootFileName, options }

/-- The constructors from bytes. -/
def ofBits (bits : List UInt8) : Except Exception DhcpPacketV4 :=
  (exec read (SerdesReader.ofBits bits)).1

/-- `serdes(serdes<serdes_writer>&)`. -/
def write : Writer .network Unit := do
  SerdesWriter.scalar p.opcode
  SerdesWriter.scalar p.hardwareType
  SerdesWriter.scalar p.hardwareAddressLength
  SerdesWriter.scalar p.numberOfHops
  SerdesWriter.scalar p.transactionId
  SerdesWriter.scalar p.secondsElapsed
  SerdesWriter.scalar p.flags
  SerdesWriter.scalar p.clientIpAddressV4
  SerdesWriter.scalar p.yourIpAddressV4
  SerdesWriter.scalar p.serverIpAddressV4
  SerdesWriter.scalar p.gatewayIpAddressV4
  SerdesWriter.span p.clientHardwareAddress.toList
  SerdesWriter.span p.serverHostName.toList
  SerdesWriter.span p.bootFileName.toList
  p.options.write

/-- `serdes_size_hint`. -/
def serdesSizeHint : ℕ :=
  p.options.serdesSizeHint + 1 + 1 + 1 + 1 + 4 + 2 + 2 + 4 + 4 + 4 + 4 + 16 + 64 + 128

instance : Serializable DhcpPacketV4 where
  serdesSizeHint p := .ok p.serdesSizeHint
  serdes := write

/-! ### The bytes of a packet -/

/-- The packet on the wire. -/
def bits : List UInt8 :=
  Scalar.encode .network p.opcode ++ (Scalar.encode .network p.hardwareType ++
  (Scalar.encode .network p.hardwareAddressLength ++ (Scalar.encode .network p.numberOfHops ++
  (Scalar.encode .network p.transactionId ++ (Scalar.encode .network p.secondsElapsed ++
  (Scalar.encode .network p.flags ++ (Scalar.encode .network p.clientIpAddressV4 ++
  (Scalar.encode .network p.yourIpAddressV4 ++ (Scalar.encode .network p.serverIpAddressV4 ++
  (Scalar.encode .network p.gatewayIpAddressV4 ++ (p.clientHardwareAddress.toList ++
  (p.serverHostName.toList ++ (p.bootFileName.toList ++ p.options.bits)))))))))))))

/-- The size hint is the size. -/
theorem length_bits : p.bits.length = p.serdesSizeHint := by
  simp only [bits, List.length_append, Scalar.length_encode, Scalar.size,
    List.Vector.toList_length, DhcpOptionsV4.length_bits, serdesSizeHint]
  omega

theorem emits_write : SerdesWriter.Emits p.write p.bits :=
  (SerdesWriter.emits_scalar p.opcode).bind <|
  (SerdesWriter.emits_scalar p.hardwareType).bind <|
  (SerdesWriter.emits_scalar p.hardwareAddressLength).bind <|
  (SerdesWriter.emits_scalar p.numberOfHops).bind <|
  (SerdesWriter.emits_scalar p.transactionId).bind <|
  (SerdesWriter.emits_scalar p.secondsElapsed).bind <|
  (SerdesWriter.emits_scalar p.flags).bind <|
  (SerdesWriter.emits_scalar p.clientIpAddressV4).bind <|
  (SerdesWriter.emits_scalar p.yourIpAddressV4).bind <|
  (SerdesWriter.emits_scalar p.serverIpAddressV4).bind <|
  (SerdesWriter.emits_scalar p.gatewayIpAddressV4).bind <|
  (SerdesWriter.emits_bytes p.clientHardwareAddress.toList).bind <|
  (SerdesWriter.emits_bytes p.serverHostName.toList).bind <|
  (SerdesWriter.emits_bytes p.bootFileName.toList).bind <|
  p.options.emits_write

/-- **Serialisation** of a packet succeeds. -/
theorem serialize_eq : serializeToVector p = .ok p.bits :=
  serializeToVector_eq rfl p.emits_write (by rw [length_bits]; exact Nat.le_add_right _ _)

/-- An array of bytes is read back. -/
theorem exec_bytes_append (d rest : List UInt8) {n : ℕ} (v : List.Vector UInt8 n) :
    exec (SerdesReader.array UInt8 n) (⟨d, v.toList ++ rest⟩ : SerdesReader .network) =
      (.ok v, ⟨d, rest⟩) := by
  have h := SerdesReader.exec_array_append (o := .network) d rest v
  rwa [SerdesReader.arrayBytes_uint8] at h

/-- **The packet is read back**, and what follows it stays unread. -/
theorem exec_read_bits (d rest : List UInt8) :
    exec read ⟨d, p.bits ++ rest⟩ = (.ok p.copy, ⟨d, rest⟩) := by
  simp only [bits, List.append_assoc]
  rw [read]
  iterate 11 rw [exec_bind_ok (SerdesReader.exec_scalar_append ..)]
  iterate 3 rw [exec_bind_ok (exec_bytes_append ..)]
  have hoptions : exec (DhcpOptionsV4.read default.options) ⟨d, p.options.bits ++ rest⟩ =
      (.ok p.options.copy, ⟨d, rest⟩) := DhcpOptionsV4.exec_read_bits ..
  rw [exec_bind_ok hoptions]
  rfl

/-- A serialised packet is decoded to the packet with a new magic cookie. -/
theorem ofBits_bits : ofBits p.bits = .ok p.copy := by
  have h := p.exec_read_bits p.bits []
  rw [List.append_nil] at h
  exact congrArg Prod.fst h

/-- **Round trip.** Every packet can be serialised, and is read back from its bytes in front of
any others, in all fields and all options. -/
theorem round_trip (t : List UInt8) :
    ∃ bits q, serializeToVector p = .ok bits ∧
      exec read (SerdesReader.ofBits (bits ++ t)) = (.ok q, ⟨bits ++ t, t⟩) ∧
      { q with options := p.options } = p ∧ q.options.values = p.options.values :=
  ⟨p.bits, p.copy, p.serialize_eq, p.exec_read_bits (p.bits ++ t) t, rfl, rfl⟩

/-! ### Assigning options -/

section AssignOptions

variable {p} {source : DhcpOptionsV4} {which : List UInt8}

/-- One call of `assign` for each code of a list. -/
def assignAll (source options : DhcpOptionsV4) (which : List UInt8) :
    Except Exception DhcpOptionsV4 :=
  which.foldlM (fun options index => Prod.snd <$> options.assign index source) options

theorem assignAll_cons {code : UInt8} (options : DhcpOptionsV4) :
    assignAll source options (code :: which) =
      (Prod.snd <$> options.assign code source) >>= fun options' =>
        assignAll source options' which := List.foldlM_cons

theorem assignAll_eq_ok (source options : DhcpOptionsV4) (h : ∀ code ∈ which, HasSlot code) :
    ∃ options', assignAll source options which = .ok options' ∧
      options'.cookie = options.cookie ∧ ∀ i, options'.values i =
        if codeOf i ∈ which then (source.values i).or (options.values i)
        else options.values i := by
  induction which generalizing options with
  | nil => exact ⟨options, rfl, rfl, fun i => by simp⟩
  | cons code which ih =>
    obtain ⟨j, hj, rfl⟩ := slot_eq_ok (h code List.mem_cons_self)
    obtain ⟨options', hrest, hcookie, hvalues⟩ :=
      ih ((source.values j).elim options (options.put j))
        fun code hcode => h code (List.mem_cons_of_mem _ hcode)
    refine ⟨options', ?_, ?_, fun i => ?_⟩
    · rw [assignAll_cons, DhcpOptionsV4.assign_eq_ok hj]
      exact hrest
    · rw [hcookie]
      cases source.values j <;> rfl
    · rw [hvalues]
      by_cases hij : i = j
      · subst hij
        cases hvalue : source.values i <;> simp
      · have hcode : codeOf i ≠ codeOf j := fun h => hij (codeOf_injective h)
        have hput : ((source.values j).elim options (options.put j)).values i =
            options.values i := by
          cases source.values j with
          | none => rfl
          | some buffer => exact options.values_put_of_ne hij buffer
        simp [hput, hcode]

/-- **Assigning** options whose codes have entries: those that `source` has are copied. -/
theorem assignOptions_eq_ok (p : DhcpPacketV4) (source : DhcpOptionsV4)
    (h : ∀ code ∈ which, HasSlot code) :
    ∃ options, p.assignOptions source which = .ok { p with options } ∧
      options.cookie = p.options.cookie ∧ ∀ i, options.values i =
        if codeOf i ∈ which then (source.values i).or (p.options.values i)
        else p.options.values i := by
  obtain ⟨options, hassign, hrest⟩ := assignAll_eq_ok source p.options h
  exact ⟨options, congrArg _ hassign, hrest⟩

/-- **What `assign_options` does**: the options that are listed and that `source` has are copied,
all others and the header stay. So only the set of the codes counts, and a second call does
nothing. -/
theorem assignOptions_copies (p : DhcpPacketV4) (source : DhcpOptionsV4)
    (h : ∀ code ∈ which, HasSlot code) :
    ∃ q, p.assignOptions source which = .ok q ∧
      { q with options := p.options } = p ∧ q.options.cookie = p.options.cookie ∧
      (∀ i, q.options.values i =
        if codeOf i ∈ which ∧ source.values i ≠ none then source.values i
        else p.options.values i) ∧
      (∀ which', (∀ code, code ∈ which' ↔ code ∈ which) →
        p.assignOptions source which' = .ok q) ∧
      q.assignOptions source which = .ok q := by
  obtain ⟨options, hassign, hcookie, hvalues⟩ := assignOptions_eq_ok p source h
  refine ⟨{ p with options }, hassign, rfl, hcookie, fun i => ?_, fun which' hwhich => ?_, ?_⟩
  · show options.values i = _
    rw [hvalues]
    by_cases hi : codeOf i ∈ which <;> cases hsource : source.values i <;> simp [hi]
  · obtain ⟨options', hassign', hcookie', hvalues'⟩ :=
      assignOptions_eq_ok p source fun code hcode => h code ((hwhich code).mp hcode)
    have heq : options' = options := by
      refine DhcpOptionsV4.ext (hcookie'.trans hcookie.symm) (funext fun i => ?_)
      rw [hvalues', hvalues, if_congr (hwhich _) rfl rfl]
    rw [hassign', heq]
  · obtain ⟨options', hassign', hcookie', hvalues'⟩ :=
      assignOptions_eq_ok { p with options } source h
    have heq : options' = options := by
      refine DhcpOptionsV4.ext hcookie' (funext fun i => ?_)
      rw [hvalues', hvalues]
      by_cases hi : codeOf i ∈ which <;> cases source.values i <;> simp [hi]
    rw [hassign', heq]

/-- A list that names one option twice, and one that the source lacks. -/
theorem assignOptions_copies_repeated :
    let source := DhcpOptionsV4.empty.put 53 ⟨[1, 2, 3, 4], by decide⟩
    ∃ q, DhcpPacketV4.default.assignOptions source [54, 51, 54] = .ok q ∧
      { q with options := DhcpPacketV4.default.options } = DhcpPacketV4.default ∧
      q.options.cookie = DhcpPacketV4.default.options.cookie ∧
      (∀ i, q.options.values i =
        if codeOf i ∈ [(54 : UInt8), 51, 54] ∧ source.values i ≠ none then source.values i
        else DhcpPacketV4.default.options.values i) ∧
      (∀ which', (∀ code, code ∈ which' ↔ code ∈ [(54 : UInt8), 51, 54]) →
        DhcpPacketV4.default.assignOptions source which' = .ok q) ∧
      q.assignOptions source [54, 51, 54] = .ok q :=
  assignOptions_copies _ _ (by simp [HasSlot])

/-- **A code without an entry** makes the assignment reach outside the table. -/
theorem assignOptions_eq_error (h : ¬∀ code ∈ which, HasSlot code) :
    p.assignOptions source which =
      .error (.undefinedBehaviour (lit "m_values[code - 1u]")) := by
  have hall : ∀ options, assignAll source options which =
      .error (.undefinedBehaviour (lit "m_values[code - 1u]")) := by
    induction which with
    | nil => simp at h
    | cons code which ih =>
      intro options
      rw [assignAll_cons]
      by_cases hcode : HasSlot code
      · obtain ⟨j, hj, -⟩ := slot_eq_ok hcode
        rw [DhcpOptionsV4.assign_eq_ok hj]
        refine ih (fun hwhich => h ?_) _
        exact List.forall_mem_cons.mpr ⟨hcode, hwhich⟩
      · rw [DhcpOptionsV4.assign, slot_eq_error hcode]
        rfl
  exact congrArg _ (hall p.options)

end AssignOptions

/-! ### The hardware address and its field -/

/-- A call of a setter. -/
inductive Setter where
  | opcode (value : UInt8)
  | hardwareType (value : UInt8)
  | hardwareAddress (value : Span)
  | numberOfHops (hops : UInt8)
  | clientAddress (value : UInt32)
  | yourAddress (value : UInt32)
  | serverAddress (value : UInt32)
  | gatewayAddress (value : UInt32)
  | transactionId (value : UInt32)
  | secondsElapsed (value : UInt16)
  | flags (value : UInt16)
  | serverHostName (value : StdString)
  | bootFileName (value : StdString)
  | messageType (msgType : UInt8)
  | assignOptions (source : DhcpOptionsV4) (which : List UInt8)

def Setter.apply (p : DhcpPacketV4) : Setter → Except Exception DhcpPacketV4
  | opcode value => .ok (p.setOpcode value)
  | hardwareType value => .ok (p.setHardwareType value)
  | hardwareAddress value => p.setHardwareAddress value
  | numberOfHops hops => .ok (p.setNumberOfHops hops)
  | clientAddress value => .ok (p.setClientAddress value)
  | yourAddress value => .ok (p.setYourAddress value)
  | serverAddress value => .ok (p.setServerAddress value)
  | gatewayAddress value => .ok (p.setGatewayAddress value)
  | transactionId value => .ok (p.setTransactionId value)
  | secondsElapsed value => .ok (p.setSecondsElapsed value)
  | flags value => .ok (p.setFlags value)
  | serverHostName value => p.setServerHostName value
  | bootFileName value => p.setBootFileName value
  | messageType msgType => p.setMessageType msgType
  | assignOptions source which => p.assignOptions source which

/-- The packets any sequence of setters makes of `p`. A setter that throws has changed nothing. -/
inductive Reachable (p : DhcpPacketV4) : DhcpPacketV4 → Prop where
  | refl : Reachable p p
  | step {q q' : DhcpPacketV4} (h : Reachable p q) (s : Setter) (hs : s.apply q = .ok q') :
      Reachable p q'

/-- Where a packet comes from. -/
inductive Origin where
  | default
  | decoded (bits : List UInt8)

def Origin.packet : Origin → Except Exception DhcpPacketV4
  | .default => .ok .default
  | .decoded bits => ofBits bits

/-- The third byte of a datagram, its hardware address length, is at most 16. -/
def Origin.Fits : Origin → Prop
  | .default => True
  | .decoded bits => ∀ length ∈ bits[2]?, length.toNat ≤ 16

/-- `hardware_address()` covers bytes of `m_client_hardware_address` only. -/
structure InField (p : DhcpPacketV4) : Prop where
  length_le : p.hardwareAddressLength.toNat ≤ 16
  read : p.hardwareAddress.read =
    .ok (p.clientHardwareAddress.toList.take p.hardwareAddressLength.toNat)

variable {p} {q : DhcpPacketV4}

theorem inField_iff_length_le : InField p ↔ p.hardwareAddressLength.toNat ≤ 16 :=
  ⟨InField.length_le, fun h => ⟨h, if_pos h⟩⟩

theorem hardwareAddressLength_setHardwareAddress {value : Span}
    (h : p.setHardwareAddress value = .ok q) : q.hardwareAddressLength.toNat ≤ 16 := by
  rw [setHardwareAddress] at h
  split at h
  · cases h
  · rename_i hsize
    split at h
    · cases h
    · obtain rfl := Except.ok.inj h
      exact (Nat.mod_le _ _).trans (not_lt.mp hsize)

/-- **Every setter** keeps the hardware address in its field. -/
theorem length_le_of_apply (hp : p.hardwareAddressLength.toNat ≤ 16) (s : Setter)
    (h : s.apply p = .ok q) : q.hardwareAddressLength.toNat ≤ 16 := by
  cases s with
  | hardwareAddress value => exact hardwareAddressLength_setHardwareAddress h
  | serverHostName value =>
    simp only [Setter.apply, setServerHostName] at h
    split at h <;> cases h
    exact hp
  | bootFileName value =>
    simp only [Setter.apply, setBootFileName] at h
    split at h <;> cases h
    exact hp
  | messageType msgType =>
    obtain ⟨options, -, rfl⟩ := map_eq_ok h
    exact hp
  | assignOptions source which =>
    obtain ⟨options, -, rfl⟩ := map_eq_ok h
    exact hp
  | _ =>
    obtain rfl := Except.ok.inj h
    exact hp

theorem length_le_of_reachable (hp : p.hardwareAddressLength.toNat ≤ 16) (h : Reachable p q) :
    q.hardwareAddressLength.toNat ≤ 16 := by
  induction h with
  | refl => exact hp
  | step _ s hs ih => exact length_le_of_apply ih s hs

/-- A byte that was read is the first of what was to be read. -/
theorem curr_of_exec_byte {s s' : SerdesReader .network} {value : UInt8}
    (h : exec (SerdesReader.scalar UInt8) s = (.ok value, s')) : s.curr = value :: s'.curr := by
  obtain ⟨data, _ | ⟨byte, curr⟩⟩ := s
  · rw [SerdesReader.exec_scalar_nil] at h
    cases h
  · rw [SerdesReader.exec_byte_cons] at h
    cases h
    rfl

/-- The decoder takes the length from the third byte. -/
theorem hardwareAddressLength_ofBits {bits : List UInt8} (h : ofBits bits = .ok p) :
    bits[2]? = some p.hardwareAddressLength := by
  obtain ⟨s', hread⟩ : ∃ s', exec read (SerdesReader.ofBits bits) = (.ok p, s') :=
    ⟨_, Prod.ext h rfl⟩
  obtain ⟨opcode, s₁, h₁, hread⟩ := exec_bind_eq_ok hread
  obtain ⟨hardwareType, s₂, h₂, hread⟩ := exec_bind_eq_ok hread
  obtain ⟨length, s₃, h₃, hread⟩ := exec_bind_eq_ok hread
  have hbits : bits = opcode :: s₁.curr := curr_of_exec_byte h₁
  rw [curr_of_exec_byte h₂, curr_of_exec_byte h₃] at hbits
  iterate 12 obtain ⟨_, _, -, hread⟩ := exec_bind_eq_ok hread
  obtain ⟨hp, -⟩ := Prod.mk.inj hread
  rw [hbits, ← Except.ok.inj hp]
  rfl

/-- **Which hardware addresses stay in their field.** All packets that setters make of a default
packet do, and all that they make of a decoded packet if and only if the length it came with is at
most 16: the decoder does not check it. -/
theorem inField_iff {origin : Origin} (hp : origin.packet = .ok p) :
    (∀ q, Reachable p q → InField q) ↔ origin.Fits := by
  simp only [inField_iff_length_le]
  have hfits : origin.Fits ↔ p.hardwareAddressLength.toNat ≤ 16 := by
    cases origin with
    | default =>
      obtain rfl := Except.ok.inj hp
      exact iff_of_true trivial (by decide)
    | decoded bits => simp [Origin.Fits, hardwareAddressLength_ofBits hp]
  rw [hfits]
  exact ⟨fun h => h p .refl, fun h q hq => length_le_of_reachable h hq⟩

/-- The bytes of a default packet, read back. -/
theorem inField_iff_default :
    (∀ q, Reachable DhcpPacketV4.default q → InField q) ↔
      (Origin.decoded DhcpPacketV4.default.bits).Fits :=
  have hbits : ofBits DhcpPacketV4.default.bits = .ok DhcpPacketV4.default :=
    DhcpPacketV4.default.ofBits_bits
  inField_iff hbits

/-- **A length of 17** is accepted from a datagram of 236 bytes, and reading the hardware address
of the packet has no defined result. -/
theorem not_inField_of_length_seventeen :
    let p : DhcpPacketV4 :=
      { default with opcode := 1, hardwareAddressLength := 17, flags := 0 }
    ofBits ([1, 1, 17, 0] ++ List.replicate 232 0) = .ok p ∧ ¬InField p := by
  refine ⟨by decide +kernel, ?_⟩
  rw [inField_iff_length_le]
  decide

end DhcpPacketV4

end Bootpd
