import Bootpd.Serdes
import Mathlib.Data.Fintype.Basic
import Mathlib.Data.List.FinRange

/-!
# `dhcp_options_v4`: the option table

The table has 254 entries and option `c` is entry `c - 1`, so the codes 0 and 255 have none. The
subtraction is one of 32-bit numbers, and not every operation checks the code in front of it:
`slot` computes the index as the source does, and an index outside the array is undefined
behaviour.

An entry owns a buffer whose first byte is the number of the bytes behind it. Here it is the list
of these bytes, at most 255 of them.

## Who checks

`operator[]` throws for the two codes and `value` answers `false`. `set` with arguments and `assign`
take a code as it is, so that whether they are defined depends on where it comes from; `assign` gets
the codes that a client asks for. The decoder meets 0 as a pad byte and 255 as the end.

The decoder reads up to the end marker, throws without one, and keeps the last of several options
with one code. The encoder writes the options in the order of the table. The cookie is read into a
member; what is written is always the magic one.

Copying and moving a table is in `DhcpOptionsObjects`, `set` and `value` with lists of arguments in
`DhcpOptionsValues`.

## Main definitions

* `DhcpOptionsV4`, `OptionBuffer` — the table and an entry
* `slot`, `codeOf` — from a code to its entry, and back
* `DhcpOptionsV4.get`, `set`, `value`, `assign`, `read`, `write` — the members

## Main results

* `slot_eq_ok`, `slot_eq_error` — the codes 1 to 254 have an entry, 0 and 255 do not
* `DhcpOptionsV4.emits_write` — the bytes of a table on the wire
* `DhcpOptionsV4.exec_read_bits` — the table is read back from them
-/

namespace Bootpd

open Imperative

/-! ### Constants of `dhcp_consts_v4.hpp` -/

def dhcpMessageTypeDiscover : UInt8 := 1
def dhcpMessageTypeOffer : UInt8 := 2
def dhcpMessageTypeRequest : UInt8 := 3
def dhcpMessageTypeAck : UInt8 := 5

def dhcpMagicCookie : UInt32 := 0x63825363

def dhcpHardwareTypeEthernet : UInt8 := 1

def dhcpOpcodeRequest : UInt8 := 1
def dhcpOpcodeResponse : UInt8 := 2

def dhcpFlagsBroadcast : UInt16 := 0x8000

/-! ### The table -/

/-- The buffer of an option that is set. -/
structure OptionBuffer where
  bytes : StdString
  length_le : bytes.length ≤ 255
deriving DecidableEq

/-- `dhcp_options_v4`. -/
@[ext]
structure DhcpOptionsV4 where
  cookie : UInt32
  values : Fin 254 → Option OptionBuffer
deriving DecidableEq

/-- The entry `m_values[code - 1u]`. -/
def slot (code : UInt8) : Except Exception (Fin 254) :=
  let index := (code.toUInt32 - 1).toNat
  if h : index < 254 then .ok ⟨index, h⟩
  else .error (.undefinedBehaviour (lit "m_values[code - 1u]"))

/-- The code whose option an entry is: `std::uint8_t(i + 1u)`. -/
def codeOf (i : Fin 254) : UInt8 := UInt8.ofNat (i + 1)

theorem toNat_codeOf (i : Fin 254) : (codeOf i).toNat = i + 1 :=
  Nat.mod_eq_of_lt (by omega)

theorem codeOf_injective {i j : Fin 254} (h : codeOf i = codeOf j) : i = j := by
  have hij := congrArg UInt8.toNat h
  rw [toNat_codeOf, toNat_codeOf] at hij
  exact Fin.ext (Nat.succ_injective hij)

/-- The codes with an entry. -/
def HasSlot (code : UInt8) : Prop := code ≠ 0 ∧ code ≠ 255

instance (code : UInt8) : Decidable (HasSlot code) := inferInstanceAs (Decidable (_ ∧ _))

theorem hasSlot_iff (code : UInt8) : HasSlot code ↔ 1 ≤ code.toNat ∧ code.toNat ≤ 254 := by
  have hlt := code.toNat_lt
  have hzero : (0 : UInt8).toNat = 0 := rfl
  have hlast : (255 : UInt8).toNat = 255 := rfl
  rw [HasSlot, ne_eq, ne_eq, ← UInt8.toNat_inj, ← UInt8.toNat_inj, hzero, hlast]
  omega

theorem hasSlot_codeOf (i : Fin 254) : HasSlot (codeOf i) := by
  rw [hasSlot_iff, toNat_codeOf]
  omega

/-- The test of `value` on its code. -/
theorem outside_iff (code : UInt8) : (code < 1 ∨ code > 254) ↔ ¬HasSlot code := by
  have hone : (1 : UInt8).toNat = 1 := rfl
  have hlast : (254 : UInt8).toNat = 254 := rfl
  rw [hasSlot_iff, gt_iff_lt, UInt8.lt_iff_toNat_lt, UInt8.lt_iff_toNat_lt]
  omega

/-- **A code from 1 to 254** has an entry, and its code is the code. -/
theorem slot_eq_ok {code : UInt8} (h : HasSlot code) :
    ∃ i, slot code = .ok i ∧ codeOf i = code := by
  obtain ⟨hpos, hle⟩ := (hasSlot_iff code).mp h
  have hindex : (code.toUInt32 - 1).toNat = code.toNat - 1 := by
    rw [UInt32.toNat_sub_of_le, UInt8.toNat_toUInt32]
    · rfl
    · rw [UInt32.le_iff_toNat_le, UInt8.toNat_toUInt32]
      exact hpos
  have hlt : (code.toUInt32 - 1).toNat < 254 := by omega
  refine ⟨⟨_, hlt⟩, dif_pos hlt, ?_⟩
  rw [← UInt8.toNat_inj, toNat_codeOf]
  dsimp only
  omega

theorem slot_codeOf (i : Fin 254) : slot (codeOf i) = .ok i := by
  obtain ⟨j, hj, hcode⟩ := slot_eq_ok (hasSlot_codeOf i)
  rw [hj, codeOf_injective hcode]

/-- **The codes 0 and 255** have none: the index of 0 wraps round, and that of 255 is 254. -/
theorem slot_eq_error {code : UInt8} (h : ¬HasSlot code) :
    slot code = .error (.undefinedBehaviour (lit "m_values[code - 1u]")) := by
  rcases not_and_or.mp h with hcode | hcode <;> rw [not_not.mp hcode] <;> rfl

namespace DhcpOptionsV4

/-- The default constructor. -/
def empty : DhcpOptionsV4 := ⟨dhcpMagicCookie, fun _ => none⟩

/-- The copy constructor: the cookie is a new one. -/
def copy (p : DhcpOptionsV4) : DhcpOptionsV4 := ⟨dhcpMagicCookie, p.values⟩

/-- `m_values[i] = buffer`. -/
def put (options : DhcpOptionsV4) (i : Fin 254) (buffer : OptionBuffer) : DhcpOptionsV4 :=
  { options with values := Function.update options.values i (some buffer) }

@[simp] theorem values_put (options : DhcpOptionsV4) (i : Fin 254) (buffer : OptionBuffer) :
    (options.put i buffer).values i = some buffer := Function.update_self ..

theorem values_put_of_ne (options : DhcpOptionsV4) {i j : Fin 254} (h : j ≠ i)
    (buffer : OptionBuffer) : (options.put i buffer).values j = options.values j :=
  Function.update_of_ne h ..

/-! ### The accessors -/

/-- `operator[]`. -/
def get (options : DhcpOptionsV4) (index : UInt8) : Except Exception StdString :=
  if index ≤ 0x00 ∨ index ≥ 0xff then
    .error (.outOfRange (lit "Accessing invalid option: " ++ toString index.toNat))
  else do
    let i ← slot index
    return (options.values i).elim [] OptionBuffer.bytes

/-- `set(code, arg)` for one argument of a fixed width: the writer fills the buffer. -/
def set {T : Type} [Scalar T] (options : DhcpOptionsV4) (code : UInt8) (arg : T) :
    Except Exception (Bool × DhcpOptionsV4) :=
  if h : Scalar.size T ≤ 255 then do
    let i ← slot code
    return (true, options.put i ⟨Scalar.encode .network arg, by rwa [Scalar.length_encode]⟩)
  else .ok (false, options)

/-- `value(code, values)` for a tuple of one number. -/
def value (T : Type) [Scalar T] (options : DhcpOptionsV4) (code : UInt8) :
    Except Exception (Option T) :=
  if code < 1 ∨ code > 254 then .ok none
  else do
    let i ← slot code
    match options.values i with
    | none => return none
    | some buffer =>
      let value ← (exec (SerdesReader.scalar T)
        (SerdesReader.ofBits buffer.bytes : SerdesReader .network)).1
      return some value

/-- `assign`. -/
def assign (options : DhcpOptionsV4) (code : UInt8) (source : DhcpOptionsV4) :
    Except Exception (Bool × DhcpOptionsV4) := do
  let i ← slot code
  match source.values i with
  | none => return (false, options)
  | some buffer => return (true, options.put i buffer)

/-- `message_type()`. -/
def messageType (options : DhcpOptionsV4) : Except Exception (Option UInt8) :=
  options.value UInt8 0x35

/-- `message_type(msg_type)`. -/
def setMessageType (options : DhcpOptionsV4) (msgType : UInt8) :
    Except Exception DhcpOptionsV4 :=
  Prod.snd <$> options.set 0x35 msgType

/-- `requested_parameters`. -/
def requestedParameters (options : DhcpOptionsV4) : Except Exception StdString :=
  options.get 0x37

/-- `serdes_size_hint`. -/
def serdesSizeHint (options : DhcpOptionsV4) : ℕ :=
  1 + 4 + ((List.finRange 254).map fun i =>
    (options.values i).elim 0 fun buffer => buffer.bytes.length + 2).sum

/-! ### The decoder and the encoder -/

/-- One pass of the loop of `serdes(serdes<serdes_reader>&)`. A span is read like an array. -/
def readOption (options : DhcpOptionsV4) : Reader .network (ForInStep DhcpOptionsV4) := do
  let code ← SerdesReader.scalar UInt8
  if code = 0x00 then return .yield options
  else if code = 0xff then return .done options
  else
    let size ← SerdesReader.scalar UInt8
    let data ← SerdesReader.array UInt8 size.toNat
    let i ← liftExcept (slot code)
    return .yield (options.put i
      ⟨data.toList, by rw [List.Vector.toList_length]; exact Nat.le_of_lt_succ size.toNat_lt⟩)

/-- `serdes(serdes<serdes_reader>&)`. -/
def read (options : DhcpOptionsV4) : Reader .network DhcpOptionsV4 := do
  let s ← MonadState.get
  if s.remainingBytes < 4 then return options
  let cookie ← SerdesReader.scalar UInt32
  let options := { options with cookie }
  if cookie ≠ dhcpMagicCookie then return options
  loop SerdesReader.remainingBytes readOption options

/-- `serdes(serdes<serdes_writer>&)`. -/
def write (options : DhcpOptionsV4) : Writer .network Unit := do
  SerdesWriter.scalar dhcpMagicCookie
  (List.finRange 254).forM fun i =>
    match options.values i with
    | none => return ()
    | some buffer => do
      SerdesWriter.scalar (codeOf i)
      SerdesWriter.span (UInt8.ofNat buffer.bytes.length :: buffer.bytes)
  SerdesWriter.scalar (0xff : UInt8)

/-! ### What the operations do -/

variable {options source : DhcpOptionsV4} {code : UInt8} {i : Fin 254}

theorem get_codeOf (options : DhcpOptionsV4) (i : Fin 254) :
    options.get (codeOf i) = .ok ((options.values i).elim [] OptionBuffer.bytes) := by
  have hpos : ¬codeOf i ≤ 0 := by
    rw [UInt8.le_iff_toNat_le, toNat_codeOf]
    exact Nat.not_succ_le_zero _
  have hlt : ¬codeOf i ≥ 255 := by
    rw [ge_iff_le, UInt8.le_iff_toNat_le, toNat_codeOf]
    exact Nat.not_le_of_lt (Nat.succ_lt_succ i.isLt)
  rw [get, if_neg (not_or.mpr ⟨hpos, hlt⟩), slot_codeOf]
  rfl

/-- The list of requested parameters is the content of option 55, and empty without it. -/
theorem requestedParameters_eq (options : DhcpOptionsV4) :
    options.requestedParameters =
      .ok ((options.values 54).elim [] OptionBuffer.bytes) :=
  get_codeOf options 54

theorem assign_eq_ok (h : slot code = .ok i) (options source : DhcpOptionsV4) :
    Prod.snd <$> options.assign code source =
      .ok ((source.values i).elim options (options.put i)) := by
  rw [assign, h]
  cases hvalue : source.values i <;> simp [bind, Except.bind, hvalue] <;> rfl

theorem setMessageType_eq (options : DhcpOptionsV4) (msgType : UInt8) :
    options.setMessageType msgType =
      .ok (options.put 52 ⟨[msgType], by simp⟩) := by
  have hbytes : Scalar.encode .network msgType = [msgType] := Scalar.encode_uint8 _ _
  have hslot : slot 0x35 = .ok 52 := slot_codeOf 52
  rw [setMessageType, set, dif_pos (by decide), hslot]
  simp only [hbytes]
  rfl

/-- The message type is the first byte of option 53. -/
theorem messageType_eq (options : DhcpOptionsV4) :
    options.messageType = match options.values 52 with
      | none => .ok none
      | some buffer => match buffer.bytes with
        | [] => .error SerdesReader.notEnoughData
        | msgType :: _ => .ok (some msgType) := by
  have hslot : slot 0x35 = .ok 52 := slot_codeOf 52
  rw [messageType, value, if_neg (by decide), hslot]
  cases hvalue : options.values 52 with
  | none => simp [bind, Except.bind, hvalue, pure, Except.pure]
  | some buffer =>
    obtain ⟨_ | ⟨msgType, bytes⟩, hle⟩ := buffer
    · simp [bind, Except.bind, hvalue, SerdesReader.ofBits, SerdesReader.exec_scalar_nil]
    · simp [bind, Except.bind, hvalue, SerdesReader.ofBits, pure, Except.pure]

/-! ### The bytes of a table -/

/-- An entry on the wire. -/
def slotBits (i : Fin 254) : Option OptionBuffer → List UInt8
  | none => []
  | some buffer => codeOf i :: UInt8.ofNat buffer.bytes.length :: buffer.bytes

/-- The table on the wire. -/
def bits (options : DhcpOptionsV4) : List UInt8 :=
  Scalar.encode .network dhcpMagicCookie ++
    ((List.finRange 254).flatMap (fun i => slotBits i (options.values i)) ++ [0xff])

theorem emits_write (options : DhcpOptionsV4) :
    SerdesWriter.Emits (write options) options.bits := by
  refine (SerdesWriter.emits_scalar dhcpMagicCookie).bind (SerdesWriter.Emits.bind
    (SerdesWriter.emits_forM (b := fun i => slotBits i (options.values i)) (fun i => ?_) _)
    (by simpa using SerdesWriter.emits_scalar (o := .network) (0xff : UInt8)))
  cases options.values i with
  | none => exact SerdesWriter.Emits.pure
  | some buffer =>
    have h := (SerdesWriter.emits_scalar (o := .network) (codeOf i)).bind
      (f := fun _ => SerdesWriter.span (UInt8.ofNat buffer.bytes.length :: buffer.bytes))
      (SerdesWriter.emits_bytes _)
    rwa [Scalar.encode_uint8] at h

/-- The size hint is the size. -/
theorem length_bits (options : DhcpOptionsV4) :
    options.bits.length = options.serdesSizeHint := by
  have hslots : ((List.finRange 254).flatMap fun i => slotBits i (options.values i)).length =
      ((List.finRange 254).map fun i =>
        (options.values i).elim 0 fun buffer => buffer.bytes.length + 2).sum := by
    rw [List.length_flatMap]
    congr 1
    refine List.map_congr_left fun i _ => ?_
    cases options.values i <;> rfl
  rw [bits, List.length_append, List.length_append, hslots, serdesSizeHint, Scalar.length_encode]
  simp only [Scalar.size, List.length_singleton]
  omega

/-! ### Reading them back -/

theorem consumes_readOption (options : DhcpOptionsV4) :
    SerdesReader.Consumes 1 (readOption options) := by
  refine SerdesReader.Consumes.bind (n := 1) (m := 0) SerdesReader.consumes_scalar fun code => ?_
  split_ifs
  · exact SerdesReader.Consumes.pure _
  · exact SerdesReader.Consumes.pure _
  · refine SerdesReader.Consumes.bind (n := 0) (m := 0)
      (SerdesReader.consumes_scalar.mono (Nat.zero_le _)) fun size => ?_
    refine SerdesReader.Consumes.bind (n := 0) (m := 0)
      (SerdesReader.consumes_array _) fun data => ?_
    exact SerdesReader.Consumes.bind (n := 0) (m := 0) (SerdesReader.Consumes.liftExcept _) fun i =>
      SerdesReader.Consumes.pure _

theorem decreases_readOption : Decreases SerdesReader.remainingBytes readOption :=
  SerdesReader.decreases_of_consumes consumes_readOption

/-- An entry is read back. -/
theorem exec_readOption_slot (d rest : List UInt8) (options : DhcpOptionsV4) (i : Fin 254)
    (buffer : OptionBuffer) :
    exec (readOption options) ⟨d, slotBits i (some buffer) ++ rest⟩ =
      (.ok (.yield (options.put i buffer)), ⟨d, rest⟩) := by
  obtain ⟨hzero, hlast⟩ := hasSlot_codeOf i
  have hsize : (UInt8.ofNat buffer.bytes.length).toNat = buffer.bytes.length :=
    Nat.mod_eq_of_lt (Nat.lt_succ_of_le buffer.length_le)
  let data : List.Vector UInt8 (UInt8.ofNat buffer.bytes.length).toNat :=
    ⟨buffer.bytes, hsize.symm⟩
  have hdata : exec (SerdesReader.array UInt8 (UInt8.ofNat buffer.bytes.length).toNat)
      (⟨d, buffer.bytes ++ rest⟩ : SerdesReader .network) = (.ok data, ⟨d, rest⟩) := by
    have h := SerdesReader.exec_array_append (o := .network) d rest data
    rw [SerdesReader.arrayBytes_uint8] at h
    exact h
  rw [slotBits, List.cons_append, List.cons_append, readOption,
    exec_bind_ok (SerdesReader.exec_byte_cons ..), if_neg hzero, if_neg hlast,
    exec_bind_ok (SerdesReader.exec_byte_cons ..), exec_bind_ok hdata, slot_codeOf,
    exec_bind_ok (exec_liftExcept ..)]
  rfl

/-- **The loop over the entries**, by induction on the entries that are left. -/
theorem exec_loop_slots (d rest : List UInt8) (values : Fin 254 → Option OptionBuffer)
    (slots : List (Fin 254)) (options : DhcpOptionsV4) :
    exec (loop SerdesReader.remainingBytes readOption options)
      ⟨d, slots.flatMap (fun i => slotBits i (values i)) ++ 0xff :: rest⟩ =
      (.ok (slots.foldl (fun options i => (values i).elim options (options.put i)) options),
        ⟨d, rest⟩) := by
  induction slots generalizing options with
  | nil =>
    have hend : exec (readOption options) ⟨d, 0xff :: rest⟩ =
        (.ok (.done options), ⟨d, rest⟩) := by
      rw [readOption, exec_bind_ok (SerdesReader.exec_byte_cons ..)]
      rfl
    rw [List.flatMap_nil, List.nil_append, exec_loop decreases_readOption, hend]
    rfl
  | cons i slots ih =>
    rw [List.flatMap_cons, List.append_assoc, List.foldl_cons]
    cases values i with
    | none => exact ih options
    | some buffer =>
      rw [exec_loop decreases_readOption, exec_readOption_slot]
      exact ih (options.put i buffer)

/-- What putting the entries of a list leaves in the table. -/
theorem values_foldl_put (values : Fin 254 → Option OptionBuffer) (slots : List (Fin 254))
    (options : DhcpOptionsV4) (j : Fin 254) :
    (slots.foldl (fun options i => (values i).elim options (options.put i)) options).values j =
      if j ∈ slots then (values j).or (options.values j) else options.values j := by
  induction slots generalizing options with
  | nil => simp
  | cons i slots ih =>
    rw [List.foldl_cons, ih]
    by_cases hij : j = i
    · subst hij
      cases hvalue : values j <;> simp
    · have hvalues : ((values i).elim options (options.put i)).values j = options.values j := by
        cases values i with
        | none => rfl
        | some buffer => exact options.values_put_of_ne hij buffer
      simp [hvalues, hij]

theorem cookie_foldl_put (values : Fin 254 → Option OptionBuffer) (slots : List (Fin 254))
    (options : DhcpOptionsV4) :
    (slots.foldl (fun options i => (values i).elim options (options.put i)) options).cookie =
      options.cookie := by
  induction slots generalizing options with
  | nil => rfl
  | cons i slots ih =>
    rw [List.foldl_cons, ih]
    cases values i <;> rfl

/-- **The table is read back** into an empty one, and what follows it stays unread. -/
theorem exec_read_bits (d rest : List UInt8) (options : DhcpOptionsV4) :
    exec (read empty) ⟨d, options.bits ++ rest⟩ = (.ok options.copy, ⟨d, rest⟩) := by
  have hremaining : ¬(⟨d, options.bits ++ rest⟩ : SerdesReader .network).remainingBytes < 4 := by
    rw [SerdesReader.remainingBytes, List.length_append, length_bits, serdesSizeHint]
    omega
  have hread := exec_loop_slots d rest options.values (List.finRange 254) empty
  have hput : (List.finRange 254).foldl
      (fun options' i => (options.values i).elim options' (options'.put i)) empty =
      options.copy := by
    have hcookie := cookie_foldl_put options.values (List.finRange 254) empty
    have hvalues := values_foldl_put options.values (List.finRange 254) empty
    generalize (List.finRange 254).foldl _ empty = table at hcookie hvalues
    obtain ⟨cookie, values⟩ := table
    rw [copy, DhcpOptionsV4.mk.injEq]
    refine ⟨hcookie, funext fun j => ?_⟩
    simpa [empty] using hvalues j
  rw [hput] at hread
  rw [read, exec_bind_ok (exec_get _), if_neg hremaining, bits, List.append_assoc,
    List.append_assoc, List.singleton_append, exec_bind_ok (SerdesReader.exec_scalar_append ..)]
  exact hread

end DhcpOptionsV4

end Bootpd
