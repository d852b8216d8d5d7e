import Bootpd.DhcpOptionsV4

/-!
# `dhcp_options_v4::set` and `value` with lists of arguments

`set(code, args...)` makes a buffer as long as the objects it is passed, which the compiler knows,
and lets a writer put the arguments into it, which may need more or less. `value(code, values)`
lets a reader fill the tuple from the front of the option.

A number needs exactly the bytes of its type. A text does not: the buffer is as long as the string
object, whatever the text is.

## Arguments

An argument is the `sizeof` of its type and what the writer does with it. That separates the two
things that the source takes for one, and lets a theorem speak of any list of arguments. For numbers
the two agree, and then the tuple that is read has the numbers that were set, whatever their types,
and also if fewer are read than were set. The frame is part of it: no other option changes.

The buffer is in the table before the writer starts. A writer that throws leaves an entry with the
bytes it had got to, and zeros behind them.

## Main definitions

* `Tuple`, `Argument` — what is read, and what is set
* `DhcpOptionsV4.setArgs`, `DhcpOptionsV4.valueTuple` — the two members

## Main results

* `DhcpOptionsV4.exec_setArgs`, `exec_setArgs_of_emits` — what `set` stores
* `DhcpOptionsV4.readInto_append` — what `value` reads
* `DhcpOptionsV4.typed_round_trip` — numbers are read back
-/

namespace Bootpd

open Imperative ByteDigits

/-! ### Arguments -/

/-- `std::tuple<Q...>` of integers. -/
def Tuple : List IntegerType → Type
  | [] => Unit
  | t :: ts => t.Carrier × Tuple ts

/-- An argument of `set(code, args...)`: the `sizeof` of its type, and what the writer does
with it. -/
structure Argument where
  size : ℕ
  write : Writer .network Unit
  inBuffer : SerdesWriter.InBuffer write

namespace Argument

/-- A number. -/
def number {T : Type} [Scalar T] (value : T) : Argument :=
  ⟨Scalar.size T, SerdesWriter.scalar value, SerdesWriter.inBuffer_scalar value⟩

/-- A `std::string` or a `std::string_view`, an object of `size` bytes. -/
def text (size : ℕ) (value : StdString) : Argument :=
  ⟨size, SerdesWriter.span value, SerdesWriter.inBuffer_forM SerdesWriter.inBuffer_scalar value⟩

/-- `total_size`. -/
def totalSize (args : List Argument) : ℕ := (args.map size).sum

/-- The writer's calls, in the order of the arguments. -/
def writeAll (args : List Argument) : Writer .network Unit := args.forM write

theorem inBuffer_writeAll (args : List Argument) : SerdesWriter.InBuffer (writeAll args) :=
  SerdesWriter.inBuffer_forM inBuffer args

end Argument

namespace Tuple

/-- The tuple as arguments. -/
def arguments : {ts : List IntegerType} → Tuple ts → List Argument
  | [], _ => []
  | _ :: _, (value, values) => .number value :: arguments values

/-- The big-endian bytes of the numbers, in sequence. -/
def bytes : {ts : List IntegerType} → Tuple ts → List UInt8
  | [], _ => []
  | t :: _, (value, values) =>
    bigEndian (Scalar.size t.Carrier) (Scalar.toNat value) ++ bytes values

/-- Two tuples in sequence. -/
def append : {ts ts' : List IntegerType} → Tuple ts → Tuple ts' → Tuple (ts ++ ts')
  | [], _, _, values' => values'
  | _ :: _, _, (value, values), values' => (value, append values values')

/-! ### The bytes of a tuple -/

theorem emits_arguments {ts : List IntegerType} (values : Tuple ts) :
    SerdesWriter.Emits (Argument.writeAll values.arguments) values.bytes := by
  induction ts with
  | nil => exact SerdesWriter.Emits.pure
  | cons t ts ih =>
    obtain ⟨value, values⟩ := values
    have h := SerdesWriter.emits_scalar (o := .network) value
    rw [Scalar.encode_network] at h
    exact h.bind (ih values)

theorem length_bytes {ts : List IntegerType} (values : Tuple ts) :
    values.bytes.length = Argument.totalSize values.arguments := by
  induction ts with
  | nil => rfl
  | cons t ts ih =>
    obtain ⟨value, values⟩ := values
    rw [bytes, List.length_append, ih]
    simp [arguments, Argument.totalSize, Argument.number, bigEndian]

theorem bytes_append {ts ts' : List IntegerType} (values : Tuple ts) (values' : Tuple ts') :
    (values.append values').bytes = values.bytes ++ values'.bytes := by
  induction ts with
  | nil => rfl
  | cons t ts ih =>
    obtain ⟨value, values⟩ := values
    show bigEndian _ _ ++ (values.append values').bytes = _
    rw [ih, bytes, List.append_assoc]

end Tuple

namespace DhcpOptionsV4

/-! ### The operations -/

/-- `set(code, args...)`. The entry has its new buffer before the writer starts, and keeps it when
the writer throws. -/
def setArgs (code : UInt8) (args : List Argument) : Imp DhcpOptionsV4 Exception Bool :=
  if hsize : Argument.totalSize args ≤ 255 then do
    let i ← liftExcept (slot code)
    let run := exec (Argument.writeAll args) ⟨[], List.replicate (Argument.totalSize args) 0⟩
    modify fun options => options.put i ⟨run.2.written ++ run.2.curr, by
      have h := Argument.inBuffer_writeAll args ⟨[], List.replicate (Argument.totalSize args) 0⟩
      rw [List.length_append, h, List.length_nil, List.length_replicate, Nat.zero_add]
      exact hsize⟩
    liftExcept run.1
    return true
  else return false

/-- The reader's calls of `value`: the values are assigned one by one, and those in front of a
throw stay assigned. -/
def readInto : (ts : List IntegerType) → Tuple ts → SerdesReader .network →
    Except Exception Unit × Tuple ts
  | [], values, _ => (.ok (), values)
  | t :: ts, (value, values), s =>
    match exec (SerdesReader.scalar t.Carrier) s with
    | (.ok value', s') =>
      let (r, values') := readInto ts values s'
      (r, (value', values'))
    | (.error e, _) => (.error e, (value, values))

/-- `value(code, values)`: the result, and what `values` is afterwards. -/
def valueTuple (ts : List IntegerType) (options : DhcpOptionsV4) (code : UInt8)
    (values : Tuple ts) : Except Exception Bool × Tuple ts :=
  if code < 1 ∨ code > 254 then (.ok false, values)
  else match slot code with
    | .error e => (.error e, values)
    | .ok i =>
      match options.values i with
      | none => (.ok false, values)
      | some buffer =>
        let (r, values') := readInto ts values (SerdesReader.ofBits buffer.bytes)
        ((fun _ => true) <$> r, values')

variable {options : DhcpOptionsV4} {code : UInt8} {i : Fin 254} {args : List Argument}

/-! ### What they do -/

/-- Setting one option leaves all others as they are. -/
theorem get_put_of_ne (options : DhcpOptionsV4) (buffer : OptionBuffer) {code : UInt8}
    (h : code ≠ codeOf i) : (options.put i buffer).get code = options.get code := by
  by_cases hcode : HasSlot code
  · obtain ⟨j, -, rfl⟩ := slot_eq_ok hcode
    have hij : j ≠ i := fun hij => h (congrArg codeOf hij)
    rw [get_codeOf, get_codeOf, options.values_put_of_ne hij]
  · have hrange : code ≤ 0x00 ∨ code ≥ 0xff := by
      rcases not_and_or.mp hcode with hcode | hcode <;> rw [not_not.mp hcode] <;> decide
    rw [get, get, if_pos hrange, if_pos hrange]

/-- **`set`** for a code with an entry, and arguments that are not too large together. -/
theorem exec_setArgs (hsize : Argument.totalSize args ≤ 255) (hi : slot code = .ok i)
    {r : Except Exception Unit} {written curr : List UInt8}
    (hrun : exec (Argument.writeAll args) ⟨[], List.replicate (Argument.totalSize args) 0⟩ =
      (r, ⟨written, curr⟩)) :
    ∃ hle, exec (setArgs code args) options =
      ((fun _ => true) <$> r, options.put i ⟨written ++ curr, hle⟩) := by
  have hlength := Argument.inBuffer_writeAll args
    ⟨[], List.replicate (Argument.totalSize args) 0⟩
  rw [hrun] at hlength
  simp only [List.length_nil, List.length_replicate, Nat.zero_add] at hlength
  refine ⟨by rw [List.length_append]; omega, ?_⟩
  rw [setArgs, dif_pos hsize, hi, exec_bind_ok (exec_liftExcept ..)]
  simp only [hrun]
  rw [exec_bind_ok (exec_modify ..), exec_bind, exec_liftExcept]
  cases r <;> rfl

/-- **Arguments that fit**: their bytes, and zeros for what they leave of the buffer. -/
theorem exec_setArgs_of_emits (hsize : Argument.totalSize args ≤ 255) (hi : slot code = .ok i)
    {bytes : List UInt8} (hbytes : SerdesWriter.Emits (Argument.writeAll args) bytes)
    (hle : bytes.length ≤ Argument.totalSize args) :
    ∃ hle', exec (setArgs code args) options = (.ok true, options.put i
      ⟨bytes ++ List.replicate (Argument.totalSize args - bytes.length) 0, hle'⟩) := by
  have hrun := hbytes ⟨[], List.replicate (Argument.totalSize args) 0⟩
    (by rw [List.length_replicate]; exact hle)
  rw [List.nil_append, List.drop_replicate] at hrun
  exact exec_setArgs hsize hi hrun

/-- **Reading** fills a tuple from the front of the bytes. -/
theorem readInto_append {ts : List IntegerType} (values values' : Tuple ts)
    (d rest : List UInt8) :
    readInto ts values' ⟨d, values.bytes ++ rest⟩ = (.ok (), values) := by
  induction ts with
  | nil => rfl
  | cons t ts ih =>
    obtain ⟨value, values⟩ := values
    obtain ⟨value', values'⟩ := values'
    have hscalar := SerdesReader.exec_scalar_append (o := .network) d (values.bytes ++ rest) value
    rw [Scalar.encode_network, ← List.append_assoc] at hscalar
    have htuple : @Tuple.bytes (t :: ts) (value, values) =
        bigEndian (Scalar.size t.Carrier) (Scalar.toNat value) ++ values.bytes := rfl
    rw [htuple, readInto, hscalar]
    simp only [ih]

theorem valueTuple_codeOf {ts : List IntegerType} (options : DhcpOptionsV4)
    {buffer : OptionBuffer} (hbuffer : options.values i = some buffer) (values : Tuple ts) :
    valueTuple ts options (codeOf i) values =
      ((fun _ => true) <$> (readInto ts values (SerdesReader.ofBits buffer.bytes)).1,
        (readInto ts values (SerdesReader.ofBits buffer.bytes)).2) := by
  have hrange : ¬(codeOf i < 1 ∨ codeOf i > 254) := by
    rw [outside_iff, not_not]
    exact hasSlot_codeOf i
  rw [valueTuple, if_neg hrange, slot_codeOf]
  dsimp only
  rw [hbuffer]

/-- **Typed round trip.** Integers of any widths, 255 bytes of them at most, are stored as their
big-endian bytes in sequence; reading as many of the types from the front as one likes gives these
integers back, and no other option changes. -/
theorem typed_round_trip (options : DhcpOptionsV4) (hcode : HasSlot code)
    {ts ts' : List IntegerType} (values : Tuple ts) (values' : Tuple ts')
    (hsize : Argument.totalSize (values.append values').arguments ≤ 255) :
    ∃ options', exec (setArgs code (values.append values').arguments) options =
        (.ok true, options') ∧
      options'.get code = .ok (values.append values').bytes ∧
      (∀ old, valueTuple (ts ++ ts') options' code old = (.ok true, values.append values')) ∧
      (∀ old, valueTuple ts options' code old = (.ok true, values)) ∧
      ∀ code', code' ≠ code → options'.get code' = options.get code' := by
  obtain ⟨i, hi, rfl⟩ := slot_eq_ok hcode
  obtain ⟨hle, hset⟩ := @exec_setArgs_of_emits options (codeOf i) i _ hsize hi _
    (values.append values').emits_arguments (values.append values').length_bytes.le
  have hfull : (values.append values').bytes ++ List.replicate
      (Argument.totalSize (values.append values').arguments -
        (values.append values').bytes.length) 0 = (values.append values').bytes := by
    rw [(values.append values').length_bytes, Nat.sub_self, List.replicate_zero, List.append_nil]
  refine ⟨_, hset, ?_, ?_, ?_, fun code' h => get_put_of_ne _ _ h⟩
  · rw [get_codeOf, values_put, Option.elim_some]
    exact congrArg Except.ok hfull
  · intro old
    have hread := readInto_append (values.append values') old (values.append values').bytes []
    rw [List.append_nil] at hread
    rw [valueTuple_codeOf _ (values_put ..), SerdesReader.ofBits]
    simp only [hfull, hread]
    rfl
  · intro old
    have hread := readInto_append values old (values.append values').bytes values'.bytes
    rw [← Tuple.bytes_append] at hread
    rw [valueTuple_codeOf _ (values_put ..), SerdesReader.ofBits]
    simp only [hfull, hread]
    rfl

theorem typed_round_trip_mixed : ∃ options',
    exec (setArgs 43 [.number (0x0102 : UInt16), .number (-2 : Int32), .number (3 : UInt64)])
        empty = (.ok true, options') ∧
      options'.get 43 = .ok [1, 2, 255, 255, 255, 254, 0, 0, 0, 0, 0, 0, 0, 3] ∧
      (∀ old, valueTuple [⟨UInt16⟩, ⟨Int32⟩, ⟨UInt64⟩] options' 43 old =
        (.ok true, ((0x0102 : UInt16), (-2 : Int32), (3 : UInt64), ()))) ∧
      (∀ old, valueTuple [⟨UInt16⟩, ⟨Int32⟩] options' 43 old =
        (.ok true, ((0x0102 : UInt16), (-2 : Int32), ()))) ∧
      ∀ code', code' ≠ 43 → options'.get code' = empty.get code' := by
  have hbytes : @Tuple.bytes [⟨UInt16⟩, ⟨Int32⟩, ⟨UInt64⟩]
      ((0x0102 : UInt16), (-2 : Int32), (3 : UInt64), ()) =
      [1, 2, 255, 255, 255, 254, 0, 0, 0, 0, 0, 0, 0, 3] := by decide
  have h := @typed_round_trip 43 empty (by decide) [⟨UInt16⟩, ⟨Int32⟩] [⟨UInt64⟩]
    ((0x0102 : UInt16), (-2 : Int32), ()) ((3 : UInt64), ()) (by decide)
  rw [← hbytes]
  exact h

end DhcpOptionsV4

end Bootpd
