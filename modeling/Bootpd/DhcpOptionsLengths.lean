import Bootpd.DhcpOptionsValues
import Bootpd.DhcpPacketV4

/-!
# `dhcp_options_v4::value` and the length of an option

`value` looks whether the option is there and leaves it to the reader whether it is long enough.
The reader throws where the bytes run out, which may be behind some of the outputs: these are
assigned by then.

A function that answers with a `bool` is there to be asked; a caller that takes the answer for the
only way of failing lets the exception through. The length of an option is chosen by whoever sent
the packet, an option of no bytes included. `message_type` asks for one byte in this way, and
`is_message_type` asks `message_type`.

An option that is longer than the outputs is read from its front, and `value` answers `true`.

## Main definitions

* `DhcpOptionsV4.lengthOf` — the number of bytes of an option, if it is there
* `DhcpOptionsV4.FailsSoftly` — `value` returns, and with `false` the outputs are as they were

## Main results

* `DhcpOptionsV4.fst_readInto` — the reader gets through or throws, by the length alone
* `DhcpOptionsV4.messageType_returns_iff`, `isMessageType_returns_iff` — its callers
* `DhcpOptionsV4.failsSoftly_iff` — when `value` answers with its result
-/

namespace Bootpd

open Imperative

/-- The sum of the `sizeof` of some integer types. -/
def IntegerType.totalSize (ts : List IntegerType) : ℕ :=
  (ts.map fun t => Scalar.size t.Carrier).sum

namespace DhcpOptionsV4

open IntegerType (totalSize)

/-- The number of bytes of an option, if it is there. -/
def lengthOf (options : DhcpOptionsV4) (code : UInt8) : Option ℕ :=
  match slot code with
  | .error _ => none
  | .ok i => (options.values i).map fun buffer => buffer.bytes.length

/-- **A soft failure**: `value` returns, with `true` for an option that has the bytes of all
outputs, and otherwise with `false` and the outputs as they were. -/
def FailsSoftly (ts : List IntegerType) (options : DhcpOptionsV4) (code : UInt8)
    (old : Tuple ts) : Prop :=
  ∃ found values, valueTuple ts options code old = (.ok found, values) ∧
    (found = true ↔ ∃ n ∈ options.lengthOf code, totalSize ts ≤ n) ∧
    (found = false → values = old)

variable {ts : List IntegerType} {options : DhcpOptionsV4} {code : UInt8} {old : Tuple ts}

/-- **The reader** gets through the outputs or throws, by what is left of the option. -/
theorem fst_readInto (ts : List IntegerType) (old : Tuple ts) (s : SerdesReader .network) :
    (readInto ts old s).1 =
      if s.curr.length < totalSize ts then .error SerdesReader.notEnoughData else .ok () := by
  induction ts generalizing s with
  | nil => rfl
  | cons t ts ih =>
    obtain ⟨value, values⟩ := old
    have htotal : totalSize (t :: ts) = Scalar.size t.Carrier + totalSize ts := rfl
    rw [readInto, SerdesReader.exec_scalar, htotal]
    by_cases hshort : s.curr.length < Scalar.size t.Carrier
    · rw [if_pos hshort, if_pos (Nat.lt_add_right _ hshort)]
    · have hrest : s.curr.length - Scalar.size t.Carrier < totalSize ts ↔
          s.curr.length < Scalar.size t.Carrier + totalSize ts := by omega
      rw [if_neg hshort]
      dsimp only
      rw [ih, List.length_drop]
      simp only [hrest]

theorem lengthOf_of_not_hasSlot (h : ¬HasSlot code) : options.lengthOf code = none := by
  rw [lengthOf, slot_eq_error h]

theorem lengthOf_codeOf (options : DhcpOptionsV4) (i : Fin 254) :
    options.lengthOf (codeOf i) = (options.values i).map fun buffer => buffer.bytes.length := by
  rw [lengthOf, slot_codeOf]

/-- Without the option there is nothing to read. -/
theorem valueTuple_of_lengthOf_none (h : options.lengthOf code = none) :
    valueTuple ts options code old = (.ok false, old) := by
  by_cases hcode : HasSlot code
  · obtain ⟨i, hi, rfl⟩ := slot_eq_ok hcode
    rw [lengthOf_codeOf, Option.map_eq_none_iff] at h
    rw [valueTuple, hi]
    split_ifs
    · rfl
    · simp only [h]
  · rw [valueTuple, if_pos ((outside_iff code).mpr hcode)]

/-- With the option, its length decides. -/
theorem fst_valueTuple {n : ℕ} (h : n ∈ options.lengthOf code) :
    (valueTuple ts options code old).1 =
      if n < totalSize ts then .error SerdesReader.notEnoughData else .ok true := by
  have hcode : HasSlot code := by
    by_contra hcode
    rw [lengthOf_of_not_hasSlot hcode] at h
    cases h
  obtain ⟨i, -, rfl⟩ := slot_eq_ok hcode
  rw [lengthOf_codeOf] at h
  obtain ⟨buffer, hbuffer, rfl⟩ := Option.map_eq_some_iff.mp h
  rw [valueTuple_codeOf options hbuffer, fst_readInto, SerdesReader.ofBits]
  by_cases hshort : buffer.bytes.length < totalSize ts
  · rw [if_pos hshort, if_pos hshort]
    rfl
  · rw [if_neg hshort, if_neg hshort]
    rfl

/-- `value` fails softly but for an option that is there and too short. -/
theorem failsSoftly_iff_lengthOf :
    FailsSoftly ts options code old ↔ ∀ n ∈ options.lengthOf code, totalSize ts ≤ n := by
  cases hlength : options.lengthOf code with
  | none =>
    refine iff_of_true ⟨false, old, valueTuple_of_lengthOf_none hlength, ?_, fun _ => rfl⟩ (by simp)
    rw [hlength]
    simp
  | some n =>
    have hfst : (valueTuple ts options code old).1 = _ := fst_valueTuple hlength
    constructor
    · rintro ⟨found, values, hvalue, -⟩ m hm
      obtain rfl := Option.some.inj hm
      rw [hvalue] at hfst
      by_contra hlt
      rw [if_pos (Nat.lt_of_not_le hlt)] at hfst
      cases hfst
    · intro hle
      have hle := hle n rfl
      rw [if_neg (Nat.not_lt.mpr hle)] at hfst
      refine ⟨true, (valueTuple ts options code old).2, Prod.ext hfst rfl, ?_, by simp⟩
      exact iff_of_true rfl ⟨n, hlength, hle⟩

/-- Reading one number is reading a tuple of one. -/
theorem value_eq_valueTuple (T : Type) [Scalar T] (options : DhcpOptionsV4) (code : UInt8)
    (old : Tuple [⟨T⟩]) :
    options.value T code =
      (fun found => if found then some (valueTuple [⟨T⟩] options code old).2.1 else none) <$>
        (valueTuple [⟨T⟩] options code old).1 := by
  rw [value, valueTuple]
  split_ifs with hrange
  · rfl
  · cases slot code with
    | error e => rfl
    | ok i =>
      dsimp only [bind, Except.bind]
      cases options.values i with
      | none => rfl
      | some buffer =>
        obtain ⟨value, values⟩ := old
        dsimp only [readInto]
        rcases exec (SerdesReader.scalar T) (SerdesReader.ofBits buffer.bytes) with ⟨e | v, s⟩
        · rfl
        · rfl

/-- `message_type()` returns unless option 53 is there and empty. -/
theorem messageType_returns_iff (options : DhcpOptionsV4) :
    (∃ msgType, options.messageType = .ok msgType) ↔ ∀ n ∈ options.lengthOf 0x35, 1 ≤ n := by
  obtain ⟨old⟩ : Nonempty (Tuple [⟨UInt8⟩]) := ⟨((0 : UInt8), ())⟩
  have hvalue : options.messageType = _ := value_eq_valueTuple UInt8 options 0x35 old
  cases hlength : options.lengthOf 0x35 with
  | none =>
    rw [valueTuple_of_lengthOf_none hlength] at hvalue
    exact iff_of_true ⟨_, hvalue⟩ (by simp)
  | some n =>
    have htotal : totalSize [⟨UInt8⟩] = 1 := rfl
    rw [fst_valueTuple hlength, htotal] at hvalue
    by_cases hn : n < 1
    · rw [if_pos hn] at hvalue
      refine iff_of_false ?_ fun h => absurd (h n rfl) (Nat.not_le.mpr hn)
      rintro ⟨msgType, h⟩
      rw [hvalue] at h
      cases h
    · rw [if_neg hn] at hvalue
      refine iff_of_true ⟨_, hvalue⟩ fun m hm => ?_
      obtain rfl := Option.some.inj hm
      exact Nat.not_lt.mp hn

theorem isMessageType_returns_iff (p : DhcpPacketV4) (msgType : UInt8) :
    (∃ b, p.isMessageType msgType = .ok b) ↔ ∃ msgType, p.options.messageType = .ok msgType := by
  rw [DhcpPacketV4.isMessageType]
  cases p.options.messageType with
  | error e => exact iff_of_false (by rintro ⟨b, h⟩; cases h) (by rintro ⟨b, h⟩; cases h)
  | ok mto => exact iff_of_true ⟨_, rfl⟩ ⟨mto, rfl⟩

/-- **When `value` fails softly.** For every table, code and types of outputs, it does but for an
option that is there with fewer bytes than the outputs have together; and `message_type` and
`is_message_type` return but for an option 53 that is there without a byte. -/
theorem failsSoftly_iff (options : DhcpOptionsV4) (code : UInt8) (old : Tuple ts)
    (p : DhcpPacketV4) (msgType : UInt8) :
    (FailsSoftly ts options code old ↔ ∀ n ∈ options.lengthOf code, totalSize ts ≤ n) ∧
      ((∃ mto, options.messageType = .ok mto) ↔ ∀ n ∈ options.lengthOf 0x35, 1 ≤ n) ∧
      ((∃ b, p.isMessageType msgType = .ok b) ↔ ∀ n ∈ p.options.lengthOf 0x35, 1 ≤ n) := by
  refine ⟨failsSoftly_iff_lengthOf, messageType_returns_iff options, ?_⟩
  rw [isMessageType_returns_iff, messageType_returns_iff]

/-- A message with an option 53 of no bytes and an option 43 of three. -/
def shortOptions : StdString := [99, 130, 83, 99, 43, 3, 1, 2, 3, 53, 0, 255]

/-- Both are too short for what is read from them, and the first of the two numbers is assigned
when the second one throws. -/
theorem not_failsSoftly_shortOptions :
    ∃ options s, exec (read empty) (SerdesReader.ofBits shortOptions) = (.ok options, s) ∧
      options.messageType = .error SerdesReader.notEnoughData ∧
      valueTuple [⟨UInt16⟩, ⟨UInt16⟩] options 43 ((0 : UInt16), (0 : UInt16), ()) =
        (.error SerdesReader.notEnoughData, ((0x0102 : UInt16), (0 : UInt16), ())) ∧
      ¬FailsSoftly [⟨UInt16⟩, ⟨UInt16⟩] options 43 ((0 : UInt16), (0 : UInt16), ()) := by
  let options : DhcpOptionsV4 :=
    (empty.put ⟨42, by decide⟩ ⟨[1, 2, 3], by decide⟩).put ⟨52, by decide⟩ ⟨[], by decide⟩
  have hbits : options.bits ++ [] = shortOptions := by decide +kernel
  have hread := exec_read_bits shortOptions [] options
  rw [hbits] at hread
  refine ⟨options.copy, _, hread, by decide, rfl, ?_⟩
  rintro ⟨found, values, hvalue, -⟩
  cases congrArg Prod.fst hvalue

end DhcpOptionsV4

end Bootpd
