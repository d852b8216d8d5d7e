import Bootpd.Lib.Refinement
import Bootpd.SerdesCursor

/-!
# The cursor with spans does what the cursor with lists does

`SerdesReader` and `SerdesWriter`, on which the packet codecs are built, hold the bytes in front of
and behind the cursor. They are what the object with its two spans looks like: every read and every
write has the same outcome on both, and leaves states that correspond.

The two sides store a value differently. The lists take its bytes in the right order, the object
stores it as it is and swaps it in place; this needs an integer type that uses all its bytes.

## The correspondence

`toReader` and `toWriter` look at an object and take the bytes that its regions are about. They are
functions, and not inverse to anything: many objects look alike. `InMemory` is what they need to be
about the bytes at all, that the regions are in memory and the unread one an end of the other.
`Follows` of `Lib.Refinement` composes, so that it is enough to compare one scalar; the loops over
scalars follow.

A string is read into a local variable and moved to its target at the end. An array and a span are
read in place, so a throw leaves elements in the target that the lists do not show. The outcome and
the cursor are the same all the same.

## Main results

* `Serdes.follows_readScalar`, `follows_writeScalar` — one scalar
* `Serdes.follows_readAsciiz`, `follows_readArray`, `follows_writeAsciiz`, `follows_writeSpan` — the
  loops over scalars
-/

namespace Bootpd

open Imperative

/-! ### Regions of a memory -/

namespace Region

theorem length_bytes {r : Region} {memory : List UInt8} (h : r.data + r.size ≤ memory.length) :
    (r.bytes memory).length = r.size := by
  rw [bytes, List.length_take, List.length_drop]
  omega

/-- The front of a region has the front of its bytes. -/
theorem bytes_front (r : Region) {n : ℕ} (hn : n ≤ r.size) (memory : List UInt8) :
    Region.bytes ⟨r.data, n⟩ memory = (r.bytes memory).take n := by
  rw [bytes, bytes, List.take_take, Nat.min_eq_left hn]

end Region

section Overwrite

variable {memory bytes : List UInt8} {address : ℕ}

theorem length_overwrite (h : address + bytes.length ≤ memory.length) :
    (overwrite memory address bytes).length = memory.length := by
  rw [overwrite, List.length_append, List.length_append, List.length_take, List.length_drop]
  omega

/-- Storing twice in the same place. -/
theorem overwrite_overwrite {bytes' : List UInt8} (h : address + bytes.length ≤ memory.length)
    (hlen : bytes'.length = bytes.length) :
    overwrite (overwrite memory address bytes) address bytes' =
      overwrite memory address bytes' := by
  have haddress : (memory.take address).length = address := by
    rw [List.length_take]
    omega
  have htake : (overwrite memory address bytes).take address = memory.take address := by
    rw [overwrite, List.append_assoc, List.take_left' haddress]
  have hdrop : (overwrite memory address bytes).drop (address + bytes'.length) =
      memory.drop (address + bytes'.length) := by
    rw [overwrite, hlen, List.drop_left' (by rw [List.length_append, haddress])]
  rw [overwrite, htake, hdrop]
  rfl

/-- What was stored is there. -/
theorem bytes_overwrite (h : address + bytes.length ≤ memory.length) :
    Region.bytes ⟨address, bytes.length⟩ (overwrite memory address bytes) = bytes := by
  have haddress : (memory.take address).length = address := by
    rw [List.length_take]
    omega
  rw [Region.bytes, overwrite, List.append_assoc, List.drop_left' haddress, List.take_left' rfl]

/-- A region up to the stored bytes has grown by them. -/
theorem bytes_overwrite_front {start : ℕ} (hstart : start ≤ address)
    (h : address + bytes.length ≤ memory.length) :
    Region.bytes ⟨start, address + bytes.length - start⟩ (overwrite memory address bytes) =
      Region.bytes ⟨start, address - start⟩ memory ++ bytes := by
  have haddress : (memory.take address).length = address := by
    rw [List.length_take]
    omega
  have hlen : (Region.bytes ⟨start, address - start⟩ memory).length = address - start :=
    Region.length_bytes (by show start + (address - start) ≤ memory.length; omega)
  have hdrop : (overwrite memory address bytes).drop start =
      (Region.bytes ⟨start, address - start⟩ memory ++ bytes) ++
        memory.drop (address + bytes.length) := by
    rw [overwrite, List.append_assoc, List.drop_append_of_le_length (by omega), List.drop_take,
      List.append_assoc]
    rfl
  rw [Region.bytes, hdrop]
  refine List.take_left' ?_
  show _ = address + bytes.length - start
  rw [List.length_append, hlen]
  omega

/-- A region behind the stored bytes is unchanged. -/
theorem bytes_overwrite_behind (h : address + bytes.length ≤ memory.length) (size : ℕ) :
    Region.bytes ⟨address + bytes.length, size⟩ (overwrite memory address bytes) =
      Region.bytes ⟨address + bytes.length, size⟩ memory := by
  have hlen : (memory.take address ++ bytes).length = address + bytes.length := by
    rw [List.length_append, List.length_take]
    omega
  rw [Region.bytes, overwrite, List.drop_left' hlen]
  rfl

end Overwrite

namespace Serdes

variable {o : ByteOrder} {T : Type} [Scalar T] {buffer : Region}

/-- The object as a reader. -/
def toReader (s : Serdes) : SerdesReader o := ⟨s.data.bytes s.memory, s.curr.bytes s.memory⟩

/-- The object as a writer. -/
def toWriter (s : Serdes) : SerdesWriter o :=
  ⟨Region.bytes ⟨s.data.data, s.curr.data - s.data.data⟩ s.memory, s.curr.bytes s.memory⟩

/-- The invariant, where the buffer is in memory. -/
abbrev InMemory (buffer : Region) : Serdes → Prop :=
  Inside (fun memory => buffer.data + buffer.size ≤ memory.length) buffer

theorem InMemory.curr_le {s : Serdes} (h : InMemory buffer s) :
    s.curr.data + s.curr.size ≤ s.memory.length := h.curr_end.trans_le h.memory

theorem InMemory.length_unread {s : Serdes} (h : InMemory buffer s) :
    (s.curr.bytes s.memory).length = s.curr.size := Region.length_bytes h.curr_le

/-! ### The reader -/

theorem loaded_eq_decode (hT : Scalar.Onto T) {bytes : List UInt8}
    (h : bytes.length = Scalar.size T) : (loaded o bytes : T) = Scalar.decode o bytes := by
  cases o with
  | network => exact (Scalar.decode_network_eq hT h).symm
  | host => rfl

/-- **Reading a scalar.** -/
theorem follows_readScalar (hT : Scalar.Onto T) (target : T) :
    Follows toReader (InMemory buffer) (withTarget target (readScalar o))
      (SerdesReader.scalar T : Reader o T) := by
  intro s hs
  refine ⟨Safe.after (Triple.withTarget (safe_readScalar o) target) hs, ?_⟩
  have hlen : (s.toReader : SerdesReader o).curr.length = s.curr.size := InMemory.length_unread hs
  rw [SerdesReader.exec_scalar, exec_withTarget_readScalar, hlen]
  by_cases h : s.curr.size < Scalar.size T
  · rw [if_pos h, if_pos h]
  · have hn := Nat.le_of_not_lt h
    have hvalue : Region.bytes ⟨s.curr.data, Scalar.size T⟩ s.memory =
        (s.curr.bytes s.memory).take (Scalar.size T) := Region.bytes_front _ hn _
    have hsize : ((s.curr.bytes s.memory).take (Scalar.size T)).length = Scalar.size T := by
      rw [List.length_take, InMemory.length_unread hs, Nat.min_eq_left hn]
    rw [if_neg h, if_neg h, hvalue, loaded_eq_decode hT hsize]
    refine congrArg (Prod.mk _) ?_
    exact congrArg (SerdesReader.mk _) (Region.bytes_end s.curr _ _).symm

/-- **Reading an array**, and a span: the elements one by one. -/
theorem follows_readArray (hT : Scalar.Onto T) {n : ℕ} {targets : List T}
    (hn : targets.length = n) :
    Follows toReader (InMemory buffer) (withTarget targets (readArray o)) (do
      let values ← SerdesReader.array T n
      return values.toList : Reader o (List T)) := by
  subst hn
  induction targets with
  | nil => exact fun s hs => ⟨hs, rfl⟩
  | cons target targets ih =>
    have hseq : (do
        let values ← SerdesReader.array T (target :: targets).length
        return values.toList : Reader o (List T)) = (do
        let value ← SerdesReader.scalar T
        let values ← (do
          let values ← SerdesReader.array T targets.length
          return values.toList : Reader o (List T))
        return value :: values) := by
      simp [SerdesReader.array]
    rw [hseq]
    refine Follows.congr (Follows.bind (follows_readScalar hT target) fun value =>
      Follows.bind ih fun values => Follows.pure (value :: values)) fun s => ?_
    exact exec_withTarget_forEach_cons (readScalar o) target targets s

/-- **Reading a string.** -/
theorem follows_readAsciiz (hT : Scalar.Onto T) (target : List T) :
    Follows toReader (InMemory buffer) (withTarget target (readAsciiz o))
      (SerdesReader.basicAsciiz T : Reader o (List T)) := by
  refine Follows.congr (Follows.loop decreases_readAsciizBody
    SerdesReader.decreases_basicAsciizBody (fun value => ?_) []) fun s =>
      exec_withTarget_assignLast _ target s
  refine Follows.bind (follows_readScalar hT (Scalar.ofNat 0)) fun char => ?_
  by_cases hchar : Scalar.toNat char = 0
  · rw [if_pos hchar, if_pos hchar]
    exact Follows.pure _
  · rw [if_neg hchar, if_neg hchar]
    exact Follows.pure _

/-! ### The writer -/

/-- Swapped in place, the bytes are those of the value in the right order. -/
theorem memory_storedScalar (hT : Scalar.Onto T) {s : Serdes} (hs : InMemory buffer s)
    (value : T) (hn : Scalar.size T ≤ s.curr.size) :
    (storedScalar o s value).memory =
      overwrite s.memory s.curr.data (Scalar.encode o value) := by
  have hroom : s.curr.data + (Scalar.memory value).length ≤ s.memory.length := by
    rw [Scalar.length_memory]
    have := InMemory.curr_le hs
    omega
  cases o with
  | host => rfl
  | network =>
    have hload : Region.bytes ⟨s.curr.data, Scalar.size T⟩
        (overwrite s.memory s.curr.data (Scalar.memory value)) = Scalar.memory value := by
      have h := bytes_overwrite hroom
      rwa [Scalar.length_memory] at h
    show overwrite (overwrite s.memory s.curr.data (Scalar.memory value)) s.curr.data
      (Scalar.memory (Scalar.hostToNetInplace (Scalar.ofMemory (Region.bytes _ _) : T))) = _
    rw [show (s.stored (Scalar.memory value)).memory =
      overwrite s.memory s.curr.data (Scalar.memory value) from rfl, hload, Scalar.ofMemory_memory,
      overwrite_overwrite hroom (by rw [Scalar.length_memory, Scalar.length_memory]),
      Scalar.encode_network_eq hT]

theorem writable_inMemory :
    Writable (fun memory => buffer.data + buffer.size ≤ memory.length) buffer := by
  intro memory address bytes hmemory _ hhigh
  rw [length_overwrite (hhigh.trans hmemory)]
  exact hmemory

theorem storedScalar_data (s : Serdes) (value : T) :
    (storedScalar o s value).data = s.data := by
  cases o <;> rfl

theorem storedScalar_curr (s : Serdes) (value : T) :
    (storedScalar o s value).curr = s.curr := by
  cases o <;> rfl

/-- **Writing a scalar.** -/
theorem follows_writeScalar (hT : Scalar.Onto T) (value : T) :
    Follows toWriter (InMemory buffer) (writeScalar o value)
      (SerdesWriter.scalar value : Writer o Unit) := by
  intro s hs
  refine ⟨Safe.after (safe_writeScalar writable_inMemory o value) hs, ?_⟩
  have hlen : (s.toWriter : SerdesWriter o).curr.length = s.curr.size := InMemory.length_unread hs
  rw [SerdesWriter.exec_scalar, exec_writeScalar, hlen]
  by_cases h : s.curr.size < Scalar.size T
  · rw [if_pos h, if_pos h]
  · have hn := Nat.le_of_not_lt h
    have hencode : (Scalar.encode o value).length = Scalar.size T := Scalar.length_encode o value
    have hroom : s.curr.data + (Scalar.encode o value).length ≤ s.memory.length := by
      have := InMemory.curr_le hs
      omega
    have hstart : s.data.data ≤ s.curr.data := by
      rw [hs.data_eq]
      exact hs.le_curr
    have hwritten := bytes_overwrite_front hstart hroom
    have hunread := bytes_overwrite_behind hroom (s.curr.size - Scalar.size T)
    rw [hencode] at hwritten hunread
    rw [if_neg h, if_neg h]
    refine congrArg (Prod.mk _) ?_
    let t := storedScalar o s value
    show _ = SerdesWriter.mk
      (Region.bytes ⟨t.data.data, t.curr.data + Scalar.size T - t.data.data⟩ t.memory)
      (Region.bytes ⟨t.curr.data + Scalar.size T, t.curr.size - Scalar.size T⟩ t.memory)
    rw [storedScalar_data, storedScalar_curr, memory_storedScalar hT hs value hn, hwritten, hunread,
      Region.bytes_end]
    rfl

/-- **Writing a span**, an array or a string. -/
theorem follows_writeSpan (hT : Scalar.Onto T) (values : List T) :
    Follows toWriter (InMemory buffer) (writeSpan o values)
      (SerdesWriter.span values : Writer o Unit) :=
  Follows.forM (follows_writeScalar hT) values

/-- **Writing a string with its terminator.** -/
theorem follows_writeAsciiz (hT : Scalar.Onto T) (value : List T) :
    Follows toWriter (InMemory buffer) (writeAsciiz o value)
      (SerdesWriter.basicAsciiz value : Writer o Unit) :=
  Follows.bind (follows_writeSpan hT value) fun _ => follows_writeScalar hT _

end Serdes

end Bootpd
