import Bootpd.SocketUdp
import Bootpd.TftpPacket

/-!
# `tftp_reader`: a file as a sequence of blocks

The reader holds one block at a time. `At F b k r` says that it holds block `k` of a file `F` that
is read in blocks of `b` bytes: this is what the constructor establishes for `k = 1` and what
`next` carries on, and under it no 64-bit operation of the reader wraps.

## The arithmetic

`next` computes where its block begins and how long it is from the number, the block size and the
length that the constructor was given, all of them unsigned numbers of 64 bits. The definitions
compute with these. `At` bounds the number by the blocks of the file, and with it the product of
number and block size by the length and one block; that is where the hypothesis that a file has less
than 2^63 bytes comes in.

## Two streams

`At` is about positions and lengths. `Exact` says in addition that the buffer has the bytes of the
block, and needs a stream that is open and binary. A stream in text mode delivers other bytes and
keeps the reader on the same way, which `TftpNetascii` goes into. A stream that has failed delivers
none, and the reader goes through the blocks all the same, with empty buffers.

The allocation of the buffer may fail, and is the one effect of the constructor besides the opening
of the file.

## Main definitions

* `TftpReader.make`, `TftpReader.next`, `TftpReader.last`, `TftpReader.data` — the source's
* `TftpReader.block` — a block of a file
* `TftpReader.At`, `TftpReader.Exact` — where a reader is, and that it has what is there

## Main results

* `TftpReader.At.next`, `Exact.next` — `next` goes from block `k` to block `k + 1`
* `TftpReader.At.last_iff` — `last` is true at block `|F| / b + 1` and nowhere before
-/

namespace Bootpd

open Imperative

/-- `tftp_reader`. -/
structure TftpReader where
  stream : Ifstream
  length : UInt64
  blksiz : UInt64
  buffer : List UInt8
  number : UInt64
deriving DecidableEq

namespace TftpReader

/-- `data()`. -/
def data (r : TftpReader) : TftpPacket :=
  TftpPacket.makeData (r.number &&& 0xffff).toUInt16 r.buffer

/-- `offset` of `next()`. -/
def nextOffset (r : TftpReader) : UInt64 := r.number * r.blksiz

/-- `length` of `next()`: `std::min(m_length - offset, m_blksiz)`. -/
def nextLength (r : TftpReader) : UInt64 :=
  if r.length - r.nextOffset < r.blksiz then r.length - r.nextOffset else r.blksiz

/-- `next()`. The buffer is cleared and resized, so what the stream does not deliver is zero. -/
def next (r : TftpReader) : TftpReader :=
  if r.nextLength > 0 then
    let delivered := r.stream.read r.nextOffset.toNat r.nextLength.toNat
    { r with
      stream := delivered.2
      buffer := delivered.1 ++ List.replicate (r.nextLength.toNat - delivered.1.length) 0
      number := r.number + 1 }
  else { r with buffer := [], number := r.number + 1 }

@[simp] theorem length_next (r : TftpReader) : r.next.length = r.length := by
  rw [next]; split <;> rfl

@[simp] theorem blksiz_next (r : TftpReader) : r.next.blksiz = r.blksiz := by
  rw [next]; split <;> rfl

@[simp] theorem number_next (r : TftpReader) : r.next.number = r.number + 1 := by
  rw [next]; split <;> rfl

theorem toNat_eq_zero_of_not_pos {x : UInt64} (h : ¬x > 0) : x.toNat = 0 := by
  rw [gt_iff_lt, UInt64.lt_iff_toNat_lt] at h
  exact Nat.eq_zero_of_not_pos h

/-- The buffer has the length asked for, whatever the stream delivers. -/
@[simp] theorem length_buffer_next (r : TftpReader) :
    r.next.buffer.length = r.nextLength.toNat := by
  rw [next]
  split
  · have := r.stream.length_read_le r.nextOffset.toNat r.nextLength.toNat
    simp only [List.length_append, List.length_replicate]
    omega
  · rename_i h
    exact (toNat_eq_zero_of_not_pos h).symm

/-- `last()`. -/
def last (r : TftpReader) : Bool := r.buffer.length < r.blksiz.toNat

/-- The members as the constructor initialises them. -/
def initial (stream : Ifstream) (length blksiz : UInt64) : TftpReader :=
  ⟨stream, length, blksiz, List.replicate blksiz.toNat 0, 0⟩

/-- `m_length` of the constructor: a length of zero stands for the size of the file. -/
def lengthOf (sys : System) (path : Path) (length : UInt64) : Except Exception UInt64 :=
  if length ≠ 0 then .ok length else (sys.filesystem .streamSize).fileSize path

/-- The constructor. A stream that cannot be opened is no error yet. -/
def make (sys : System) (path : Path) (length blksiz : UInt64) (isBinary : Bool) :
    SessionM TftpReader := do
  let stream := Ifstream.ofPath (sys.filesystem .stream) path isBinary
  modify fun s => s.push (.opened path)
  let length ← liftExcept (lengthOf sys path length)
  if !sys.canAllocate blksiz then throw .badAlloc
  return (initial stream length blksiz).next

/-! ### The block a reader holds -/

/-- Block `k` of a file in blocks of `b` bytes: the bytes from `(k - 1) * b` up to `k * b` or the
end of the file. -/
def block (F : List UInt8) (b k : ℕ) : List UInt8 := (F.drop ((k - 1) * b)).take b

/-- The reader is at block `k` of a file of `n` bytes, whatever its stream delivers. -/
structure At (n b k : ℕ) (r : TftpReader) : Prop where
  blksiz_pos : 0 < b
  size_lt : n < 2 ^ 63
  length : r.length.toNat = n
  blksiz : r.blksiz.toNat = b
  number : r.number.toNat = k
  /-- The block starts inside the file, or at its end. -/
  start_le : (k - 1) * b ≤ n
  number_pos : 0 < k
  buffer : r.buffer.length = min b (n - (k - 1) * b)

/-- The stream delivers the bytes of `F`, and the buffer is the block of `F`. -/
structure Exact (F : List UInt8) (r : TftpReader) : Prop where
  stream : r.stream = ⟨F, true, false⟩
  buffer : r.buffer = block F r.blksiz.toNat r.number.toNat

variable {F : List UInt8} {n b k : ℕ} {r : TftpReader}

theorem toNat_number_succ (hnumber : r.number.toNat = k) (hk : k < 2 ^ 63) :
    (r.number + 1).toNat = k + 1 := by
  rw [UInt64.toNat_add, hnumber]
  exact Nat.mod_eq_of_lt (by simp; omega)

theorem toNat_nextOffset (hblksiz : r.blksiz.toNat = b) (hnumber : r.number.toNat = k)
    (hn : n < 2 ^ 64) (hk : k * b ≤ n) : r.nextOffset.toNat = k * b := by
  rw [nextOffset, UInt64.toNat_mul, hnumber, hblksiz]
  exact Nat.mod_eq_of_lt (by omega)

/-- The number of bytes `next` asks for, computed without wrapping. -/
theorem toNat_nextLength (hlength : r.length.toNat = n) (hblksiz : r.blksiz.toNat = b)
    (hoffset : r.nextOffset.toNat = k * b) (hk : k * b ≤ n) :
    r.nextLength.toNat = min b (n - k * b) := by
  have hsub : (r.length - r.nextOffset).toNat = n - k * b := by
    rw [UInt64.toNat_sub_of_le _ _ (by rw [UInt64.le_iff_toNat_le]; omega), hlength, hoffset]
  rw [nextLength]
  split <;> rename_i h <;> rw [UInt64.lt_iff_toNat_lt] at h <;> omega

/-- `next` from the end of block `k`, which lies in the file. The constructor is the case
`k = 0`. -/
theorem at_next_of (hb : 0 < b) (hn : n < 2 ^ 63) (hlength : r.length.toNat = n)
    (hblksiz : r.blksiz.toNat = b) (hnumber : r.number.toNat = k) (hk : k * b ≤ n) :
    At n b (k + 1) r.next := by
  have hkn : k ≤ n := (Nat.le_mul_of_pos_right k hb).trans hk
  have hoffset := toNat_nextOffset hblksiz hnumber (by omega) hk
  have hnum := toNat_number_succ hnumber (by omega)
  refine ⟨hb, hn, ?_, ?_, ?_, by simpa using hk, Nat.succ_pos k, ?_⟩
  · rw [length_next, hlength]
  · rw [blksiz_next, hblksiz]
  · rw [number_next, hnum]
  · rw [length_buffer_next, toNat_nextLength hlength hblksiz hoffset hk, Nat.add_sub_cancel]

/-- A block that is not the last one is full, so the next one starts inside the file. -/
theorem At.end_le (h : At n b k r) (hlast : r.last = false) : k * b ≤ n := by
  have hb := h.blksiz_pos
  have hstart := h.start_le
  have hk : k * b = (k - 1) * b + b := by
    rw [← Nat.succ_mul, Nat.succ_eq_add_one, Nat.sub_add_cancel h.number_pos]
  rw [last, decide_eq_false_iff_not, h.buffer, h.blksiz] at hlast
  omega

/-- **`next`** goes from block `k` to block `k + 1`. -/
theorem At.next (h : At n b k r) (hlast : r.last = false) : At n b (k + 1) r.next :=
  at_next_of h.blksiz_pos h.size_lt h.length h.blksiz h.number (h.end_le hlast)

/-- **`last`** is true at block `n / b + 1`, and at no block before. -/
theorem At.last_iff (h : At n b k r) : r.last = true ↔ k = n / b + 1 := by
  have hb := h.blksiz_pos
  have hstart := h.start_le
  obtain ⟨j, rfl⟩ : ∃ j, k = j + 1 := ⟨k - 1, (Nat.sub_add_cancel h.number_pos).symm⟩
  have hdiv : n / b = j ↔ j * b ≤ n ∧ n ≤ j * b + b - 1 := Nat.div_eq_iff hb
  rw [last, decide_eq_true_iff, h.buffer, h.blksiz, Nat.add_right_cancel_iff, eq_comm, hdiv]
  rw [Nat.add_sub_cancel] at hstart ⊢
  omega

theorem At.number_le (h : At n b k r) : k ≤ n / b + 1 := by
  have hle : k - 1 ≤ n / b := (Nat.le_div_iff_mul_le h.blksiz_pos).mpr h.start_le
  omega

/-- The stream of a binary reader that has not failed delivers the next block. -/
theorem buffer_next (hF : F.length < 2 ^ 64) (hlength : r.length.toNat = F.length)
    (hblksiz : r.blksiz.toNat = b) (hnumber : r.number.toNat = k) (hk : k * b ≤ F.length)
    (hstream : r.stream = ⟨F, true, false⟩) :
    r.next.buffer = block F b (k + 1) ∧ r.next.stream = ⟨F, true, false⟩ := by
  have hoffset := toNat_nextOffset hblksiz hnumber hF hk
  have hsize := toNat_nextLength hlength hblksiz hoffset hk
  have hread := Ifstream.read_binary F
    (show k * b + min b (F.length - k * b) ≤ F.length by omega)
  have hblock : (F.drop (k * b)).take (min b (F.length - k * b)) = block F b (k + 1) := by
    rw [block, Nat.add_sub_cancel, List.take_eq_take_iff, List.length_drop]
    omega
  rw [TftpReader.next]
  split
  · simp only [hoffset, hsize, hstream, hread]
    have hlen : ((F.drop (k * b)).take (min b (F.length - k * b))).length =
        min b (F.length - k * b) := by
      rw [List.length_take, List.length_drop]
      omega
    rw [hlen, Nat.sub_self, List.replicate_zero, List.append_nil, hblock]
    exact ⟨rfl, trivial⟩
  · rename_i h
    rw [← hblock, ← hsize, toNat_eq_zero_of_not_pos h]
    exact ⟨rfl, hstream⟩

theorem exact_next_of (hn : F.length < 2 ^ 63) (hlength : r.length.toNat = F.length)
    (hblksiz : r.blksiz.toNat = b) (hnumber : r.number.toNat = k) (hk : k * b ≤ F.length)
    (hkn : k < F.length + 1) (hstream : r.stream = ⟨F, true, false⟩) : Exact F r.next := by
  obtain ⟨hbuffer, hstream'⟩ := buffer_next (by omega) hlength hblksiz hnumber hk hstream
  have hnum := toNat_number_succ hnumber (by omega)
  exact ⟨hstream', by rw [blksiz_next, number_next, hblksiz, hnum, hbuffer]⟩

theorem Exact.next (h : Exact F r) (hat : At F.length b k r) (hlast : r.last = false) :
    Exact F r.next := by
  have hend := hat.end_le hlast
  have hkn : k ≤ F.length := (Nat.le_mul_of_pos_right k hat.blksiz_pos).trans hend
  exact exact_next_of hat.size_lt hat.length hat.blksiz hat.number hend (by omega) h.stream

/-! ### The constructor -/

variable {sys : System} {path : Path} {file : File} {readable : Bool}

/-- The size of a file that does not change, or zero for it. -/
theorem lengthOf_of_finds (hfile : sys.Finds path (.regular file readable)) :
    lengthOf sys path (.ofNat file.content.length) = .ok (.ofNat file.content.length) := by
  rw [lengthOf, hfile.fileSize, ite_id]

/-- Lengths of readers are less than `2 ^ 63`. -/
theorem lt_of_lengthOf {length n : UInt64} (hlt : length.toNat < 2 ^ 63)
    (h : lengthOf sys path length = .ok n) : n.toNat < 2 ^ 63 := by
  rw [lengthOf] at h
  split_ifs at h
  · rwa [← Except.ok.inj h]
  · exact Filesystem.lt_of_fileSize h

/-- The constructor, when the length is known. -/
theorem exec_make_of_length {length n : UInt64} (hlength : lengthOf sys path length = .ok n)
    (blksiz : UInt64) (isBinary : Bool) (s : IoState) :
    exec (make sys path length blksiz isBinary) s =
      if sys.canAllocate blksiz then
        (.ok (initial (Ifstream.ofPath (sys.filesystem .stream) path isBinary) n blksiz).next,
          s.push (.opened path))
      else (.error .badAlloc, s.push (.opened path)) := by
  rw [make, exec_bind_ok (exec_modify ..), hlength, exec_bind_ok (exec_liftExcept ..)]
  by_cases h : sys.canAllocate blksiz <;> simp [h]

theorem exec_make_of_error {length : UInt64} {e : Exception}
    (hlength : lengthOf sys path length = .error e) (blksiz : UInt64) (isBinary : Bool)
    (s : IoState) :
    exec (make sys path length blksiz isBinary) s = (.error e, s.push (.opened path)) := by
  rw [make, exec_bind_ok (exec_modify ..), hlength, exec_bind_error (exec_liftExcept ..)]

/-- The constructor on a regular file. -/
theorem exec_make (hfile : sys.Finds path (.regular file readable)) (blksiz : UInt64)
    (isBinary : Bool) (s : IoState) :
    exec (make sys path (.ofNat file.content.length) blksiz isBinary) s =
      if sys.canAllocate blksiz then
        (.ok (initial (Ifstream.ofPath (sys.filesystem .stream) path isBinary)
          (.ofNat file.content.length) blksiz).next, s.push (.opened path))
      else (.error .badAlloc, s.push (.opened path)) :=
  exec_make_of_length (lengthOf_of_finds hfile) blksiz isBinary s

/-- The constructor ends at block 1. -/
theorem at_initial (file : File) {blksiz : UInt64} (hb : 0 < blksiz.toNat) (stream : Ifstream) :
    At file.content.length blksiz.toNat 1
      (initial stream (.ofNat file.content.length) blksiz).next := by
  have hlt := file.size_lt
  refine at_next_of (k := 0) hb hlt ?_ rfl rfl (by omega)
  exact Nat.mod_eq_of_lt (hlt.trans (by decide))

theorem exact_initial (hfile : sys.Finds path (.regular file true)) (blksiz : UInt64) :
    Exact file.content
      (initial (Ifstream.ofPath (sys.filesystem .stream) path true) (.ofNat file.content.length)
        blksiz).next := by
  have hlt := file.size_lt
  refine exact_next_of (k := 0) hlt ?_ rfl rfl (by omega) (by omega)
    (by simp [Ifstream.ofPath, hfile, initial])
  exact Nat.mod_eq_of_lt (hlt.trans (by decide))

end TftpReader

end Bootpd
