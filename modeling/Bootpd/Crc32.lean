import Bootpd.Lib.Crc
import Bootpd.Std

/-!
# `common/utility_crc32.cpp`: the checksum

The source takes in one byte at a time, with a table of 256 words entered by hand. The polynomial
`0x04C11DB7` is in it only as the word at index 1; `crcBitwise` is the definition the table stands
for.

`Lib.Crc` has the mathematics: remainders by a polynomial bit by bit, that they are linear, and that
a table of the remainders of all bytes does the same eight bits at a time. What is left for the
source is that its 256 words are these remainders, which is checked word by word, and that its
32-bit operations are those of `BitVec`.

The source neither inverts the checksum nor reflects it; the value to start from is an argument. So
a buffer can be taken in by pieces, with the checksum of one as the start of the next.

## Main definitions

* `Crc32.tab`, `Crc32.pass`, `crc32` — the table, one byte, and a buffer
* `Crc32.crcBitwise` — the same by the polynomial

## Main results

* `Crc32.tab_eq_shifts` — every word of the table is the remainder of its index
* `crc32_eq_crcBitwise_and_append` — the checksum is the polynomial one, and can be continued
-/

namespace Bootpd

namespace Crc32

set_option maxRecDepth 2000 in
/-- The table. -/
def tab : Vector UInt32 256 := #v[
  0x00000000, 0x04c11db7, 0x09823b6e, 0x0d4326d9, 0x130476dc, 0x17c56b6b, 0x1a864db2, 0x1e475005,
  0x2608edb8, 0x22c9f00f, 0x2f8ad6d6, 0x2b4bcb61, 0x350c9b64, 0x31cd86d3, 0x3c8ea00a, 0x384fbdbd,
  0x4c11db70, 0x48d0c6c7, 0x4593e01e, 0x4152fda9, 0x5f15adac, 0x5bd4b01b, 0x569796c2, 0x52568b75,
  0x6a1936c8, 0x6ed82b7f, 0x639b0da6, 0x675a1011, 0x791d4014, 0x7ddc5da3, 0x709f7b7a, 0x745e66cd,
  0x9823b6e0, 0x9ce2ab57, 0x91a18d8e, 0x95609039, 0x8b27c03c, 0x8fe6dd8b, 0x82a5fb52, 0x8664e6e5,
  0xbe2b5b58, 0xbaea46ef, 0xb7a96036, 0xb3687d81, 0xad2f2d84, 0xa9ee3033, 0xa4ad16ea, 0xa06c0b5d,
  0xd4326d90, 0xd0f37027, 0xddb056fe, 0xd9714b49, 0xc7361b4c, 0xc3f706fb, 0xceb42022, 0xca753d95,
  0xf23a8028, 0xf6fb9d9f, 0xfbb8bb46, 0xff79a6f1, 0xe13ef6f4, 0xe5ffeb43, 0xe8bccd9a, 0xec7dd02d,
  0x34867077, 0x30476dc0, 0x3d044b19, 0x39c556ae, 0x278206ab, 0x23431b1c, 0x2e003dc5, 0x2ac12072,
  0x128e9dcf, 0x164f8078, 0x1b0ca6a1, 0x1fcdbb16, 0x018aeb13, 0x054bf6a4, 0x0808d07d, 0x0cc9cdca,
  0x7897ab07, 0x7c56b6b0, 0x71159069, 0x75d48dde, 0x6b93dddb, 0x6f52c06c, 0x6211e6b5, 0x66d0fb02,
  0x5e9f46bf, 0x5a5e5b08, 0x571d7dd1, 0x53dc6066, 0x4d9b3063, 0x495a2dd4, 0x44190b0d, 0x40d816ba,
  0xaca5c697, 0xa864db20, 0xa527fdf9, 0xa1e6e04e, 0xbfa1b04b, 0xbb60adfc, 0xb6238b25, 0xb2e29692,
  0x8aad2b2f, 0x8e6c3698, 0x832f1041, 0x87ee0df6, 0x99a95df3, 0x9d684044, 0x902b669d, 0x94ea7b2a,
  0xe0b41de7, 0xe4750050, 0xe9362689, 0xedf73b3e, 0xf3b06b3b, 0xf771768c, 0xfa325055, 0xfef34de2,
  0xc6bcf05f, 0xc27dede8, 0xcf3ecb31, 0xcbffd686, 0xd5b88683, 0xd1799b34, 0xdc3abded, 0xd8fba05a,
  0x690ce0ee, 0x6dcdfd59, 0x608edb80, 0x644fc637, 0x7a089632, 0x7ec98b85, 0x738aad5c, 0x774bb0eb,
  0x4f040d56, 0x4bc510e1, 0x46863638, 0x42472b8f, 0x5c007b8a, 0x58c1663d, 0x558240e4, 0x51435d53,
  0x251d3b9e, 0x21dc2629, 0x2c9f00f0, 0x285e1d47, 0x36194d42, 0x32d850f5, 0x3f9b762c, 0x3b5a6b9b,
  0x0315d626, 0x07d4cb91, 0x0a97ed48, 0x0e56f0ff, 0x1011a0fa, 0x14d0bd4d, 0x19939b94, 0x1d528623,
  0xf12f560e, 0xf5ee4bb9, 0xf8ad6d60, 0xfc6c70d7, 0xe22b20d2, 0xe6ea3d65, 0xeba91bbc, 0xef68060b,
  0xd727bbb6, 0xd3e6a601, 0xdea580d8, 0xda649d6f, 0xc423cd6a, 0xc0e2d0dd, 0xcda1f604, 0xc960ebb3,
  0xbd3e8d7e, 0xb9ff90c9, 0xb4bcb610, 0xb07daba7, 0xae3afba2, 0xaafbe615, 0xa7b8c0cc, 0xa379dd7b,
  0x9b3660c6, 0x9ff77d71, 0x92b45ba8, 0x9675461f, 0x8832161a, 0x8cf30bad, 0x81b02d74, 0x857130c3,
  0x5d8a9099, 0x594b8d2e, 0x5408abf7, 0x50c9b640, 0x4e8ee645, 0x4a4ffbf2, 0x470cdd2b, 0x43cdc09c,
  0x7b827d21, 0x7f436096, 0x7200464f, 0x76c15bf8, 0x68860bfd, 0x6c47164a, 0x61043093, 0x65c52d24,
  0x119b4be9, 0x155a565e, 0x18197087, 0x1cd86d30, 0x029f3d35, 0x065e2082, 0x0b1d065b, 0x0fdc1bec,
  0x3793a651, 0x3352bbe6, 0x3e119d3f, 0x3ad08088, 0x2497d08d, 0x2056cd3a, 0x2d15ebe3, 0x29d4f654,
  0xc5a92679, 0xc1683bce, 0xcc2b1d17, 0xc8ea00a0, 0xd6ad50a5, 0xd26c4d12, 0xdf2f6bcb, 0xdbee767c,
  0xe3a1cbc1, 0xe760d676, 0xea23f0af, 0xeee2ed18, 0xf0a5bd1d, 0xf464a0aa, 0xf9278673, 0xfde69bc4,
  0x89b8fd09, 0x8d79e0be, 0x803ac667, 0x84fbdbd0, 0x9abc8bd5, 0x9e7d9662, 0x933eb0bb, 0x97ffad0c,
  0xafb010b1, 0xab710d06, 0xa6322bdf, 0xa2f33668, 0xbcb4666d, 0xb8757bda, 0xb5365d03, 0xb1f740b4]

/-! ### The function -/

/-- `((crc >> 24u) ^ value) & 0xffu`. -/
def index (crc : UInt32) (value : UInt8) : UInt32 := ((crc >>> 24) ^^^ value.toUInt32) &&& 0xff

/-- The index does not leave the table. -/
theorem index_lt (crc : UInt32) (value : UInt8) : (index crc value).toNat < 256 := by
  rw [index, UInt32.toNat_and]
  exact Nat.lt_succ_of_le Nat.and_le_right

/-- One pass of the loop. -/
def pass (crc : UInt32) (value : UInt8) : UInt32 :=
  (crc <<< 8) ^^^ tab.get ⟨(index crc value).toNat, index_lt crc value⟩

/-- `crc32`. -/
def crc32 (buffer : List UInt8) (crc : UInt32 := 0) : UInt32 := buffer.foldl pass crc

/-! ### The definition bit by bit -/

/-- The generator polynomial, without its leading term. -/
def polynomial : UInt32 := 0x04C11DB7

/-- Shift left, and subtract the polynomial if the bit shifted out was set. -/
def shiftBit (crc : UInt32) : UInt32 :=
  if crc &&& 0x80000000 ≠ 0 then (crc <<< 1) ^^^ polynomial else crc <<< 1

/-- One byte: into the top eight bits, then eight shifts. -/
def passBitwise (crc : UInt32) (value : UInt8) : UInt32 :=
  shiftBit^[8] (crc ^^^ (value.toUInt32 <<< 24))

/-- The checksum bit by bit. -/
def crcBitwise (buffer : List UInt8) (crc : UInt32) : UInt32 := buffer.foldl passBitwise crc

/-! ### Both as a cyclic redundancy check -/

/-- The table, indexed by bytes. -/
def table (a : BitVec 8) : BitVec 32 := (tab.get a.toFin).toBitVec

theorem getElem?_toList_eq_get {α : Type} {n : ℕ} (v : Vector α n) (i : Fin n) :
    v.toList[i.val]? = some (v.get i) := by
  rw [Vector.getElem?_toList, Vector.getElem?_eq_getElem i.isLt]
  rfl

/-- **The table is right**: every word is the remainder of its index. -/
theorem tab_eq_shifts (a : BitVec 8) :
    table a = Crc.shifts polynomial.toBitVec 8 (Crc.place 32 a) := by
  -- compared as lists, so that the evaluation walks through the table once
  have hlists : tab.toList.map UInt32.toBitVec = (List.range 256).map fun i =>
      Crc.shifts polynomial.toBitVec 8 (Crc.place 32 (BitVec.ofNat 8 i)) := by
    decide +kernel
  have hentry : tab.toList[a.toNat]? = some (tab.get a.toFin) := getElem?_toList_eq_get tab a.toFin
  have hget := congrArg (fun l => l[a.toNat]?) hlists
  rw [List.getElem?_map, List.getElem?_map, List.getElem?_range a.isLt, hentry, Option.map_some,
    Option.map_some, BitVec.ofNat_toNat, BitVec.setWidth_eq] at hget
  exact Option.some.inj hget

theorem toBitVec_shiftBit (crc : UInt32) :
    (shiftBit crc).toBitVec = Crc.shift polynomial.toBitVec crc.toBitVec := by
  have hmask : (0x80000000 : UInt32).toBitVec = BitVec.twoPow 32 31 := by decide
  have hbit : crc &&& 0x80000000 ≠ 0 ↔ crc.toBitVec.msb = true := by
    rw [Ne, ← UInt32.toBitVec_inj, UInt32.toBitVec_and, hmask, BitVec.and_twoPow,
      BitVec.msb_eq_getLsbD_last]
    cases crc.toBitVec.getLsbD 31 <;> simp
  by_cases h : crc &&& 0x80000000 ≠ 0
  · rw [shiftBit, if_pos h, Crc.shift, if_pos (hbit.mp h)]
    rfl
  · rw [shiftBit, if_neg h, Crc.shift, if_neg fun hmsb => h (hbit.mpr hmsb)]
    rfl

theorem toBitVec_passBitwise (crc : UInt32) (value : UInt8) :
    (passBitwise crc value).toBitVec =
      Crc.absorb polynomial.toBitVec crc.toBitVec value.toBitVec := by
  have hshift : Function.Semiconj UInt32.toBitVec shiftBit (Crc.shift polynomial.toBitVec) :=
    toBitVec_shiftBit
  have hplace : (value.toUInt32 <<< 24).toBitVec = Crc.place 32 value.toBitVec := rfl
  rw [passBitwise, hshift.iterate_right 8, UInt32.toBitVec_xor, hplace]
  rfl

/-- The index is the top byte, with the byte of the buffer added. -/
theorem toNat_index (crc : UInt32) (value : UInt8) :
    (index crc value).toNat = (Crc.top 8 crc.toBitVec ^^^ value.toBitVec).toNat := by
  have hmask : (0xff : UInt32).toNat = 2 ^ 8 - 1 := by decide
  rw [index, UInt32.toNat_and, hmask, Nat.and_two_pow_sub_one_eq_mod, UInt32.toNat_xor,
    Nat.xor_mod_two_pow, UInt32.toNat_shiftRight, BitVec.toNat_xor]
  congr 1
  exact Nat.mod_eq_of_lt value.toNat_lt

theorem toBitVec_pass (crc : UInt32) (value : UInt8) :
    (pass crc value).toBitVec = Crc.tableStep table crc.toBitVec value.toBitVec := by
  have hindex : (⟨(index crc value).toNat, index_lt crc value⟩ : Fin 256) =
      (Crc.top 8 crc.toBitVec ^^^ value.toBitVec).toFin := Fin.ext (toNat_index crc value)
  rw [pass, UInt32.toBitVec_xor, hindex]
  rfl

/-- A loop over the bytes of a buffer, as a loop over bit vectors. -/
theorem toBitVec_foldl {f : UInt32 → UInt8 → UInt32} {g : BitVec 32 → BitVec 8 → BitVec 32}
    (h : ∀ crc value, (f crc value).toBitVec = g crc.toBitVec value.toBitVec)
    (buffer : List UInt8) (crc : UInt32) :
    (buffer.foldl f crc).toBitVec = (buffer.map UInt8.toBitVec).foldl g crc.toBitVec := by
  rw [List.foldl_map]
  exact (List.foldl_hom _ fun crc value => (h crc value).symm).symm

/-- **The table-driven checksum** is the polynomial one. -/
theorem crc32_eq_crcBitwise (buffer : List UInt8) (crc : UInt32) :
    crc32 buffer crc = crcBitwise buffer crc := by
  rw [← UInt32.toBitVec_inj, crc32, crcBitwise, toBitVec_foldl toBitVec_pass,
    toBitVec_foldl toBitVec_passBitwise]
  exact Crc.tableRemainder_eq_remainder (by decide) tab_eq_shifts _ _

/-- **The checksum is the polynomial one, and can be continued** from buffer to buffer. -/
theorem crc32_eq_crcBitwise_and_append (buffer : List UInt8) (crc : UInt32) :
    crc32 buffer crc = crcBitwise buffer crc ∧
      ∀ rest : List UInt8, crc32 (buffer ++ rest) crc = crc32 rest (crc32 buffer crc) :=
  ⟨crc32_eq_crcBitwise buffer crc, fun _ => List.foldl_append⟩

/-- The usual check value of this polynomial, with all bits set at first. -/
example : crc32 (lit "123456789") 0xffffffff = 0x0376e6e7 := by decide +kernel

end Crc32

end Bootpd
