import Mathlib.Tactic.Ring

/-!
# Numbers as a fixed number of bytes

The memory image of an unsigned integer of `w` bytes on a little-endian machine, and back. Both
directions are total: `toBytes` drops what does not fit.

A number is the value of its bytes as digits in base 256, least significant first, and the other
order is the reversal of this one. `bigEndian` has it from the formula, byte `i` from the top, so
that the reversal can be compared with what a network order is usually defined to be. The two
inverse laws are stated with their bounds as hypotheses, where they need one, and not as a bijection
of subtypes.

## Main definitions

* `toBytes`, `ofBytes` — a number as bytes, and back
* `bigEndian` — its digits from the most significant one on

## Main results

* `ofBytes_toBytes` — writing and reading gives the number back, modulo `256 ^ w`
* `toBytes_ofBytes` — reading and writing gives the bytes back
* `reverse_toBytes` — reversed, the bytes are the digits from the most significant one on
-/

namespace ByteDigits

/-- The `w` low base-256 digits of `n`, least significant first. -/
def toBytes : ℕ → ℕ → List UInt8
  | 0, _ => []
  | w + 1, n => UInt8.ofNat n :: toBytes w (n / 256)

/-- The number whose base-256 digits are `bs`, least significant first. -/
def ofBytes : List UInt8 → ℕ
  | [] => 0
  | b :: bs => b.toNat + 256 * ofBytes bs

@[simp] theorem length_toBytes (w n : ℕ) : (toBytes w n).length = w := by
  induction w generalizing n with
  | zero => rfl
  | succ w ih => simp [toBytes, ih]

theorem ofBytes_toBytes (w n : ℕ) : ofBytes (toBytes w n) = n % 256 ^ w := by
  induction w generalizing n with
  | zero => simp [toBytes, ofBytes, Nat.mod_one]
  | succ w ih =>
    rw [toBytes, ofBytes, ih, UInt8.toNat_ofNat', show 256 ^ (w + 1) = 256 * 256 ^ w by ring,
      Nat.mod_mul]

theorem ofBytes_lt (bs : List UInt8) : ofBytes bs < 256 ^ bs.length := by
  induction bs with
  | nil => simp [ofBytes]
  | cons b bs ih =>
    have hb := b.toNat_lt
    rw [ofBytes, List.length_cons, show 256 ^ (bs.length + 1) = 256 * 256 ^ bs.length by ring]
    omega

theorem toBytes_ofBytes (bs : List UInt8) : toBytes bs.length (ofBytes bs) = bs := by
  induction bs with
  | nil => rfl
  | cons b bs ih =>
    have hb := b.toNat_lt
    have hlow : UInt8.ofNat (b.toNat + 256 * ofBytes bs) = b := by
      rw [← UInt8.toNat_inj, UInt8.toNat_ofNat']
      omega
    have hhigh : (b.toNat + 256 * ofBytes bs) / 256 = ofBytes bs := by omega
    rw [List.length_cons, toBytes, ofBytes, hlow, hhigh, ih]

/-- The `w` low base-256 digits of `n`, most significant first. -/
def bigEndian (w n : ℕ) : List UInt8 :=
  (List.range w).map fun j => UInt8.ofNat (n / 256 ^ (w - 1 - j))

theorem bigEndian_succ (w n : ℕ) :
    bigEndian (w + 1) n = bigEndian w (n / 256) ++ [UInt8.ofNat n] := by
  rw [bigEndian, List.range_succ, List.map_append, bigEndian]
  congr 1
  · refine List.map_congr_left fun j hj => ?_
    have hpow : 256 ^ (w + 1 - 1 - j) = 256 * 256 ^ (w - 1 - j) := by
      rw [← Nat.pow_succ']
      congr 1
      have := List.mem_range.mp hj
      omega
    rw [hpow, Nat.div_div_eq_div_mul]
  · simp

theorem reverse_toBytes (w n : ℕ) : (toBytes w n).reverse = bigEndian w n := by
  induction w generalizing n with
  | zero => rfl
  | succ w ih => rw [toBytes, List.reverse_cons, ih, bigEndian_succ]

end ByteDigits
