import Mathlib.Data.BitVec
import Mathlib.Logic.Function.Iterate

/-!
# Cyclic redundancy checks, most significant bit first

The remainder register of a CRC has `w` bits, and a message is a list of symbols of `k` bits. The
definition shifts one bit at a time; an implementation with a table takes a whole symbol in one
step. Both are here for any polynomial and any widths, and they agree as soon as every entry of
the table is the remainder of its index.

## The argument

The argument is linear algebra over `GF(2)`: a shift is additive, so the register can be split into
its `k` top bits, which the table accounts for, and the rest, which only moves up. The rest has its
`k` top bits clear, and `k` shifts of such a register reduce nothing.

The widths are related by `k ≤ w` only, so that the table may be one for bytes, for half bytes or
for single bits. The value that the register starts from is arbitrary, and nothing is added to the
message or inverted at the end; a variant that does so does it around this.

## Main definitions

* `shift`, `shifts` — one bit, and several
* `absorb`, `remainder` — a symbol, and a message, by the definition
* `tableStep`, `tableRemainder` — the same through a table

## Main results

* `shifts_xor` — shifting is additive
* `tableStep_eq_absorb` — one step through the table is `k` shifts
* `tableRemainder_eq_remainder` — the table computes the remainder of every message
-/

namespace Crc

variable {w k : ℕ}

/-! ### One bit at a time -/

/-- Shift the register by one bit, and subtract the polynomial if the bit shifted out was set. -/
def shift (poly x : BitVec w) : BitVec w :=
  if x.msb then (x <<< 1) ^^^ poly else x <<< 1

/-- Shift the register by `n` bits. -/
def shifts (poly : BitVec w) (n : ℕ) : BitVec w → BitVec w := (shift poly)^[n]

/-- A symbol in the top bits of the register. -/
def place (w : ℕ) (a : BitVec k) : BitVec w := a.setWidth w <<< (w - k)

/-- Take in one symbol. -/
def absorb (poly : BitVec w) (x : BitVec w) (a : BitVec k) : BitVec w :=
  shifts poly k (x ^^^ place w a)

/-- The remainder after a message, from the register `x` on. -/
def remainder (poly : BitVec w) (x : BitVec w) (message : List (BitVec k)) : BitVec w :=
  message.foldl (absorb poly) x

/-- A shift is additive. -/
theorem shift_xor (poly x y : BitVec w) :
    shift poly (x ^^^ y) = shift poly x ^^^ shift poly y := by
  have hcancel : (x <<< 1 ^^^ poly) ^^^ (y <<< 1 ^^^ poly) = x <<< 1 ^^^ y <<< 1 := by
    rw [BitVec.xor_comm (y <<< 1), BitVec.xor_assoc, ← BitVec.xor_assoc poly,
      BitVec.xor_self, BitVec.zero_xor]
  simp only [shift, BitVec.msb_xor, BitVec.shiftLeft_xor_distrib]
  cases x.msb <;> cases y.msb
  · rfl
  · exact BitVec.xor_assoc ..
  · show (x <<< 1 ^^^ y <<< 1) ^^^ poly = (x <<< 1 ^^^ poly) ^^^ y <<< 1
    rw [BitVec.xor_assoc, BitVec.xor_assoc, BitVec.xor_comm poly]
  · exact hcancel.symm

theorem shifts_succ (poly : BitVec w) (n : ℕ) (x : BitVec w) :
    shifts poly (n + 1) x = shift poly (shifts poly n x) :=
  Function.iterate_succ_apply' _ n x

/-- **Shifting is additive.** -/
theorem shifts_xor (poly : BitVec w) (n : ℕ) (x y : BitVec w) :
    shifts poly n (x ^^^ y) = shifts poly n x ^^^ shifts poly n y := by
  induction n with
  | zero => rfl
  | succ n ih => rw [shifts_succ, shifts_succ, shifts_succ, ih, shift_xor]

/-- A register whose top `n` bits are clear only moves up. -/
theorem shifts_of_clear (poly : BitVec w) {n : ℕ} {x : BitVec w}
    (hx : ∀ i, w - n ≤ i → x.getLsbD i = false) : shifts poly n x = x <<< n := by
  induction n with
  | zero => exact (BitVec.shiftLeft_zero x).symm
  | succ n ih =>
    have htop : (x <<< n).msb = false := by
      rw [BitVec.msb_eq_getLsbD_last, BitVec.getLsbD_shiftLeft, hx _ (by omega), Bool.and_false]
    rw [shifts_succ, ih fun i hi => hx i (by omega), shift, htop, BitVec.shiftLeft_add]
    rfl

/-! ### One symbol at a time -/

/-- The top `k` bits of the register. -/
def top (k : ℕ) (x : BitVec w) : BitVec k := (x >>> (w - k)).setWidth k

/-- Take in one symbol through a table. -/
def tableStep (table : BitVec k → BitVec w) (x : BitVec w) (a : BitVec k) : BitVec w :=
  (x <<< k) ^^^ table (top k x ^^^ a)

/-- The table's way through a message. -/
def tableRemainder (table : BitVec k → BitVec w) (x : BitVec w) (message : List (BitVec k)) :
    BitVec w :=
  message.foldl (tableStep table) x

theorem place_xor (a b : BitVec k) : place w (a ^^^ b) = place w a ^^^ place w b := by
  rw [place, BitVec.setWidth_xor, BitVec.shiftLeft_xor_distrib]
  rfl

/-- The register is its top bits and the rest. -/
theorem xor_place_top_clear (hk : k ≤ w) (x : BitVec w) {i : ℕ} (hi : w - k ≤ i) :
    (x ^^^ place w (top k x)).getLsbD i = false := by
  rcases Nat.lt_or_ge i w with hw | hw
  · have hbit : (place w (top k x)).getLsbD i = x.getLsbD i := by
      simp only [place, top, BitVec.getLsbD_shiftLeft, BitVec.getLsbD_setWidth,
        BitVec.getLsbD_ushiftRight]
      rw [show w - k + (i - (w - k)) = i by omega]
      simp [hw, show ¬i < w - k by omega, show i - (w - k) < w by omega,
        show i - (w - k) < k by omega]
    rw [BitVec.getLsbD_xor, hbit, Bool.xor_self]
  · exact BitVec.getLsbD_of_ge _ _ hw

/-- The top bits are shifted out. -/
theorem place_shiftLeft (hk : k ≤ w) (a : BitVec k) : place w a <<< k = 0#w := by
  rw [place, ← BitVec.shiftLeft_add, Nat.sub_add_cancel hk]
  exact BitVec.shiftLeft_eq_zero le_rfl

/-- **One step through the table** is `k` shifts, where the entry for a symbol is the symbol's own
remainder. -/
theorem tableStep_eq_absorb {poly : BitVec w} {table : BitVec k → BitVec w} (hk : k ≤ w)
    (htable : ∀ a, table a = shifts poly k (place w a)) (x : BitVec w) (a : BitVec k) :
    tableStep table x a = absorb poly x a := by
  -- the register without its top bits
  let rest := x ^^^ place w (top k x)
  have hsplit : x = rest ^^^ place w (top k x) := by
    rw [BitVec.xor_assoc, BitVec.xor_self, BitVec.xor_zero]
  have hrest : shifts poly k rest = x <<< k := by
    rw [shifts_of_clear poly fun i hi => xor_place_top_clear hk x hi,
      BitVec.shiftLeft_xor_distrib, place_shiftLeft hk, BitVec.xor_zero]
  calc tableStep table x a
      = shifts poly k rest ^^^ shifts poly k (place w (top k x ^^^ a)) := by
        rw [tableStep, htable, hrest]
    _ = shifts poly k (rest ^^^ place w (top k x) ^^^ place w a) := by
        rw [← shifts_xor, place_xor, BitVec.xor_assoc rest]
    _ = absorb poly x a := by rw [← hsplit, absorb]

/-- **The table computes the remainder** of every message. -/
theorem tableRemainder_eq_remainder {poly : BitVec w} {table : BitVec k → BitVec w} (hk : k ≤ w)
    (htable : ∀ a, table a = shifts poly k (place w a)) (x : BitVec w)
    (message : List (BitVec k)) :
    tableRemainder table x message = remainder poly x message := by
  have hstep : tableStep table = absorb poly :=
    funext fun x => funext fun a => tableStep_eq_absorb hk htable x a
  rw [tableRemainder, hstep, remainder]

end Crc
