import Bootpd.SerdesGrammar

/-!
# `common/byte_order.hpp`: the byte swaps

`reverse_bytes_inplace` has a builtin for 2, 4 and 8 bytes and reverses anything else in memory.
`Scalar.encode` and `Scalar.decode` speak of the bytes only; here they are what the in-place swaps
leave.

## Objects and their bytes

The program runs on little-endian targets. `memory` is the bytes of an object there, and `ofMemory`
the object at some bytes, as the reader and the writer get at it by a cast of a pointer. A builtin
takes numbers to numbers, the general branch takes bytes to bytes, and the first result says that
they do the same. From there on a swap is the reversal of `memory`, and nothing else about it is
used: neither the order of the target nor the number of bytes.

`host_to_net_inplace` and `net_to_host_inplace` are one function under two names.

## Main definitions

* `Scalar.memory`, `Scalar.ofMemory` — an object and its bytes
* `Scalar.reverseBytesInplace` — with its four branches

## Main results

* `Scalar.memory_reverseBytesInplace` — every branch reverses the bytes of the object
* `Scalar.reverseBytesInplace_involutive` — a swap undoes a swap
* `Scalar.encode_network_eq`, `decode_network_eq` — the swaps of the writer and of the reader
-/

namespace Bootpd

open ByteDigits

namespace Scalar

variable {T : Type} [Scalar T]

/-- The bytes of an object on the little-endian target. -/
def memory (value : T) : List UInt8 := toBytes (size T) (toNat value)

/-- The object at some bytes: `*(const T*)bytes`. -/
def ofMemory (bytes : List UInt8) : T := ofNat (ofBytes bytes)

/-- `__builtin_bswap16`, `__builtin_bswap32` and `__builtin_bswap64`, for 2, 4 and 8 bytes: the
number with the order of its bytes reversed. -/
def bswap (w n : ℕ) : ℕ := ofBytes (toBytes w n).reverse

/-- `details::reverse_bytes_inplace`. -/
def reverseBytesInplace (value : T) : T :=
  if size T = 2 then ofNat (bswap 2 (toNat value))
  else if size T = 4 then ofNat (bswap 4 (toNat value))
  else if size T = 8 then ofNat (bswap 8 (toNat value))
  else ofMemory (memory value).reverse

/-- `host_to_net_inplace`. -/
def hostToNetInplace (value : T) : T := reverseBytesInplace value

/-- `net_to_host_inplace`. -/
def netToHostInplace (value : T) : T := reverseBytesInplace value

@[simp] theorem length_memory (value : T) : (memory value).length = size T := length_toBytes ..

@[simp] theorem ofMemory_memory (value : T) : ofMemory (memory value) = value := by
  rw [ofMemory, memory, ofBytes_toBytes, Nat.mod_eq_of_lt (toNat_lt value), ofNat_toNat]

theorem memory_ofMemory (hT : Onto T) {bytes : List UInt8} (h : bytes.length = size T) :
    memory (ofMemory bytes : T) = bytes := by
  rw [memory, ofMemory, hT _ (h ▸ ofBytes_lt bytes), ← h, toBytes_ofBytes]

/-- The builtins do what the loop over the bytes does. -/
theorem reverseBytesInplace_eq (value : T) :
    reverseBytesInplace value = ofMemory (memory value).reverse := by
  unfold reverseBytesInplace
  split_ifs with h2 h4 h8
  · rw [bswap, ← h2]
    rfl
  · rw [bswap, ← h4]
    rfl
  · rw [bswap, ← h8]
    rfl
  · rfl

/-- **The swap reverses the bytes** of the object, whichever branch is compiled. -/
theorem memory_reverseBytesInplace (hT : Onto T) (value : T) :
    memory (reverseBytesInplace value) = (memory value).reverse := by
  rw [reverseBytesInplace_eq, memory_ofMemory hT (by simp)]

/-- **A swap undoes a swap.** -/
theorem reverseBytesInplace_involutive (hT : Onto T) :
    Function.Involutive (reverseBytesInplace : T → T) := by
  intro value
  rw [reverseBytesInplace_eq, memory_reverseBytesInplace hT, List.reverse_reverse,
    ofMemory_memory]

/-- What the writer puts in memory in network order. -/
theorem encode_network_eq (hT : Onto T) (value : T) :
    encode .network value = memory (hostToNetInplace value) :=
  (memory_reverseBytesInplace hT value).symm

/-- What the reader takes from memory in network order. -/
theorem decode_network_eq (hT : Onto T) {bytes : List UInt8} (h : bytes.length = size T) :
    decode .network bytes = netToHostInplace (ofMemory bytes : T) := by
  rw [netToHostInplace, reverseBytesInplace_eq, memory_ofMemory hT h]
  rfl

end Scalar

end Bootpd
