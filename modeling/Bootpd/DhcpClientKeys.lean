import Bootpd.DhcpConfiguration

/-!
# The keys of the clients

`thread_outgoing` looks a client up under its hardware address, printed as hex bytes with dashes
between them and put into lower case. No byte is printed with a dash, so the dashes give the bytes
back; and this is so after every change of case that keeps the characters of a printed address
apart.

## How an address is got back

Splitting at the dashes is the inverse of joining with them, for parts that have none. Each part is
two hex digits, and a byte is determined by its digits. A change of case works character by
character, and for the sixteen digits and the dash it is checked that no two become one. So the
proof is the same for lower case, for upper case and for none, and for both one after the other.

Two requests have one key only if they have the same bytes and the same number of them. An address
of no bytes is refused by an exception and has no key.

## Main definitions

* `DhcpServerV4.KeepsApart` — no two characters of a printed address become one
* `uppercase`, `DhcpServerV4.hexDigit` — the other case, and a digit

## Main results

* `DhcpServerV4.dashedHex_injective` — a printed address, in any case, determines the address
* `DhcpServerV4.clientKey_injective` — requests with one key have one hardware address
-/

namespace Bootpd

/-- `std::toupper` in the "C" locale. -/
def toupper (c : UInt8) : UInt8 := if 97 ≤ c ∧ c ≤ 122 then c - 32 else c

def uppercase (value : StdString) : StdString := value.map toupper

namespace DhcpServerV4

/-! ### Printed addresses -/

/-- The hex digit of a number below 16. -/
def hexDigit (n : ℕ) : UInt8 := (lit "0123456789ABCDEF").getD n 0

/-- The characters of a printed address. -/
def addressChars : StdString := lit "0123456789ABCDEF-"

/-- No two characters of a printed address become one. -/
def KeepsApart (f : UInt8 → UInt8) : Prop :=
  ∀ c ∈ addressChars, ∀ d ∈ addressChars, f c = f d → c = d

theorem keepsApart_of_all {f : UInt8 → UInt8}
    (h : (addressChars.all fun c => addressChars.all fun d => f c != f d || c == d) = true) :
    KeepsApart f := by
  intro c hc d hd heq
  have hcd := List.all_eq_true.mp (List.all_eq_true.mp h c hc) d hd
  simpa [heq] using hcd

theorem keepsApart_tolower : KeepsApart tolower := keepsApart_of_all (by decide)

theorem keepsApart_toupper : KeepsApart toupper := keepsApart_of_all (by decide)

variable {f : UInt8 → UInt8} {x y : StdString} {byte byte' : UInt8}

theorem hexDigit_injective : ∀ m < 16, ∀ n < 16, hexDigit m = hexDigit n → m = n := by decide

theorem hexDigit_mem : ∀ n < 16, hexDigit n ∈ addressChars ∧ hexDigit n ≠ 45 := by decide

/-- A byte is printed as its two digits in base 16. -/
theorem toHex_eq (value : UInt8) :
    toHex value = [hexDigit (value.toNat / 16), hexDigit (value.toNat % 16)] := by
  have hlt := value.toNat_lt
  have hhigh : ((value >>> 4) &&& 0xf).toNat = value.toNat / 16 := by
    have hand : value.toNat / 16 &&& 15 = value.toNat / 16 % 16 :=
      Nat.and_two_pow_sub_one_eq_mod _ 4
    rw [UInt8.toNat_and, UInt8.toNat_shiftRight, Nat.shiftRight_eq_div_pow]
    change value.toNat / 16 &&& 15 = value.toNat / 16
    omega
  have hlow : (value &&& 0xf).toNat = value.toNat % 16 := by
    rw [UInt8.toNat_and]
    exact Nat.and_two_pow_sub_one_eq_mod _ 4
  rw [toHex, hhigh, hlow]
  rfl

theorem mem_toHex {c : UInt8} (h : c ∈ toHex byte) : c ∈ addressChars ∧ c ≠ 45 := by
  have hlt := byte.toNat_lt
  rw [toHex_eq, List.mem_cons, List.mem_singleton] at h
  rcases h with rfl | rfl
  · exact hexDigit_mem _ (by omega)
  · exact hexDigit_mem _ (by omega)

/-- A byte is determined by what is printed for it. -/
theorem map_toHex_injective (hf : KeepsApart f) : Function.Injective fun byte =>
    (toHex byte).map f := by
  intro byte byte' h
  have hlt := byte.toNat_lt
  have hlt' := byte'.toNat_lt
  have hdigit : ∀ m < 16, ∀ n < 16, f (hexDigit m) = f (hexDigit n) → m = n := fun m hm n hn h =>
    hexDigit_injective m hm n hn (hf _ (hexDigit_mem m hm).1 _ (hexDigit_mem n hn).1 h)
  simp only [toHex_eq, List.map_cons, List.map_nil, List.cons.injEq, and_true] at h
  have hhigh := hdigit _ (by omega) _ (by omega) h.1
  have hlow := hdigit _ (by omega) _ (by omega) h.2
  rw [← UInt8.toNat_inj]
  omega

/-- The printed address in another case: the printed bytes, and what is put between them. -/
theorem map_dashedHex (f : UInt8 → UInt8) (x : StdString) :
    (dashedHex x).map f = [f 45].intercalate (x.map fun byte => (toHex byte).map f) := by
  induction x with
  | nil => rfl
  | cons front rest ih =>
    cases rest with
    | nil => simp [dashedHex]
    | cons byte rest =>
      rw [dashedHex, List.map_cons, List.map_cons, List.intercalate_cons_cons, ← List.map_cons,
        ← dashedHex, List.map_append, List.map_append, ih]
      exact List.intercalate_cons_cons.symm

/-- **A printed address**, in any case that keeps its characters apart, is split at the dashes
into its bytes. -/
theorem splitOn_dashedHex (hf : KeepsApart f) (hx : x ≠ []) :
    ((dashedHex x).map f).splitOn (f 45) = x.map fun byte => (toHex byte).map f := by
  rw [map_dashedHex]
  refine List.splitOn_intercalate _ ?_ (by simpa using hx)
  intro printed hprinted hdash
  obtain ⟨byte, -, rfl⟩ := List.mem_map.mp hprinted
  obtain ⟨c, hc, heq⟩ := List.mem_map.mp hdash
  exact (mem_toHex hc).2 (hf c (mem_toHex hc).1 45 (by decide) heq)

/-- **It determines the address.** -/
theorem dashedHex_injective (hf : KeepsApart f) (hx : x ≠ []) (hy : y ≠ [])
    (h : (dashedHex x).map f = (dashedHex y).map f) : x = y := by
  refine List.map_injective_iff.mpr (map_toHex_injective hf) ?_
  rw [← splitOn_dashedHex hf hx, h, splitOn_dashedHex hf hy]

theorem length_dashedHex (hx : x ≠ []) : (dashedHex x).length = 3 * x.length - 1 := by
  have hrest : ∀ rest : StdString,
      (rest.flatMap fun byte => lit "-" ++ toHex byte).length = 3 * rest.length := by
    intro rest
    induction rest with
    | nil => rfl
    | cons byte rest ih =>
      rw [List.flatMap_cons, List.length_append, ih, toHex_eq, List.length_cons]
      change 3 + 3 * rest.length = 3 * (rest.length + 1)
      omega
  obtain ⟨front, rest, rfl⟩ := List.exists_cons_of_ne_nil hx
  rw [dashedHex_cons, List.length_append, hrest, toHex_eq, List.length_cons]
  change 2 + 3 * rest.length = 3 * (rest.length + 1) - 1
  omega

theorem mem_dashedHex {c : UInt8} (hc : c ∈ dashedHex x) : c ∈ addressChars := by
  cases x with
  | nil => cases hc
  | cons front rest =>
    rw [dashedHex_cons, List.mem_append, List.mem_flatMap] at hc
    rcases hc with hc | ⟨byte, -, hc⟩
    · exact (mem_toHex hc).1
    · rcases List.mem_append.mp hc with hc | hc
      · exact forall_mem_of_all (s := lit "-") (by decide) c hc
      · exact (mem_toHex hc).1

/-- Upper case gives a printed address back, -/
theorem uppercase_lowercase_dashedHex (x : StdString) :
    uppercase (lowercase (dashedHex x)) = dashedHex x := by
  have hchars : ∀ c ∈ addressChars, toupper (tolower c) = c := forall_mem_of_all (by decide)
  rw [uppercase, lowercase, List.map_map]
  exact (List.map_congr_left fun c hc => hchars c (mem_dashedHex hc)).trans (List.map_id _)

/-- and it is in upper case itself. -/
theorem uppercase_dashedHex (x : StdString) : uppercase (dashedHex x) = dashedHex x := by
  have hchars : ∀ c ∈ addressChars, toupper c = c := forall_mem_of_all (by decide)
  exact (List.map_congr_left fun c hc => hchars c (mem_dashedHex hc)).trans (List.map_id _)

theorem macAddressToString_of (hx : x ≠ []) : macAddressToString (.of x) = .ok (dashedHex x) := by
  obtain ⟨front, rest, rfl⟩ := List.exists_cons_of_ne_nil hx
  rw [dashedHex_cons]
  rfl

/-! ### The keys -/

/-- A request with a key has a hardware address of 1 to 16 bytes, printed in lower case. -/
theorem clientKey_cases {packet : DhcpPacketV4} {key : StdString} (h : clientKey packet = .ok key) :
    packet.hardwareAddress.read = .ok (addressBytes packet) ∧ addressBytes packet ≠ [] ∧
      key = lowercase (dashedHex (addressBytes packet)) := by
  by_cases hsize : packet.hardwareAddress.size < 1
  · rw [clientKey, macAddressToString, if_pos hsize] at h
    cases h
  · by_cases hlen : packet.hardwareAddressLength.toNat ≤ 16
    · have hpos : 1 ≤ packet.hardwareAddressLength.toNat := Nat.not_lt.mp hsize
      refine ⟨if_pos hlen, fun hnil => ?_, ?_⟩
      · have hlength : (addressBytes packet).length = packet.hardwareAddressLength.toNat := by
          rw [addressBytes, List.length_take, List.Vector.toList_length, min_eq_left hlen]
        rw [hnil, List.length_nil] at hlength
        omega
      · exact (Except.ok.inj (h.symm.trans (clientKey_eq_ok ⟨hpos, hlen⟩)))
    · have hread : packet.hardwareAddress.read = _ := if_neg hlen
      rw [clientKey, macAddressToString, if_neg hsize, hread] at h
      cases h

/-- **Different hardware addresses have different keys.** Of any two addresses of at least one
byte: the printed ones have three characters for each byte, less one, and they differ if the
addresses do, as they are and in lower case and in upper case. Upper case undoes lower case. And no
two requests with different hardware addresses have one key. -/
theorem clientKey_injective (hx : x ≠ []) (hy : y ≠ []) :
    ∃ s t, macAddressToString (.of x) = .ok s ∧ macAddressToString (.of y) = .ok t ∧
      s.length = 3 * x.length - 1 ∧ (lowercase s).length = 3 * x.length - 1 ∧
      (s = t → x = y) ∧ (lowercase s = lowercase t → x = y) ∧
      (uppercase s = uppercase t → x = y) ∧
      uppercase (lowercase s) = s ∧ lowercase (uppercase s) = lowercase s ∧
      ∀ request request' key, request.hardwareAddress.read = .ok x →
        request'.hardwareAddress.read = .ok y → clientKey request = .ok key →
        clientKey request' = .ok key → x = y := by
  refine ⟨dashedHex x, dashedHex y, macAddressToString_of hx, macAddressToString_of hy,
    length_dashedHex hx, ?_, ?_, dashedHex_injective keepsApart_tolower hx hy,
    dashedHex_injective keepsApart_toupper hx hy, uppercase_lowercase_dashedHex x, ?_, ?_⟩
  · rw [lowercase, List.length_map, length_dashedHex hx]
  · intro h
    exact dashedHex_injective keepsApart_tolower hx hy (congrArg lowercase h)
  · rw [uppercase_dashedHex]
  · intro request request' key hread hread' hkey hkey'
    obtain ⟨haddress, -, rfl⟩ := clientKey_cases hkey
    obtain ⟨haddress', -, hkeys⟩ := clientKey_cases hkey'
    obtain rfl := Except.ok.inj (haddress.symm.trans hread)
    obtain rfl := Except.ok.inj (haddress'.symm.trans hread')
    exact dashedHex_injective keepsApart_tolower hx hy hkeys

/-- An address and one that goes on behind it. -/
theorem clientKey_injective_longer :
    ∃ s t, macAddressToString (.of [0, 0x1b]) = .ok s ∧
      macAddressToString (.of [0, 0x1b, 0xfe]) = .ok t ∧ s.length = 5 ∧
      lowercase s ≠ lowercase t ∧ uppercase s ≠ uppercase t := by
  obtain ⟨s, t, hs, ht, hlength, -, -, hlower, hupper, -⟩ :=
    clientKey_injective (x := [0, 0x1b]) (y := [0, 0x1b, 0xfe]) (by decide) (by decide)
  exact ⟨s, t, hs, ht, hlength, fun h => absurd (hlower h) (by decide),
    fun h => absurd (hupper h) (by decide)⟩

end DhcpServerV4

end Bootpd
