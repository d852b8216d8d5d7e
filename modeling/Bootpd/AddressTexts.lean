import Bootpd.ByteOrder
import Bootpd.DhcpConfiguration
import Bootpd.NumberTexts
import Bootpd.SocketUdp

/-!
# `address_v4`: texts and socket addresses

An address is read from `host` or `host:port`. The port goes through `std::stoul`, so it may have
blanks and a sign in front of it, and a negative one counts modulo `2 ^ 32`: behind the colon,
`-4294967295` is port 1. The host is up to the first colon and, for the system, up to a NUL.

## What the system does

`inet_pton` reads a dotted address, `inet_ntop` writes one, and the name service has an address for
a name or not. They are in `Platform`, and nothing is assumed about them where a text is taken
apart: `Denotes` is the grammar of the program around whatever they answer. Only that a printed
address is read as itself needs `inet_pton` to read what `inet_ntop` prints, with no colon and no
NUL in it.

## Byte order

`sockaddr_in` has its port and its address in network order, and the program swaps them in place
with the functions of `ByteOrder`. A `sockaddr_in` of another family is refused by an exception, so
that the one of an address is the only one that is read as it, but for its padding.

## Main definitions

* `Platform.Denotes` — the texts of an address, by their parts
* `Platform.ResolvesTo` — what a host stands for
* `SockaddrIn`, `AddressV4.toSockaddr` — the socket address

## Main results

* `Platform.parseAddressAndPort_eq_ok_iff` — the texts that are read, and as which address
* `AddressV4.parse_toString` — the text of an address is read as the address
* `AddressV4.parse_sockaddr_eq_ok_iff` — and so is its `sockaddr_in`, and no other
-/

namespace Bootpd

/-- What is read behind the colon. -/
inductive IsPort : StdString → UInt16 → Prop
  | absent : IsPort [] 0
  | numeral (t : Numeral 10) (port : UInt16) (hmagnitude : t.magnitude < 2 ^ 32)
      (hport : t.value % 2 ^ 32 = port.toNat) : IsPort t.text port

namespace Platform

variable (platform : Platform)

/-- `inet_pton` comes first, then the name service. -/
def ResolvesTo (name : StdString) (addr : UInt32) : Prop :=
  platform.inetPton name = some addr ∨
    platform.inetPton name = none ∧ platform.resolveSingle name = .ok addr

/-- The texts of an address, by their parts. -/
inductive Denotes : StdString → AddressV4 → Prop
  | host (host : StdString) (addr : UInt32) (hcolon : 58 ∉ host)
      (hhost : platform.ResolvesTo (host.takeWhile (· != 0)) addr) : Denotes host ⟨addr, 0⟩
  | hostPort (host tmp : StdString) (addr : UInt32) (port : UInt16) (hcolon : 58 ∉ host)
      (hhost : platform.ResolvesTo (host.takeWhile (· != 0)) addr) (hport : IsPort tmp port) :
      Denotes (host ++ 58 :: tmp) ⟨addr, port⟩

end Platform

/-! ### The port -/

/-- **What `std::stoul` reads to the end**: a numeral, as its number modulo `2 ^ 32`. -/
theorem stoul_eq_ok_iff {base : ℕ} (hbase : base ≤ 16) (s : StdString) (value : UInt32) :
    stoul base s = .ok (value, s.length) ↔ ∃ t : Numeral base, t.text = s ∧
      t.magnitude < 2 ^ 32 ∧ t.value % 2 ^ 32 = value.toNat := by
  have hconverts := IntegralType.converts_stoul base s
  generalize hscan : scan base s = scanned at hconverts
  generalize stoul base s = result at hconverts ⊢
  constructor
  · intro h
    cases hconverts with
    | noNumber what => cases h
    | tooLarge n what hn => cases h
    | returns n hn =>
      obtain ⟨rfl, hidx⟩ := Prod.mk.inj (Except.ok.inj h)
      obtain ⟨t, htext, hnegative, hmagnitude⟩ := Numeral.exists_of_scan hscan hidx
      refine ⟨t, htext, hmagnitude ▸ hn, ?_⟩
      rw [IntegralType.toNat_stoul_value hn, Numeral.value, hnegative, hmagnitude]
      rfl
  · rintro ⟨t, rfl, hmagnitude, hvalue⟩
    have hn := hscan.symm.trans (t.scan_text hbase)
    cases hconverts with
    | noNumber what => cases hn
    | tooLarge n what hlarge =>
      obtain rfl := Option.some.inj hn
      exact absurd hmagnitude hlarge
    | returns n hlarge =>
      obtain rfl := Option.some.inj hn
      refine congrArg (fun v => Except.ok (v, t.text.length)) (UInt32.toNat_inj.mp ?_)
      exact Int.ofNat.inj ((IntegralType.toNat_stoul_value hlarge).trans hvalue)

/-- A port below `2 ^ 16`, as the 32 bits it is in. -/
theorem exists_toUInt32 {port : UInt32} (h : ¬port > 65535) : ∃ p : UInt16, port = p.toUInt32 := by
  have hle : port.toNat ≤ 65535 := UInt32.le_iff_toNat_le.mp (UInt32.not_lt.mp h)
  refine ⟨port.toUInt16, UInt32.toNat_inj.mp ?_⟩
  rw [UInt16.toNat_toUInt32, UInt32.toNat_toUInt16]
  omega

theorem not_gt_toUInt32 (port : UInt16) : ¬port.toUInt32 > 65535 := by
  rw [gt_iff_lt, UInt32.not_lt, UInt32.le_iff_toNat_le, UInt16.toNat_toUInt32]
  exact Nat.le_of_lt_succ port.toNat_lt

theorem Numeral.text_ne_nil {base : ℕ} (t : Numeral base) : t.text ≠ [] := by
  simp [Numeral.text, t.digits_ne_nil]

/-- **The texts of a port.** -/
theorem Platform.parsePort_eq_ok_iff (tmp : StdString) (port : UInt32) :
    parsePort tmp = .ok port ↔ ∃ p : UInt16, IsPort tmp p ∧ port = p.toUInt32 := by
  rw [parsePort]
  constructor
  · intro h
    split_ifs at h with hempty
    · rw [List.isEmpty_iff.mp hempty]
      exact ⟨0, .absent, (Except.ok.inj h).symm⟩
    · obtain ⟨⟨value, idx⟩, hstoul, h⟩ := bind_eq_ok h
      replace h : (if idx ≠ tmp.length ∨ value > 65535 then Except.error _
        else Except.ok value) = Except.ok port := h
      split_ifs at h with hbad
      obtain rfl := Except.ok.inj h
      obtain ⟨rfl, hsmall⟩ := (not_or.mp hbad).imp_left not_ne_iff.mp
      obtain ⟨t, htext, hmagnitude, hvalue⟩ := (stoul_eq_ok_iff (by decide) tmp value).mp hstoul
      obtain ⟨p, rfl⟩ := exists_toUInt32 hsmall
      rw [UInt16.toNat_toUInt32] at hvalue
      exact ⟨p, htext ▸ .numeral t p hmagnitude hvalue, rfl⟩
  · rintro ⟨p, hp, rfl⟩
    cases hp with
    | absent => rfl
    | numeral t p hmagnitude hport =>
      have hstoul := (stoul_eq_ok_iff (by decide) t.text p.toUInt32).mpr
        ⟨t, rfl, hmagnitude, by rw [UInt16.toNat_toUInt32, hport]⟩
      rw [if_neg (by simp [t.text_ne_nil]), hstoul]
      exact if_neg (not_or.mpr ⟨not_not_intro rfl, not_gt_toUInt32 p⟩)

/-- Modulo `2 ^ 32`. -/
example : Platform.parsePort (lit "-4294967295") = .ok 1 := by decide +kernel

/-! ### The text -/

/-- At the first colon. -/
theorem span_colon {host : StdString} (h : 58 ∉ host) (tmp : StdString) :
    (host ++ 58 :: tmp).takeWhile (· != 58) = host ∧
      (host ++ 58 :: tmp).dropWhile (· != 58) = 58 :: tmp := by
  have hall : ∀ c ∈ host, (c != 58) = true := by
    intro c hc
    rw [bne_iff_ne]
    rintro rfl
    exact h hc
  rw [List.takeWhile_append_of_pos hall, List.dropWhile_append_of_pos hall]
  exact ⟨List.append_nil host, rfl⟩

theorem span_no_colon {host : StdString} (h : 58 ∉ host) :
    host.takeWhile (· != 58) = host ∧ host.dropWhile (· != 58) = [] := by
  have hall : ∀ c ∈ host, (c != 58) = true := by
    intro c hc
    rw [bne_iff_ne]
    rintro rfl
    exact h hc
  exact ⟨List.takeWhile_eq_self_iff.mpr hall, List.dropWhile_eq_nil_iff.mpr hall⟩

namespace Platform

variable (platform : Platform)

/-- The host alone. -/
def resolve (name : StdString) : Except Exception UInt32 :=
  match platform.inetPton name with
  | some address => .ok address
  | none => platform.resolveSingle name

theorem resolve_eq_ok_iff (name : StdString) (addr : UInt32) :
    platform.resolve name = .ok addr ↔ platform.ResolvesTo name addr := by
  rw [resolve, ResolvesTo]
  cases platform.inetPton name with
  | none => simp
  | some address => simp

/-- The port first, then the host. -/
theorem parseAddressAndPort_eq (what : StdString) : platform.parseAddressAndPort what =
    (match what.dropWhile (· != 58) with
      | [] => .ok 0
      | _ :: tmp => parsePort tmp : Except Exception UInt32) >>= fun port =>
    platform.resolve ((what.takeWhile (· != 58)).takeWhile (· != 0)) >>= fun address =>
    .ok (address, port.toUInt16) := by
  rw [parseAddressAndPort, resolve]
  dsimp only
  cases platform.inetPton ((what.takeWhile (· != 58)).takeWhile (· != 0)) <;>
    cases what.dropWhile (· != 58) <;> rfl

theorem parseAddressAndPort_host {host : StdString} (h : 58 ∉ host) :
    platform.parseAddressAndPort host =
      (fun address => (address, 0)) <$> platform.resolve (host.takeWhile (· != 0)) := by
  rw [parseAddressAndPort_eq, (span_no_colon h).1, (span_no_colon h).2]
  rfl

theorem parseAddressAndPort_hostPort {host : StdString} (h : 58 ∉ host) (tmp : StdString) :
    platform.parseAddressAndPort (host ++ 58 :: tmp) = parsePort tmp >>= fun port =>
      (fun address => (address, port.toUInt16)) <$> platform.resolve (host.takeWhile (· != 0)) := by
  rw [parseAddressAndPort_eq, (span_colon h tmp).1, (span_colon h tmp).2]
  rfl

/-- **The texts of an address**: which texts are read, and as which address. -/
theorem parseAddressAndPort_eq_ok_iff (what : StdString) (addr : UInt32) (port : UInt16) :
    platform.parseAddressAndPort what = .ok (addr, port) ↔
      platform.Denotes what ⟨addr, port⟩ := by
  constructor
  · intro h
    by_cases hcolon : (58 : UInt8) ∈ what
    · obtain ⟨host, tmp, rfl, hhost⟩ := List.eq_append_cons_of_mem hcolon
      rw [parseAddressAndPort_hostPort platform hhost] at h
      obtain ⟨port', hport, h⟩ := bind_eq_ok h
      obtain ⟨address, haddress, h⟩ := map_eq_ok h
      obtain ⟨rfl, rfl⟩ := Prod.mk.inj h
      obtain ⟨p, hp, rfl⟩ := (parsePort_eq_ok_iff tmp port').mp hport
      rw [UInt16.toUInt16_toUInt32]
      exact .hostPort host tmp address p hhost ((resolve_eq_ok_iff ..).mp haddress) hp
    · rw [parseAddressAndPort_host platform hcolon] at h
      obtain ⟨address, haddress, h⟩ := map_eq_ok h
      obtain ⟨rfl, rfl⟩ := Prod.mk.inj h
      exact .host what address hcolon ((resolve_eq_ok_iff ..).mp haddress)
  · intro h
    cases h with
    | host _ _ hcolon hhost =>
      rw [parseAddressAndPort_host platform hcolon, (resolve_eq_ok_iff ..).mpr hhost]
      rfl
    | hostPort host tmp _ _ hcolon hhost hport =>
      rw [parseAddressAndPort_hostPort platform hcolon, (resolve_eq_ok_iff ..).mpr hhost,
        (parsePort_eq_ok_iff tmp port.toUInt32).mpr ⟨port, hport, rfl⟩]
      exact congrArg (fun p => Except.ok (addr, p)) (UInt16.toUInt16_toUInt32 port)

end Platform

/-! ### From an address to a text and back -/

namespace AddressV4

variable (platform : Platform)

/-- `to_string`. It is `noexcept`: where `inet_ntop` fails, the process ends. -/
def toString (a : AddressV4) : Except Exception StdString := do
  let address ← platform.inetNtop a.addr
  return address ++ lit ":" ++ Bootpd.toString a.port.toNat

/-- The text of a port is a port. -/
theorem isPort_toString (port : UInt16) : IsPort (Bootpd.toString port.toNat) port := by
  obtain ⟨hne, hdigits⟩ := isDecimal_toString port.toNat
  have hdenoted := denoted_toString port.toNat
  have hlt := port.toNat_lt
  refine .numeral ⟨[], [], [], Bootpd.toString port.toNat, by simp, .inl rfl, .inl rfl, hne,
    hdigits⟩ port ?_ ?_
  · rw [Numeral.magnitude, hdenoted]
    omega
  · rw [Numeral.value, Numeral.magnitude, hdenoted]
    show (port.toNat : ℤ) % 2 ^ 32 = port.toNat
    omega

/-- **The text of an address is read as the address.** -/
theorem parse_toString {a : AddressV4} {name : StdString}
    (hntop : platform.inetNtop a.addr = .ok name) (hpton : platform.inetPton name = some a.addr)
    (hname : ∀ c ∈ name, c ≠ 58 ∧ c ≠ 0) :
    a.toString platform >>= platform.parseAddressAndPort = .ok (a.addr, a.port) := by
  rw [toString, hntop]
  show platform.parseAddressAndPort (name ++ lit ":" ++ Bootpd.toString a.port.toNat) = _
  rw [List.append_assoc, Platform.parseAddressAndPort_eq_ok_iff]
  refine .hostPort name _ a.addr a.port (fun hmem => (hname 58 hmem).1 rfl) (.inl ?_)
    (isPort_toString a.port)
  have hall : name.takeWhile (· != 0) = name :=
    List.takeWhile_eq_self_iff.mpr fun c hc => bne_iff_ne.mpr (hname c hc).2
  rw [hall, hpton]

/-- Any port, at the address of the wildcard. -/
theorem parse_toString_tftp :
    (AddressV4.mk 0 69).toString DhcpServerV4.samplePlatform >>=
      DhcpServerV4.samplePlatform.parseAddressAndPort = .ok (0, 69) :=
  parse_toString DhcpServerV4.samplePlatform
    (show DhcpServerV4.samplePlatform.inetNtop 0 = .ok (lit "0.0.0.0") by
      simp [DhcpServerV4.samplePlatform])
    (by simp [DhcpServerV4.samplePlatform]) (by simp [lit])

end AddressV4

/-! ### From an address to a `sockaddr_in` and back -/

/-- `sockaddr_in` without its padding, with the port and the address in network order. -/
structure SockaddrIn where
  sinFamily : UInt16
  sinPort : UInt16
  sinAddr : UInt32
deriving DecidableEq, Repr

namespace SockaddrIn

/-- `AF_INET`. -/
def afInet : UInt16 := 2

/-- `v4_parse_address_and_port` of a `sockaddr_in`, and `assign_from`. -/
def parseAddressAndPort (what : SockaddrIn) : Except Exception (UInt32 × UInt16) :=
  if what.sinFamily ≠ afInet then .error (.logicError (lit "address family mismatch."))
  else .ok (Scalar.netToHostInplace what.sinAddr, Scalar.netToHostInplace what.sinPort)

end SockaddrIn

namespace AddressV4

def netPort (a : AddressV4) : UInt16 := Scalar.hostToNetInplace a.port

def netAddr (a : AddressV4) : UInt32 := Scalar.hostToNetInplace a.addr

/-- `v4_init_sockaddr`, and `as<sockaddr_in>`. -/
def toSockaddr (a : AddressV4) : SockaddrIn := ⟨SockaddrIn.afInet, a.netPort, a.netAddr⟩

/-- **The socket address of an address** is read as the address, and no other is. -/
theorem parse_sockaddr_eq_ok_iff (s : SockaddrIn) (a : AddressV4) :
    s.parseAddressAndPort = .ok (a.addr, a.port) ↔ s = a.toSockaddr := by
  obtain ⟨family, port, addr⟩ := s
  have hport := Scalar.reverseBytesInplace_involutive Scalar.onto_uint16
  have haddr := Scalar.reverseBytesInplace_involutive Scalar.onto_uint32
  rw [SockaddrIn.parseAddressAndPort, toSockaddr, SockaddrIn.mk.injEq]
  split_ifs with hfamily
  · exact iff_of_false (fun h => nomatch h) fun h => hfamily h.1
  · rw [Except.ok.injEq, Prod.mk.injEq, and_iff_right (not_ne_iff.mp hfamily), and_comm]
    exact and_congr ⟨fun h => (hport.eq_iff.mp h).trans rfl, fun h => hport.eq_iff.mpr h⟩
      ⟨fun h => haddr.eq_iff.mp h, fun h => haddr.eq_iff.mpr h⟩

end AddressV4

end Bootpd
