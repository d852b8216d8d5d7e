import Bootpd.DhcpPacketV4
import Bootpd.TftpPacket

/-!
# `serdes_size_hint`: the size functions against the writers

`serialize_to_vector` asks a packet for its size and gives the writer 128 bytes more. Here the
spare bytes are shown to be spare: a buffer of exactly the size asked for is enough, for every
packet that can be written at all.

The size functions are sums that are written out beside the writers, with nothing that keeps the two
in step. What does is that both have been counted: `Emits` has the bytes of each writer, for the
TFTP packets and for the DHCP packet with its options.

## Main definitions

* `HintExact` — the writer needs exactly what its packet asks for

## Main results

* `HintExact.of_emits` — a writer whose bytes are counted
* `sizeHint_exact` — both packets count theirs
-/

namespace Bootpd

open Imperative

/-- The size hint of `t` is exact: wherever that many bytes are left its `serdes` succeeds and
takes all of them, and the vector it is serialised to has them and no others. -/
def HintExact {T : Type} [Serializable T] (t : T) : Prop :=
  ∃ size bytes, Serializable.serdesSizeHint t = .ok size ∧ bytes.length = size ∧
    (∀ s : SerdesWriter .network, size ≤ s.curr.length →
      exec (Serializable.serdes t) s = (.ok (), ⟨s.written ++ bytes, s.curr.drop size⟩)) ∧
    serializeToVector t = .ok bytes

theorem HintExact.of_emits {T : Type} [Serializable T] {t : T} {bytes : List UInt8}
    (hsize : Serializable.serdesSizeHint t = .ok bytes.length)
    (hbytes : SerdesWriter.Emits (Serializable.serdes t) bytes) : HintExact t :=
  ⟨_, bytes, hsize, rfl, hbytes, serializeToVector_eq hsize hbytes (Nat.le_add_right _ _)⟩

/-- **The size hints are exact**, that of every DHCP packet and that of every TFTP packet but the
empty one. -/
theorem sizeHint_exact :
    (∀ p : DhcpPacketV4, HintExact p) ∧
      ∀ packet : TftpPacket, packet ≠ .monostate → HintExact packet :=
  ⟨fun p => .of_emits (congrArg Except.ok p.length_bits.symm) p.emits_write,
    fun _ hne => .of_emits (TftpPacket.serdesSizeHint_eq hne) (TftpPacket.emits_write hne)⟩

/-- A packet of either protocol, the second with a NUL byte in its text. -/
theorem sizeHint_exact_error :
    HintExact DhcpPacketV4.default ∧ HintExact (TftpPacket.error ⟨0, [65, 0, 66]⟩) :=
  ⟨sizeHint_exact.1 _, sizeHint_exact.2 _ nofun⟩

end Bootpd
