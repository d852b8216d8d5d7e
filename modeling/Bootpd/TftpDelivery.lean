import Bootpd.TftpNetwork

/-!
# Delivery

A receiver that accepts the blocks of a file one after the other, behind a network that loses,
delays and repeats datagrams. What it has is always the beginning of the file, up to the block the
session is at or the one before; and it has the whole file when the session leaves its data loop
without an exception.

## The receiver

It knows how many blocks it has. A DATA packet with the number of the next one is accepted,
appended and acknowledged; one with the number of the last is acknowledged again; any other is
ignored. An OACK is acknowledged as long as there is no block. Numbers are compared as they are on
the wire, modulo 65536. That the receiver never takes an old block for a new one is due to the
window: what is on its way to it is the block it has, or the next.

## Scope

The file is read in octet mode with blocks of at least one byte, and does not change. The sockets
may fail at any call: a session that ends by an exception promises no more than the beginning of
the file. That a transfer also gets to its end is in `TftpRecovery`.

## Main definitions

* `Receiver`, `receiver` — what a receiver has, and the client that it is
* `firstBlocks` — the first blocks of a file, in one piece

## Main results

* `Receiver.inStep_of` — the receiver accepts each block once
* `TftpSessionV4.delivery` — what the receiver has, over every run
-/

namespace Bootpd

open StopAndWait

/-- The first `k` blocks of a file in blocks of `b` bytes. -/
def firstBlocks (F : List UInt8) (b k : ℕ) : List UInt8 :=
  (List.range' 1 k).flatMap (TftpReader.block F b)

theorem firstBlocks_succ (F : List UInt8) (b k : ℕ) :
    firstBlocks F b (k + 1) = firstBlocks F b k ++ TftpReader.block F b (k + 1) := by
  rw [firstBlocks, List.range'_1_concat, List.flatMap_append, List.flatMap_singleton, firstBlocks,
    Nat.add_comm 1 k]

theorem firstBlocks_eq_take (F : List UInt8) (b k : ℕ) : firstBlocks F b k = F.take (k * b) := by
  induction k with
  | zero => simp [firstBlocks]
  | succ k ih =>
    rw [firstBlocks_succ, ih, TftpReader.block, Nat.add_sub_cancel, Nat.succ_mul, List.take_add]

/-! ### The receiver -/

/-- The blocks accepted so far, and their bytes. -/
structure Receiver where
  accepted : ℕ
  bytes : List UInt8

/-- A lock-step receiver: it accepts the next block, answers the one it has accepted last again,
and answers an OACK while it has none. -/
def Receiver.receive (r : Receiver) (bits : List UInt8) : Receiver × Option (List UInt8) :=
  match TftpPacket.ofBits bits with
  | .ok (.data payload) =>
    if payload.blockId = UInt16.ofNat (r.accepted + 1) then
      (⟨r.accepted + 1, r.bytes ++ payload.data⟩,
        some (TftpPacket.ackBits (UInt16.ofNat (r.accepted + 1))))
    else if payload.blockId = UInt16.ofNat r.accepted then
      (r, some (TftpPacket.ackBits (UInt16.ofNat r.accepted)))
    else (r, none)
  | _ => if isOack bits ∧ r.accepted = 0 then (r, some (TftpPacket.ackBits 0)) else (r, none)

def receiver : Client Receiver := ⟨⟨0, []⟩, Receiver.receive⟩

namespace Receiver

variable {r : Receiver} {bits : List UInt8}

theorem receive_data {payload : TypeData} (h : TftpPacket.ofBits bits = .ok (.data payload)) :
    r.receive bits = if payload.blockId = UInt16.ofNat (r.accepted + 1) then
      (⟨r.accepted + 1, r.bytes ++ payload.data⟩,
        some (TftpPacket.ackBits (UInt16.ofNat (r.accepted + 1))))
    else if payload.blockId = UInt16.ofNat r.accepted then
      (r, some (TftpPacket.ackBits (UInt16.ofNat r.accepted)))
    else (r, none) := by
  rw [receive, h]

theorem receive_other (h : ∀ payload, TftpPacket.ofBits bits ≠ .ok (.data payload)) :
    r.receive bits =
      if isOack bits ∧ r.accepted = 0 then (r, some (TftpPacket.ackBits 0)) else (r, none) := by
  rw [receive]
  split
  · rename_i payload hbits
    exact absurd hbits (h payload)
  · rfl

/-- **Each block is accepted once**, and in order: of readers whose block `k` is `payload k`, the
receiver has the first `k` blocks. -/
theorem inStep_of {Good : TftpReader → Prop} {n b : ℕ} {payload : ℕ → List UInt8}
    (hpayload : ∀ k reader, TftpReader.At n b k reader → Good reader →
      reader.buffer = payload k) :
    Network.InStep receiver Good n b fun r k =>
      r.accepted = k ∧ r.bytes = (List.range' 1 k).flatMap payload := by
  refine ⟨⟨rfl, rfl⟩, ?_⟩
  rintro r _ i bits ⟨rfl, hbytes⟩ hpacket hi
  change (_ ∧ (r.receive bits).2 = none) ∨ _ ∧ ∃ a, _ ∧ (r.receive bits).2 = some a
  change ((r.receive bits).1.accepted = _ ∧ (r.receive bits).1.bytes = _) ∧ _ ∨
    ((r.receive bits).1.accepted = _ ∧ (r.receive bits).1.bytes = _) ∧ _
  cases hpacket with
  | oack oack =>
    have hzero : r.accepted = 0 := by omega
    rw [receive_other (TftpPacket.not_data_of_opcode (by decide) _), isOack_encode,
      if_pos ⟨rfl, hzero⟩]
    exact .inr ⟨⟨hzero, by rw [hbytes, hzero]⟩, _, rfl, rfl⟩
  | @data _ reader hat hgood =>
    rw [receive_data (TftpPacket.ofBits_dataBits ..), hat.number]
    rcases hi with rfl | rfl
    · -- the block accepted last
      rw [if_neg (Network.ofNat_succ_ne _).symm, if_pos rfl]
      exact .inr ⟨⟨rfl, hbytes⟩, _, rfl, rfl⟩
    · rw [if_pos rfl]
      refine .inr ⟨⟨rfl, ?_⟩, _, rfl, rfl⟩
      rw [List.range'_1_concat, List.flatMap_append, List.flatMap_singleton, ← hbytes,
        Nat.add_comm 1, hpayload _ reader hat hgood]
  | error _ rest =>
    have hop : (Scalar.encode .network tftpOpcodeError ==
        Scalar.encode .network tftpOpcodeOack) = false := by decide
    rw [receive_other (TftpPacket.not_data_of_opcode (by decide) _), isOack_encode, hop,
      if_neg (by simp)]
    exact .inl ⟨⟨rfl, hbytes⟩, rfl⟩

/-- The blocks of an exact reader are those of the file. -/
theorem inStep (F : List UInt8) (b : ℕ) :
    Network.InStep receiver (TftpReader.Exact F) F.length b fun r k =>
      r.accepted = k ∧ r.bytes = firstBlocks F b k := by
  refine inStep_of fun k reader hat hexact => ?_
  rw [hexact.buffer, hat.blksiz, hat.number]

end Receiver

/-! ### The whole file -/

namespace TftpSessionV4

variable {sys : System} {session : TftpSessionV4} {file : File} {options : OptionsType}

/-- The readers of an octet transfer deliver the file. -/
theorem reads_exact (hfile : sys.Finds session.filePath (.regular file true))
    (hmode : session.request.xfermode = lit "octet")
    (huse : session.optionsInUse file = .ok options) (hb : 1 ≤ options.blksize.toNat) :
    Network.Reads sys session (TftpReader.Exact file.content) file.content.length options where
  first _ hreader := hreader.at_exact hfile hmode (tsize_of_optionsInUse huse) hb
  next _ _ hat hlast hexact := hexact.next hat hlast

/-- **Delivery.** For every octet session with blocks of at least one byte and every way the
network and the time-outs can interleave with it and a lock-step receiver: the receiver has the
blocks of the file up to the session's, or up to the one before, and it has the whole file once
the session has left its data loop without an exception. -/
theorem delivery (hstop : sys.NoStop)
    (hfile : sys.Finds session.filePath (.regular file true))
    (hmode : session.request.xfermode = lit "octet")
    (huse : session.optionsInUse file = .ok options) (hb : 1 ≤ options.blksize.toNat)
    (as : List Network.Action) :
    let net := Network.run sys session receiver as
    net.client.bytes = firstBlocks file.content options.blksize.toNat net.client.accepted ∧
      (net.client.accepted = net.block - 1 ∨ net.client.accepted = net.block) ∧
      ∀ reader, net.session.control = .finished reader → net.client.bytes = file.content := by
  intro net
  obtain ⟨p, k, h, haccepted, hbytes⟩ := Network.invariant_run hstop hfile huse
    (reads_exact hfile hmode huse hb) (Receiver.inStep file.content options.blksize.toNat) as
  have hle := h.window.le
  have hsucc := h.window.le_succ
  refine ⟨by rw [hbytes, haccepted], ?_, fun reader hreader => ?_⟩
  · rw [haccepted, h.block]
    omega
  · obtain ⟨hat, hlast, hpk⟩ := h.finished reader hreader
    obtain rfl : p = k := le_antisymm hpk hle
    rw [hbytes, firstBlocks_eq_take, List.take_of_length_le]
    rw [hat.last_iff.mp hlast, Nat.succ_mul]
    exact (Nat.lt_div_mul_add hb).le

/-- Three bytes in blocks of two, with the OACK lost once and an acknowledgement repeated. -/
theorem delivery_three_bytes :
    let file : File := ⟨[65, 66, 67], by decide⟩
    let session : TftpSessionV4 :=
      ⟨Path.ofString (lit "./"), ⟨1, 1024⟩, ⟨lit "a", lit "octet",
        UnorderedMap.emplace ∅ (lit "blksize") (lit "2")⟩⟩
    let net := Network.run (.serving file) session receiver
      [.loseToClient 0, .timeout, .clientReceives, .repeatToSession 0, .sessionReceives,
        .clientReceives, .timeout, .sessionReceives]
    net.client.bytes = firstBlocks [65, 66, 67] 2 net.client.accepted ∧
      (net.client.accepted = net.block - 1 ∨ net.client.accepted = net.block) ∧
      ∀ reader, net.session.control = .finished reader → net.client.bytes = [65, 66, 67] :=
  have huse : optionsInUse ⟨Path.ofString (lit "./"), ⟨1, 1024⟩, ⟨lit "a", lit "octet",
      UnorderedMap.emplace ∅ (lit "blksize") (lit "2")⟩⟩ ⟨[65, 66, 67], by decide⟩ =
      .ok ⟨2, 1, 3⟩ := by decide
  delivery (System.noStop_serving _) (System.finds_serving _ _) rfl huse (by decide) _

end TftpSessionV4

end Bootpd
