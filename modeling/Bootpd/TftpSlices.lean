import Bootpd.TftpSessionSteps

/-!
# A reader slices its file exactly

The blocks a `tftp_reader` goes through from its constructor to its last block, for any file and
any block size that fit into 64 bits: the arithmetic never wraps, the blocks in sequence are the
file, and their total size is the one the session announces.

The session proofs follow one reader through a transfer with `TftpReader.At`. Here the whole row of
readers is in view: `nth F blksiz k` is the reader after `k` calls of `next`, of which the
constructor makes the first.

## What is to be shown of a row

That none of the operations wraps is said of the arithmetic itself, in `NoWrap`: the product, the
sum and the difference that `next` computes in 64 bits are those of the natural numbers. That the
blocks are the file is an induction on how many there are, each a `take` behind a `drop`. And the
last block is the first that is shorter than the block size; when the file is a whole number of
blocks it is empty, as the protocol has it.

A block size of 0 is left to `TftpTermination`: there is no last block then.

## Main definitions

* `TftpReader.nth` — the row
* `TftpReader.NoWrap`, `TftpReader.Reading` — no operation wraps, and the invariant of the row

## Main results

* `TftpReader.reading_nth` — the invariant of the row
* `TftpReader.flatMap_block` — the blocks in sequence are a prefix of the file
* `TftpReader.slices` — the headline
-/

namespace Bootpd

open Imperative

namespace TftpReader

/-- The reader of a binary stream over `F` after `k` calls of `next`. -/
def nth (F : List UInt8) (blksiz : UInt64) (k : ℕ) : TftpReader :=
  next^[k] (initial ⟨F, true, false⟩ (.ofNat F.length) blksiz)

theorem nth_succ (F : List UInt8) (blksiz : UInt64) (k : ℕ) :
    nth F blksiz (k + 1) = (nth F blksiz k).next := Function.iterate_succ_apply' ..

/-- The two unsigned operations of `next` give the result they have in the integers. -/
structure NoWrap (r : TftpReader) : Prop where
  /-- The product `m_number * m_blksiz`. -/
  product : r.nextOffset.toNat = r.number.toNat * r.blksiz.toNat
  /-- The difference `m_length - offset`. -/
  difference : (r.length - r.nextOffset).toNat + r.nextOffset.toNat = r.length.toNat

/-- The reader in front of block `k + 1` of `F`. -/
structure Reading (F : List UInt8) (b k : ℕ) (r : TftpReader) : Prop where
  length : r.length.toNat = F.length
  blksiz : r.blksiz.toNat = b
  number : r.number.toNat = k
  stream : r.stream = ⟨F, true, false⟩

variable {F : List UInt8} {b k : ℕ} {r : TftpReader} {blksiz : UInt64}

theorem Reading.noWrap (h : Reading F b k r) (hF : F.length < 2 ^ 64) (hk : k * b ≤ F.length) :
    NoWrap r := by
  have hoffset := toNat_nextOffset h.blksiz h.number hF hk
  refine ⟨by rw [hoffset, h.number, h.blksiz], ?_⟩
  rw [UInt64.toNat_sub_of_le _ _ (by rw [UInt64.le_iff_toNat_le, hoffset, h.length]; exact hk),
    hoffset, h.length]
  exact Nat.sub_add_cancel hk

theorem Reading.buffer_next (h : Reading F b k r) (hF : F.length < 2 ^ 64)
    (hk : k * b ≤ F.length) : r.next.buffer = block F b (k + 1) :=
  (TftpReader.buffer_next hF h.length h.blksiz h.number hk h.stream).1

/-- `next` in front of a block that is not the last one. -/
theorem Reading.next (h : Reading F b k r) (hb : 0 < b) (hF : F.length < 2 ^ 64)
    (hk : (k + 1) * b ≤ F.length) : Reading F b (k + 1) r.next := by
  have hk' : k * b ≤ F.length := (Nat.mul_le_mul_right b (Nat.le_succ k)).trans hk
  have hlt : k + 1 < 2 ^ 64 := (Nat.le_mul_of_pos_right _ hb).trans_lt (hk.trans_lt hF)
  refine ⟨by rw [length_next, h.length], by rw [blksiz_next, h.blksiz], ?_,
    (TftpReader.buffer_next hF h.length h.blksiz h.number hk' h.stream).2⟩
  rw [number_next, UInt64.toNat_add, h.number]
  exact Nat.mod_eq_of_lt hlt

/-- **The invariant of the row**, by induction on the calls of `next`. -/
theorem reading_nth (hF : F.length < 2 ^ 64) (hb : 0 < blksiz.toNat)
    (hk : k * blksiz.toNat ≤ F.length) : Reading F blksiz.toNat k (nth F blksiz k) := by
  induction k with
  | zero => exact ⟨Nat.mod_eq_of_lt hF, rfl, rfl, rfl⟩
  | succ k ih =>
    rw [nth_succ]
    exact (ih ((Nat.mul_le_mul_right _ (Nat.le_succ k)).trans hk)).next hb hF hk

theorem length_block (F : List UInt8) (b k : ℕ) :
    (block F b (k + 1)).length = min b (F.length - k * b) := by
  rw [block, Nat.add_sub_cancel, List.length_take, List.length_drop]

/-- The first `n` blocks in sequence. -/
theorem flatMap_block (F : List UInt8) (b n : ℕ) :
    (List.range n).flatMap (fun k => block F b (k + 1)) = F.take (n * b) := by
  induction n with
  | zero => simp
  | succ n ih =>
    rw [List.range_succ, List.flatMap_append, ih, Nat.succ_mul, List.take_add,
      List.flatMap_singleton]
    rfl

theorem blocks_cover (F : List UInt8) (hb : 0 < b) :
    (List.range (F.length / b + 1)).flatMap (fun k => block F b (k + 1)) = F := by
  have hlt := Nat.lt_mul_div_succ F.length hb
  rw [flatMap_block, List.take_of_length_le]
  rw [Nat.mul_comm]
  exact hlt.le

theorem buffer_nth (hF : F.length < 2 ^ 64) (hb : 0 < blksiz.toNat)
    (hk : k ≤ F.length / blksiz.toNat) :
    (nth F blksiz (k + 1)).buffer = block F blksiz.toNat (k + 1) := by
  have hle : k * blksiz.toNat ≤ F.length := (Nat.le_div_iff_mul_le hb).mp hk
  rw [nth_succ]
  exact (reading_nth hF hb hle).buffer_next hF hle

theorem length_buffer_nth (hF : F.length < 2 ^ 64) (hb : 0 < blksiz.toNat)
    (hk : k ≤ F.length / blksiz.toNat) :
    (nth F blksiz (k + 1)).buffer.length =
      if k = F.length / blksiz.toNat then F.length % blksiz.toNat else blksiz.toNat := by
  have hdiv := Nat.div_add_mod F.length blksiz.toNat
  have hmod := Nat.mod_lt F.length hb
  rw [buffer_nth hF hb hk, length_block]
  split_ifs with h
  · rw [h, Nat.mul_comm]
    omega
  · have hfull : (k + 1) * blksiz.toNat ≤ F.length :=
      (Nat.le_div_iff_mul_le hb).mp (Nat.lt_of_le_of_ne hk h)
    rw [Nat.succ_mul] at hfull
    omega

theorem blksiz_nth (F : List UInt8) (blksiz : UInt64) (k : ℕ) :
    (nth F blksiz k).blksiz = blksiz := by
  induction k with
  | zero => rfl
  | succ k ih => rw [nth_succ, blksiz_next, ih]

end TftpReader

namespace TftpSessionV4

/-- **The size in the OACK** is the one the options came with, when the request asks for it. -/
theorem lookup_tsize {options options' : OptionsType} {dict oack : DictionaryType}
    (h : parseOptions options dict = .ok (options', oack)) (hmem : lit "tsize" ∈ dict) :
    oack.lookup (lit "tsize") = some (toString options.tsize.toNat) := by
  have hother : ¬(lit "tsize" = lit "blksize" ∨ lit "tsize" = lit "timeout") := by decide
  rw [lookup_oack h, if_neg hother, if_pos ⟨rfl, hmem⟩]

end TftpSessionV4

namespace TftpReader

/-- **A reader slices its file exactly.** The constructor gives the first reader of the row. None
of the calls of `next` wraps, `last` is true at block `|F| / b + 1` and at no block before, every
block before it is full and it has the rest, and the blocks in sequence are the file, of the size
that the session takes for the transfer and writes into its OACK. -/
theorem slices (F : List UInt8) (hF : F.length < 2 ^ 64) (blksiz : UInt64)
    (hb : 0 < blksiz.toNat) :
    (∀ (sys : System) (path : Path) (file : File) (s : IoState),
        sys.Finds path (.regular file true) → file.content = F →
        sys.canAllocate blksiz = true →
        exec (make sys path (.ofNat F.length) blksiz true) s =
          (.ok (nth F blksiz 1), s.push (.opened path))) ∧
      (∀ k ≤ F.length / blksiz.toNat, NoWrap (nth F blksiz k)) ∧
      (∀ k ≤ F.length / blksiz.toNat,
        ((nth F blksiz (k + 1)).last = true ↔ k = F.length / blksiz.toNat)) ∧
      (∀ k < F.length / blksiz.toNat, (nth F blksiz (k + 1)).buffer.length = blksiz.toNat) ∧
      (nth F blksiz (F.length / blksiz.toNat + 1)).buffer.length = F.length % blksiz.toNat ∧
      (List.range (F.length / blksiz.toNat + 1)).flatMap
        (fun k => (nth F blksiz (k + 1)).buffer) = F ∧
      ∀ (sys : System) (session : TftpSessionV4) (file : File) (readable : Bool),
        sys.Finds session.filePath (.regular file readable) → file.content = F →
        ∃ tsize, (sys.filesystem .fileSize).fileSize session.filePath = .ok tsize ∧
          ∀ options oack, TftpSessionV4.parseOptions ⟨512, 1, tsize⟩ session.request.options =
              .ok (options, oack) →
            options.tsize = .ofNat F.length ∧
            (lit "tsize" ∈ session.request.options → oack.lookup (lit "tsize") =
              some (toString ((List.range (F.length / blksiz.toNat + 1)).map
                fun k => (nth F blksiz (k + 1)).buffer.length).sum)) := by
  have hcover : (List.range (F.length / blksiz.toNat + 1)).flatMap
      (fun k => (nth F blksiz (k + 1)).buffer) = F := by
    refine (List.flatMap_congr fun k hk => ?_).trans (blocks_cover F hb)
    exact buffer_nth hF hb (Nat.le_of_lt_succ (List.mem_range.mp hk))
  refine ⟨?_, fun k hk => ?_, fun k hk => ?_, fun k hk => ?_, ?_, hcover, ?_⟩
  · rintro sys path file s hfile rfl hallocate
    rw [exec_make hfile, if_pos hallocate, Ifstream.ofPath, hfile]
    rfl
  · have hle : k * blksiz.toNat ≤ F.length := (Nat.le_div_iff_mul_le hb).mp hk
    exact (reading_nth hF hb hle).noWrap hF hle
  · have hmod := Nat.mod_lt F.length hb
    rw [last, decide_eq_true_iff, blksiz_nth, length_buffer_nth hF hb hk]
    split_ifs with h
    · exact iff_of_true hmod h
    · exact iff_of_false (lt_irrefl _) h
  · rw [length_buffer_nth hF hb hk.le, if_neg hk.ne]
  · rw [length_buffer_nth hF hb le_rfl, if_pos rfl]
  · rintro sys session file readable hfile rfl
    have hsize := hfile.fileSize .fileSize
    refine ⟨_, hsize, fun options oack hparse => ⟨?_, fun hmem => ?_⟩⟩
    · obtain ⟨_, _, _, _, -, -, rfl⟩ := TftpSessionV4.cases_of_parseOptions hparse
      rfl
    · have hsum := congrArg List.length hcover
      rw [List.length_flatMap] at hsum
      rw [TftpSessionV4.lookup_tsize hparse hmem, hsum]
      exact congrArg (fun n => some (toString n)) (Nat.mod_eq_of_lt hF)

theorem slices_threeBytes :
    (nth [1, 2, 3] 2 2).last = true ∧
      (List.range 2).flatMap (fun k => (nth [1, 2, 3] 2 (k + 1)).buffer) = [1, 2, 3] := by
  have h := slices [1, 2, 3] (by decide) 2 (by decide)
  exact ⟨(h.2.2.1 1 (by decide)).mpr rfl, h.2.2.2.2.2.1⟩

end TftpReader

end Bootpd
