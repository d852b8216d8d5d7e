import Bootpd.TftpDelivery
import Bootpd.TftpSlices

/-!
# Transfers in netascii mode

In netascii a line ends with CR LF, whatever it ends with in the file. For a request in that mode
the reader opens its stream in text mode and goes on as before: it asks for the bytes from the
start of a block on and takes as many as the block has. But the stream in text mode turns CR LF
into LF and leaves a LF without CR as it is.

## Where it goes wrong

So no line end is sent as CR LF, and the first one decides. In front of it the stream and the
netascii form agree with the file; what is sent then is a LF, and the netascii form has a CR in its
place. The rest need not be looked at. There it gets worse: a CR LF is read as one byte, the block
takes a byte of what follows in its stead, and the next block starts in the file where it would
have, not where the stream has got to.

`Splits` keeps count of this: in a text up to its first line end, no line ends, and none ends across
its border. `textMode` and `netascii` go over such a text without a change.

## Scope

The stream is the one that `Ifstream.read` describes: it translates the ends of lines and nothing
else, and goes on behind a byte 26. The blocks have at least one byte.

## Main definitions

* `netascii` — the netascii form of a text
* `TftpReader.textPayload`, `TftpReader.sent` — the payload of a block, and of all

## Main results

* `TftpReader.textMode_append`, `netascii_append` — text without line ends is left alone
* `TftpReader.sent_of_split` — what is sent up to the first line end, and what it becomes
* `TftpSessionV4.netascii_iff` — when the netascii form is delivered
-/

namespace Bootpd

open StopAndWait

/-- The netascii form of a text: a line ends with CR LF. -/
def netascii : List UInt8 → List UInt8
  | 13 :: 10 :: s => 13 :: 10 :: netascii s
  | 10 :: s => 13 :: 10 :: netascii s
  | c :: s => c :: netascii s
  | [] => []

namespace TftpReader

/-! ### The readers of a transfer -/

/-- The reader of a stream in text mode over `F` after `k` calls of `next`. -/
def textNth (F : List UInt8) (blksiz : UInt64) (k : ℕ) : TftpReader :=
  next^[k] (initial ⟨F, false, false⟩ (.ofNat F.length) blksiz)

theorem textNth_succ (F : List UInt8) (blksiz : UInt64) (k : ℕ) :
    textNth F blksiz (k + 1) = (textNth F blksiz k).next := Function.iterate_succ_apply' ..

/-- The payload of block `k`. -/
def textPayload (F : List UInt8) (blksiz : UInt64) (k : ℕ) : List UInt8 :=
  (textNth F blksiz k).buffer

/-- **What a netascii transfer sends**: the payloads of the blocks 1 to the last, in sequence. -/
def sent (F : List UInt8) (blksiz : UInt64) : List UInt8 :=
  (List.range' 1 (F.length / blksiz.toNat + 1)).flatMap (textPayload F blksiz)

variable {F A T U : List UInt8} {blksiz : UInt64} {k : ℕ}

/-- Whatever the stream delivers, the readers go from block to block. -/
theorem at_textNth (hF : F.length < 2 ^ 63) (hb : 0 < blksiz.toNat)
    (hk : k * blksiz.toNat ≤ F.length) :
    At F.length blksiz.toNat (k + 1) (textNth F blksiz (k + 1)) := by
  induction k with
  | zero =>
    exact at_next_of hb hF (Nat.mod_eq_of_lt (hF.trans (by decide))) rfl rfl (by omega)
  | succ k ih =>
    have hat := ih ((Nat.mul_le_mul_right _ (Nat.le_succ k)).trans hk)
    rw [textNth_succ]
    exact at_next_of hb hF hat.length hat.blksiz hat.number hk

/-! ### Text without line ends -/

/-- No line ends in `A`, and none ends across the border to `T`. -/
structure Splits (A T : List UInt8) : Prop where
  noLineFeed : 10 ∉ A
  border : A.getLast? = some 13 → T.head? ≠ some 10

theorem textMode_cons {c : UInt8} {s : List UInt8} (h : c = 13 → s.head? ≠ some 10) :
    textMode (c :: s) = c :: textMode s := by
  rw [textMode.eq_def]
  split
  · rename_i heq
    obtain ⟨rfl, rfl⟩ := List.cons.inj heq
    exact absurd rfl (h rfl)
  · rename_i heq
    obtain ⟨rfl, rfl⟩ := List.cons.inj heq
    rfl
  · rename_i heq
    cases heq

theorem netascii_cons {c : UInt8} {s : List UInt8} (hc : c ≠ 10)
    (h : c = 13 → s.head? ≠ some 10) : netascii (c :: s) = c :: netascii s := by
  rw [netascii.eq_def]
  split
  · rename_i heq
    obtain ⟨rfl, rfl⟩ := List.cons.inj heq
    exact absurd rfl (h rfl)
  · rename_i heq
    exact absurd (List.cons.inj heq).1 hc
  · rename_i heq
    obtain ⟨rfl, rfl⟩ := List.cons.inj heq
    rfl
  · rename_i heq
    cases heq

theorem Splits.tail {c : UInt8} (h : Splits (c :: A) T) : Splits A T := by
  refine ⟨fun hmem => h.noLineFeed (List.mem_cons_of_mem _ hmem), fun hlast => h.border ?_⟩
  rw [List.getLast?_cons, hlast]
  rfl

theorem Splits.drop (h : Splits A T) (n : ℕ) : Splits (A.drop n) T := by
  induction n generalizing A with
  | zero => exact h
  | succ n ih =>
    cases A with
    | nil => exact h
    | cons c A => exact ih h.tail

/-- The first character of a text that splits is no line end. -/
theorem Splits.head {c : UInt8} (h : Splits (c :: A) T) :
    c ≠ 10 ∧ (c = 13 → (A ++ T).head? ≠ some 10) := by
  refine ⟨fun hc => h.noLineFeed (by simp [hc]), ?_⟩
  rintro rfl
  cases A with
  | nil => exact h.border rfl
  | cons d A =>
    intro hhead
    exact h.noLineFeed (by simp [Option.some.inj hhead])

/-- **Text without line ends** passes through a stream in text mode, -/
theorem textMode_append (h : Splits A T) : textMode (A ++ T) = A ++ textMode T := by
  induction A with
  | nil => rfl
  | cons c A ih => rw [List.cons_append, textMode_cons h.head.2, ih h.tail, List.cons_append]

/-- and is its own netascii form. -/
theorem netascii_append (h : Splits A T) : netascii (A ++ T) = A ++ netascii T := by
  induction A with
  | nil => rfl
  | cons c A ih =>
    rw [List.cons_append, netascii_cons h.head.1 h.head.2, ih h.tail, List.cons_append]

/-- A text with a line feed splits in front of its first line end, which is LF or CR LF. -/
theorem exists_splits (h : 10 ∈ F) :
    ∃ A T U, F = A ++ T ∧ Splits A T ∧ textMode T = 10 :: U ∧ ∃ V, netascii T = 13 :: V := by
  obtain ⟨A, B, rfl, hA⟩ := List.eq_append_cons_of_mem h
  by_cases hlast : A.getLast? = some 13
  · obtain ⟨A, rfl⟩ := List.getLast?_eq_some_iff.mp hlast
    have hnot : 10 ∉ A := fun hmem => hA (List.mem_append_left _ hmem)
    refine ⟨A, 13 :: 10 :: B, textMode B, by simp, ⟨hnot, fun _ => by simp⟩, rfl, _, rfl⟩
  · exact ⟨A, 10 :: B, textMode B, rfl, ⟨hA, fun h => absurd h hlast⟩, textMode_cons
      (fun h => absurd h (by decide)), _, rfl⟩

/-! ### What is sent -/

/-- What `next` asks for. -/
theorem next_textNth (hF : F.length < 2 ^ 63) (hb : 0 < blksiz.toNat)
    (hk : k * blksiz.toNat ≤ F.length) :
    (textNth F blksiz k).nextOffset.toNat = k * blksiz.toNat ∧
      (textNth F blksiz k).nextLength.toNat = min blksiz.toNat (F.length - k * blksiz.toNat) := by
  have hlt : F.length < 2 ^ 64 := hF.trans (by decide)
  have hmembers : (textNth F blksiz k).length.toNat = F.length ∧
      (textNth F blksiz k).blksiz.toNat = blksiz.toNat ∧
      (textNth F blksiz k).number.toNat = k := by
    cases k with
    | zero => exact ⟨Nat.mod_eq_of_lt hlt, rfl, rfl⟩
    | succ k =>
      have hat := at_textNth hF hb ((Nat.mul_le_mul_right _ (Nat.le_succ k)).trans hk)
      exact ⟨hat.length, hat.blksiz, hat.number⟩
  obtain ⟨hlength, hblksiz, hnumber⟩ := hmembers
  have hoffset := toNat_nextOffset hblksiz hnumber hlt hk
  exact ⟨hoffset, toNat_nextLength hlength hblksiz hoffset hk⟩

/-- One call of `next` in front of the first line end, on a stream that has not failed. -/
theorem next_text {r : TftpReader} {n : ℕ} (hstream : r.stream = ⟨A ++ T, false, false⟩)
    (hsplits : Splits A T) (hoffset : r.nextOffset.toNat = k) (hk : k ≤ A.length)
    (hlength : r.nextLength.toNat = n) :
    r.next.buffer = (A.drop k ++ textMode T).take n ++
        List.replicate (n - ((A.drop k ++ textMode T).take n).length) 0 ∧
      (k + n ≤ A.length → r.next.stream = ⟨A ++ T, false, false⟩) := by
  have hread : r.stream.read k n = ((A.drop k ++ textMode T).take n,
      ⟨A ++ T, false, ((A.drop k ++ textMode T).take n).length < n⟩) := by
    rw [hstream, Ifstream.read, if_neg Bool.false_ne_true, List.drop_append_of_le_length hk]
    dsimp only
    rw [if_neg Bool.false_ne_true, textMode_append (hsplits.drop _)]
  rw [next]
  split
  · rw [hoffset, hlength, hread]
    refine ⟨rfl, fun hle => ?_⟩
    have hfull : n ≤ ((A.drop k ++ textMode T).take n).length := by
      rw [List.length_take, List.length_append, List.length_drop]
      omega
    exact congrArg (Ifstream.mk (A ++ T) false) (decide_eq_false hfull.not_gt)
  · rename_i hzero
    obtain rfl : n = 0 := hlength.symm.trans (toNat_eq_zero_of_not_pos hzero)
    exact ⟨by simp, fun _ => hstream⟩

/-- The stream has not failed in front of the first line end, -/
theorem stream_textNth (hF : (A ++ T).length < 2 ^ 63) (hb : 0 < blksiz.toNat)
    (hsplits : Splits A T) (hk : k * blksiz.toNat ≤ A.length) :
    (textNth (A ++ T) blksiz k).stream = ⟨A ++ T, false, false⟩ := by
  induction k with
  | zero => rfl
  | succ k ih =>
    have hsucc : (k + 1) * blksiz.toNat = k * blksiz.toNat + blksiz.toNat := Nat.succ_mul ..
    have hk' : k * blksiz.toNat ≤ A.length := by omega
    have hle : k * blksiz.toNat ≤ (A ++ T).length := by
      rw [List.length_append]
      omega
    obtain ⟨hoffset, hlength⟩ := next_textNth hF hb hle
    rw [textNth_succ]
    refine (next_text (ih hk') hsplits hoffset hk' hlength).2 ?_
    omega

/-- and a block that starts there has the bytes up to it, and goes on as the stream does. -/
theorem textPayload_of_splits (hF : (A ++ T).length < 2 ^ 63) (hb : 0 < blksiz.toNat)
    (hsplits : Splits A T) (hk : k * blksiz.toNat ≤ A.length) {n : ℕ}
    (hn : n = min blksiz.toNat ((A ++ T).length - k * blksiz.toNat)) :
    textPayload (A ++ T) blksiz (k + 1) =
      (A.drop (k * blksiz.toNat) ++ textMode T).take n ++
        List.replicate (n - ((A.drop (k * blksiz.toNat) ++ textMode T).take n).length) 0 := by
  have hle : k * blksiz.toNat ≤ (A ++ T).length := by
    rw [List.length_append]
    omega
  obtain ⟨hoffset, hlength⟩ := next_textNth hF hb hle
  rw [textPayload, textNth_succ]
  exact (next_text (stream_textNth hF hb hsplits hk) hsplits hoffset hk (hlength.trans hn.symm)).1

/-- A block in front of the first line end is the block of the file. -/
theorem textPayload_eq_block (hF : (A ++ T).length < 2 ^ 63) (hb : 0 < blksiz.toNat)
    (hsplits : Splits A T) (hk : (k + 1) * blksiz.toNat ≤ A.length) :
    textPayload (A ++ T) blksiz (k + 1) = block A blksiz.toNat (k + 1) := by
  have hsucc : (k + 1) * blksiz.toNat = k * blksiz.toNat + blksiz.toNat := Nat.succ_mul ..
  have hn : blksiz.toNat = min blksiz.toNat ((A ++ T).length - k * blksiz.toNat) := by
    rw [List.length_append]
    omega
  have hdrop : blksiz.toNat ≤ (A.drop (k * blksiz.toNat)).length := by
    rw [List.length_drop]
    omega
  rw [textPayload_of_splits hF hb hsplits (by omega) hn, List.take_append_of_le_length hdrop,
    List.length_take, Nat.min_eq_left hdrop, Nat.sub_self, List.replicate_zero, List.append_nil,
    block, Nat.add_sub_cancel]

/-- In a file without a line feed every block is the block of the file, the last one too. -/
theorem textPayload_of_noLineFeed (hF : F.length < 2 ^ 63) (hb : 0 < blksiz.toNat)
    (hline : 10 ∉ F) (hk : k * blksiz.toNat ≤ F.length) :
    textPayload F blksiz (k + 1) = block F blksiz.toNat (k + 1) := by
  have hpayload := textPayload_of_splits (A := F) (T := []) (by simpa using hF) hb
    ⟨hline, fun _ => by simp⟩ hk rfl
  have hfull : min blksiz.toNat (F.length - k * blksiz.toNat) ≤
      (F.drop (k * blksiz.toNat)).length := by
    rw [List.length_drop]
    exact Nat.min_le_right ..
  rw [textMode, List.append_nil, List.append_nil, List.length_take, Nat.min_eq_left hfull,
    Nat.sub_self, List.replicate_zero, List.append_nil] at hpayload
  rw [hpayload, block, Nat.add_sub_cancel, List.take_eq_take_iff, List.length_drop]
  omega

/-- Blocks of `A` in sequence are the beginning of `A`. -/
theorem flatMap_textPayload {n : ℕ}
    (h : ∀ k < n, textPayload F blksiz (k + 1) = block A blksiz.toNat (k + 1)) :
    (List.range' 1 n).flatMap (textPayload F blksiz) = A.take (n * blksiz.toNat) := by
  rw [← firstBlocks_eq_take]
  refine List.flatMap_congr fun k hk => ?_
  obtain ⟨hpos, hlt⟩ := List.mem_range'_1.mp hk
  have hblock := h (k - 1) (by omega)
  rwa [Nat.sub_add_cancel hpos] at hblock

/-- **Without a line feed** the file is sent as it is. -/
theorem sent_of_noLineFeed (hF : F.length < 2 ^ 63) (hb : 0 < blksiz.toNat) (hline : 10 ∉ F) :
    sent F blksiz = F := by
  have hblocks : sent F blksiz = F.take ((F.length / blksiz.toNat + 1) * blksiz.toNat) :=
    flatMap_textPayload fun k hk => textPayload_of_noLineFeed hF hb hline
      ((Nat.le_div_iff_mul_le hb).mp (Nat.le_of_lt_succ hk))
  rw [hblocks, List.take_of_length_le]
  rw [Nat.succ_mul]
  exact (Nat.lt_div_mul_add hb).le

/-- **The first line end** is sent as LF: what comes before it is sent as it is. -/
theorem sent_of_split (hF : (A ++ T).length < 2 ^ 63) (hb : 0 < blksiz.toNat)
    (hsplits : Splits A T) (hT : textMode T = 10 :: U) :
    ∃ V, sent (A ++ T) blksiz = A ++ 10 :: V := by
  have hpos : 0 < T.length := by
    cases T with
    | nil => cases hT
    | cons => exact Nat.succ_pos _
  have hdiv := Nat.lt_div_mul_add hb (a := A.length)
  have hmul := Nat.div_mul_le_self A.length blksiz.toNat
  have hbefore : (List.range' 1 (A.length / blksiz.toNat)).flatMap (textPayload (A ++ T) blksiz) =
      A.take (A.length / blksiz.toNat * blksiz.toNat) :=
    flatMap_textPayload fun k hk => textPayload_eq_block hF hb hsplits
      ((Nat.le_div_iff_mul_le hb).mp hk)
  -- the line end is in the block after the full blocks of `A`
  have hlonger : (A.drop (A.length / blksiz.toNat * blksiz.toNat)).length <
      min blksiz.toNat ((A ++ T).length - A.length / blksiz.toNat * blksiz.toNat) := by
    rw [List.length_append, List.length_drop]
    omega
  obtain ⟨m, hm⟩ := Nat.exists_eq_add_of_lt hlonger
  have hblock : textPayload (A ++ T) blksiz (A.length / blksiz.toNat + 1) =
      A.drop (A.length / blksiz.toNat * blksiz.toNat) ++ 10 :: (U.take m ++
        List.replicate (m - (U.take m).length) 0) := by
    rw [textPayload_of_splits hF hb hsplits hmul hm.symm, hT, Nat.add_assoc,
      List.take_length_add_append, List.take_succ_cons, List.append_assoc, List.cons_append,
      List.length_append, List.length_cons, Nat.add_sub_add_left, Nat.add_sub_add_right]
  have hlast : A.length / blksiz.toNat ≤ (A ++ T).length / blksiz.toNat :=
    Nat.div_le_div_right (by simp)
  obtain ⟨d, hd⟩ := Nat.exists_eq_add_of_le hlast
  rw [sent, hd, Nat.add_right_comm, ← List.range'_append_1, List.flatMap_append,
    List.range'_1_concat, List.flatMap_append, List.flatMap_singleton, Nat.add_comm 1, hbefore,
    hblock, ← List.append_assoc, List.take_append_drop, List.append_assoc, List.cons_append]
  exact ⟨_, rfl⟩

/-- **The netascii form is sent** of a file without a line feed, and of no other. -/
theorem sent_eq_netascii_iff (hF : F.length < 2 ^ 63) (hb : 0 < blksiz.toNat) :
    sent F blksiz = netascii F ↔ 10 ∉ F := by
  refine ⟨fun h hline => ?_, fun hline => ?_⟩
  · obtain ⟨A, T, U, rfl, hsplits, hU, V, hV⟩ := exists_splits hline
    obtain ⟨W, hW⟩ := sent_of_split hF hb hsplits hU
    rw [hW, netascii_append hsplits, hV, List.append_cancel_left_eq] at h
    exact absurd (List.cons.inj h).1 (by decide)
  · have hnetascii := netascii_append (A := F) (T := []) ⟨hline, fun _ => by simp⟩
    rw [netascii, List.append_nil] at hnetascii
    rw [hnetascii, sent_of_noLineFeed hF hb hline]

end TftpReader

/-! ### The receiver of a netascii transfer -/

namespace TftpSessionV4

variable {sys : System} {session : TftpSessionV4} {file : File} {options : OptionsType}
  {reader : TftpReader}

/-- The readers of a netascii transfer are those over the stream in text mode. -/
theorem reads_text (hfile : sys.Finds session.filePath (.regular file true))
    (hmode : session.request.xfermode = lit "netascii")
    (huse : session.optionsInUse file = .ok options) (hb : 0 < options.blksize.toNat) :
    Network.Reads sys session
      (fun r => r = TftpReader.textNth file.content options.blksize r.number.toNat)
      file.content.length options where
  first reader hreader := by
    have htext : (session.request.xfermode == lit "octet") = false := by
      rw [hmode]
      decide
    have hone : reader = TftpReader.textNth file.content options.blksize 1 := by
      rw [hreader.eq hfile (tsize_of_optionsInUse huse), firstReader, htext, Ifstream.ofPath,
        hfile]
      rfl
    have hat := TftpReader.at_textNth file.size_lt hb (k := 0) (by omega)
    rw [← hone] at hat
    exact ⟨hat, by rw [hat.number]; exact hone⟩
  next k reader hat hlast htext := by
    rw [(hat.next hlast).number, TftpReader.textNth_succ, ← hat.number]
    exact congrArg TftpReader.next htext

/-- **What a finished netascii transfer has delivered**, over every run. -/
theorem netascii_delivery (hstop : sys.NoStop)
    (hfile : sys.Finds session.filePath (.regular file true))
    (hmode : session.request.xfermode = lit "netascii")
    (huse : session.optionsInUse file = .ok options) (hb : 0 < options.blksize.toNat)
    (as : List Network.Action)
    (hfinished : (Network.run sys session receiver as).session.control = .finished reader) :
    (Network.run sys session receiver as).client.bytes =
      TftpReader.sent file.content options.blksize := by
  have hpayload : ∀ k reader, TftpReader.At file.content.length options.blksize.toNat k reader →
      reader = TftpReader.textNth file.content options.blksize reader.number.toNat →
      reader.buffer = TftpReader.textPayload file.content options.blksize k := by
    intro k reader hat htext
    rw [TftpReader.textPayload, ← hat.number, ← htext]
  obtain ⟨p, k, h, -, hbytes⟩ := Network.invariant_run hstop hfile huse
    (reads_text hfile hmode huse hb) (Receiver.inStep_of hpayload) as
  obtain ⟨hat, hlast, hpk⟩ := h.finished reader hfinished
  obtain rfl : p = k := le_antisymm hpk h.window.le
  rw [hbytes, TftpReader.sent, hat.last_iff.mp hlast]

/-- **Netascii.** For every file and every size of block, what a netascii session has sent when it
leaves its data loop without an exception is `sent`, and this is the netascii form of the file if
and only if no byte of the file is a line feed. -/
theorem netascii_iff (file : File) (blksiz : UInt64) (hb : 0 < blksiz.toNat) :
    (TftpReader.sent file.content blksiz = netascii file.content ↔ 10 ∉ file.content) ∧
      ∀ (sys : System) (session : TftpSessionV4) (options : OptionsType)
        (as : List Network.Action) (reader : TftpReader), sys.NoStop →
        sys.Finds session.filePath (.regular file true) →
        session.request.xfermode = lit "netascii" →
        session.optionsInUse file = .ok options → options.blksize = blksiz →
        (Network.run sys session receiver as).session.control = .finished reader →
        (Network.run sys session receiver as).client.bytes =
          TftpReader.sent file.content blksiz := by
  refine ⟨TftpReader.sent_eq_netascii_iff file.size_lt hb, ?_⟩
  rintro sys session options as reader hstop hfile hmode huse rfl hfinished
  exact netascii_delivery hstop hfile hmode huse hb as hfinished

/-- A request for a file in netascii mode and blocks of eight bytes. -/
def netasciiSession : TftpSessionV4 :=
  ⟨Path.ofString (lit "./"), ⟨1, 1024⟩, ⟨lit "a", lit "netascii",
    UnorderedMap.emplace ∅ (lit "blksize") (lit "8")⟩⟩

/-- The OACK and one block are received and acknowledged. -/
def oneBlock (file : File) : Network Receiver :=
  Network.run (.serving file) netasciiSession receiver
    [.clientReceives, .sessionReceives, .clientReceives, .sessionReceives]

/-- Three letters. -/
theorem netascii_letters :
    (oneBlock ⟨[97, 98, 99], by decide⟩).session.control =
        .finished (TftpReader.textNth [97, 98, 99] 8 1) ∧
      (oneBlock ⟨[97, 98, 99], by decide⟩).client.bytes = netascii [97, 98, 99] := by
  have hfinished : (oneBlock ⟨[97, 98, 99], by decide⟩).session.control =
      .finished (TftpReader.textNth [97, 98, 99] 8 1) := by decide +kernel
  have huse : netasciiSession.optionsInUse ⟨[97, 98, 99], by decide⟩ = .ok ⟨8, 1, 3⟩ := by decide
  have h := netascii_iff ⟨[97, 98, 99], by decide⟩ 8 (by decide)
  have hsent := h.2 (.serving ⟨[97, 98, 99], by decide⟩) netasciiSession ⟨8, 1, 3⟩ _ _
    (System.noStop_serving _) (System.finds_serving _ _) rfl huse rfl hfinished
  have hline : (10 : UInt8) ∉ [97, 98, 99] := by decide
  refine ⟨hfinished, ?_⟩
  rw [oneBlock, hsent]
  exact h.1.mpr hline

/-- Two lines with CR LF between them lose the CR, and a zero is sent at the end of the block. -/
theorem not_netascii_twoLines :
    (oneBlock ⟨[97, 13, 10, 98], by decide⟩).session.control =
        .finished (TftpReader.textNth [97, 13, 10, 98] 8 1) ∧
      (oneBlock ⟨[97, 13, 10, 98], by decide⟩).client.bytes = [97, 10, 98, 0] ∧
      netascii [97, 13, 10, 98] = [97, 13, 10, 98] := by
  refine ⟨?_, ?_, ?_⟩ <;> decide +kernel

end TftpSessionV4

end Bootpd
