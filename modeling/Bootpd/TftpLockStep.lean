import Bootpd.TftpSessionSteps
import Mathlib.Data.List.Chain

/-!
# The data loop is lock-step

Whatever is received, the DATA packets of a session are block 1 some times, then block 2 some
times, and so on, and the step to the next block is made on an acknowledgement of the last. The
log of a session is cut in front of every DATA packet: a prelude without any, and then one
`Transmission` for each, with the events up to the next.

## The invariant

`LockStep` says of a list of transmissions that each is of the block in front of it or of the next,
and that the next has an acknowledgement among the events in between; also that each has the bytes
and the number of its block. A log grows in two ways, and both keep this. `ServedLog` connects it to
a session: the log of a session that waits in its data loop is one of these, and its last block is
the one that the reader holds. An ended session keeps the log that it has.

The numbers of the blocks are natural numbers here. On the wire they have 16 bits, and an
acknowledgement is one of its number modulo 65536; that a session cannot tell block 1 from block
65537 is part of what is proved, not left out.

The sockets may fail at any call, and datagrams may arrive from anybody. A transmission that
`sendto` refuses has not been made, and does not count.

## Main definitions

* `Transmission` — a DATA packet and the events up to the next
* `LockStep` — the transmissions of a file, in lock step
* `ServedLog` — the log of a session, cut

## Main results

* `LockStep.received`, `LockStep.transmitted` — the two ways a log grows
* `TftpSessionV4.run_lockStep` — the invariant, over every run
* `TftpSessionV4.data_lock_step` — what it says about the DATA packets
-/

namespace Bootpd

open Imperative

/-! ### Transmissions -/

/-- No DATA packet is sent in these events. -/
def NoData (es : List Event) : Prop :=
  ∀ d payload, .sent d ∈ es → TftpPacket.ofBits d.bits ≠ .ok (.data payload)

/-- An acknowledgement of block `k` is received in these events. -/
def Acknowledged (k : ℕ) (es : List Event) : Prop := ∃ o, .received o ∈ es ∧ Acknowledges o k

/-- A DATA packet that was sent, and the events up to the next one. -/
structure Transmission where
  block : ℕ
  datagram : Datagram
  after : List Event

def Transmission.events (t : Transmission) : List Event := .sent t.datagram :: t.after

/-- A log, cut into transmissions, in which the blocks of `F` go out in lock-step. -/
structure LockStep (F : List UInt8) (b : ℕ) (client : AddressV4) (prelude : List Event)
    (ts : List Transmission) : Prop where
  prelude : NoData prelude
  after : ∀ t ∈ ts, NoData t.after
  /-- Every transmission of a block has its number, modulo `2 ^ 16`, and its bytes. -/
  content : ∀ t ∈ ts, t.datagram.target = client ∧
    TftpPacket.ofBits t.datagram.bits =
      .ok (.data ⟨UInt16.ofNat t.block, TftpReader.block F b t.block⟩)
  first : ∀ t, ts.head? = some t → t.block = 1
  /-- A transmission repeats the block in front of it, or goes on once that is acknowledged. -/
  chain : ts.IsChain fun t t' =>
    t'.block = t.block ∨ t'.block = t.block + 1 ∧ Acknowledged t.block t.after
  bound : ∀ t ∈ ts, 1 ≤ t.block ∧ t.block ≤ F.length / b + 1

/-! ### How a log grows -/

theorem NoData.append {es es' : List Event} (h : NoData es) (h' : NoData es') :
    NoData (es ++ es') := by
  intro d payload hd
  exact (List.mem_append.mp hd).elim (h d payload) (h' d payload)

theorem noData_received (o : RecvOutcome) : NoData [.received o] := by
  rintro d payload hd
  cases List.mem_singleton.mp hd

theorem noData_oackDatagram (oack : DictionaryType) (target : AddressV4) :
    NoData [.sent (oackDatagram oack target)] := by
  rintro d payload hd
  obtain ⟨⟩ := List.mem_singleton.mp hd
  exact TftpPacket.not_data_of_opcode (by decide) _ payload

theorem Minors.noData {path : Path} {es : List Event} (h : Minors path es) : NoData es := by
  intro d payload hd
  cases h _ hd with
  | sentError target rest => exact TftpPacket.not_data_of_opcode (by decide) rest payload

variable {F : List UInt8} {b : ℕ} {client : AddressV4} {prelude : List Event}
  {ts : List Transmission}

theorem lockStep_nil (h : NoData prelude) : LockStep F b client prelude [] :=
  ⟨h, by simp, by simp, by simp, .nil, by simp⟩

/-- Events without DATA belong to the last transmission, or to the prelude. -/
theorem LockStep.received (h : LockStep F b client prelude ts) {es : List Event}
    (hes : NoData es) : ∃ prelude' ts',
      prelude ++ ts.flatMap Transmission.events ++ es =
        prelude' ++ ts'.flatMap Transmission.events ∧
      LockStep F b client prelude' ts' ∧ (ts = [] → ts' = []) ∧
      ∀ t ∈ ts.getLast?, ∃ t' ∈ ts'.getLast?, t'.block = t.block ∧ es ⊆ t'.after := by
  rcases List.eq_nil_or_concat' ts with rfl | ⟨init, t, rfl⟩
  · refine ⟨prelude ++ es, [], by simp, ?_, fun _ => rfl, by simp⟩
    exact lockStep_nil (h.prelude.append hes)
  · -- the last transmission keeps its block and datagram
    have hmem : ∀ t' ∈ init, t' ∈ init ++ [t] := fun t' => List.mem_append_left _
    have hlast : t ∈ init ++ [t] := by simp
    have hchain := List.isChain_append.mp h.chain
    refine ⟨prelude, init ++ [{ t with after := t.after ++ es }], ?_,
      ⟨h.prelude, ?_, ?_, ?_, ?_, ?_⟩, by simp, by simp⟩
    · simp [Transmission.events]
    · simp only [List.forall_mem_append, List.forall_mem_singleton]
      exact ⟨fun t' ht' => h.after t' (hmem t' ht'), (h.after t hlast).append hes⟩
    · simp only [List.forall_mem_append, List.forall_mem_singleton]
      exact ⟨fun t' ht' => h.content t' (hmem t' ht'), h.content t hlast⟩
    · intro t' ht'
      cases init with
      | nil =>
        obtain rfl : _ = t' := by simpa using ht'
        exact h.first t rfl
      | cons t₀ init => exact h.first t' (by simpa using ht')
    · refine List.isChain_append.mpr ⟨hchain.1, .singleton _, fun t₁ ht₁ t₂ ht₂ => ?_⟩
      obtain rfl : _ = t₂ := by simpa using ht₂
      exact hchain.2.2 t₁ ht₁ t (by simp)
    · simp only [List.forall_mem_append, List.forall_mem_singleton]
      exact ⟨fun t' ht' => h.bound t' (hmem t' ht'), h.bound t hlast⟩

/-- A DATA packet starts a new transmission. -/
theorem LockStep.transmitted (h : LockStep F b client prelude ts) {d : Datagram} {k : ℕ}
    (hd : d.target = client ∧ TftpPacket.ofBits d.bits =
      .ok (.data ⟨UInt16.ofNat k, TftpReader.block F b k⟩))
    (hk : 1 ≤ k ∧ k ≤ F.length / b + 1) (hfirst : ts = [] → k = 1)
    (hnext : ∀ t ∈ ts.getLast?, k = t.block ∨ k = t.block + 1 ∧ Acknowledged t.block t.after) :
    LockStep F b client prelude (ts ++ [⟨k, d, []⟩]) := by
  refine ⟨h.prelude, ?_, ?_, ?_, ?_, ?_⟩
  · simp only [List.forall_mem_append, List.forall_mem_singleton]
    exact ⟨h.after, by simp [NoData]⟩
  · simp only [List.forall_mem_append, List.forall_mem_singleton]
    exact ⟨h.content, hd⟩
  · intro t ht
    cases ts with
    | nil =>
      obtain rfl : _ = t := by simpa using ht
      exact hfirst rfl
    | cons t₀ ts => exact h.first t (by simpa using ht)
  · refine List.isChain_append.mpr ⟨h.chain, .singleton _, fun t ht t' ht' => ?_⟩
    obtain rfl : _ = t' := by simpa using ht'
    exact hnext t ht
  · simp only [List.forall_mem_append, List.forall_mem_singleton]
    exact ⟨h.bound, hk⟩

/-! ### Runs -/

namespace TftpSessionV4

/-- What a run keeps, for the file `F` in blocks of `b` bytes. -/
structure Served (F : List UInt8) (b : ℕ) (client : AddressV4) (options : OptionsType)
    (control : Control) (prelude : List Event) (ts : List Transmission) : Prop where
  lockStep : LockStep F b client prelude ts
  /-- Before the OACK is acknowledged no DATA is sent. -/
  oackSent : ∀ n options' oack, control = .oackSent n options' oack → ts = [] ∧ options' = options
  /-- The reader is at the last block sent. -/
  dataSent : ∀ n reader, control = .dataSent n reader →
    TftpReader.Exact F reader ∧ ∃ t ∈ ts.getLast?, TftpReader.At F.length b t.block reader
  finished : ∀ reader, control = .finished reader →
    ∃ t ∈ ts.getLast?, t.block = F.length / b + 1 ∧ Acknowledged t.block t.after

variable {sys : System} {session : TftpSessionV4} {file : File} {options : OptionsType}

/-- The log of a state that is `Served`. -/
def ServedLog (F : List UInt8) (b : ℕ) (client : AddressV4) (options : OptionsType)
    (control : Control) (log : List Event) : Prop :=
  ∃ prelude ts, log = prelude ++ ts.flatMap Transmission.events ∧
    Served F b client options control prelude ts

theorem servedLog_thrown {F : List UInt8} {b : ℕ} {client : AddressV4} {e : Exception}
    {prelude : List Event} {ts : List Transmission} (h : LockStep F b client prelude ts)
    {es : List Event} (hes : NoData es) :
    ServedLog F b client options (.thrown e)
      (prelude ++ ts.flatMap Transmission.events ++ es) := by
  obtain ⟨prelude', ts', hlog, h', -, -⟩ := h.received hes
  exact ⟨prelude', ts', hlog, h', by simp, by simp, by simp⟩

/-- The packet sent for a block has its number and its bytes. -/
theorem content_datagram {F : List UInt8} {b k : ℕ} {reader : TftpReader}
    (hat : TftpReader.At F.length b k reader) (hexact : TftpReader.Exact F reader)
    (client : AddressV4) :
    (reader.datagram client).target = client ∧
      TftpPacket.ofBits (reader.datagram client).bits =
        .ok (.data ⟨UInt16.ofNat k, TftpReader.block F b k⟩) := by
  refine ⟨rfl, ?_⟩
  rw [TftpReader.datagram, TftpPacket.ofBits_dataBits, hexact.buffer, hat.blksiz, hat.number]

/-- An OACK is sent after a log without DATA. -/
theorem servedLog_oack {F : List UInt8} {b : ℕ} {log : List Event} (h : NoData log)
    (client : AddressV4) (options : OptionsType) (oack : DictionaryType) (n : ℕ) :
    ServedLog F b client options (.oackSent n options oack)
      (log ++ [.sent (oackDatagram oack client)]) := by
  refine ⟨_, [], by simp, lockStep_nil (h.append (noData_oackDatagram oack client)), ?_, ?_, ?_⟩
  · rintro _ _ _ ⟨⟩
    exact ⟨rfl, rfl⟩
  · rintro _ _ ⟨⟩
  · rintro _ ⟨⟩

/-- A block is sent by a reader that is at it. -/
theorem servedLog_sent {F : List UInt8} {b k n : ℕ} {client : AddressV4} {reader : TftpReader}
    {prelude log : List Event} {ts : List Transmission} (h : LockStep F b client prelude ts)
    (hat : TftpReader.At F.length b k reader) (hexact : TftpReader.Exact F reader)
    (hlog : log = prelude ++ ts.flatMap Transmission.events) (hfirst : ts = [] → k = 1)
    (hnext : ∀ t ∈ ts.getLast?, k = t.block ∨ k = t.block + 1 ∧ Acknowledged t.block t.after) :
    ServedLog F b client options (.dataSent n reader)
      (log ++ [.sent (reader.datagram client)]) := by
  have h' := h.transmitted (content_datagram hat hexact client)
    ⟨hat.number_pos, hat.number_le⟩ hfirst hnext
  refine ⟨prelude, _, ?_, h', ?_, ?_, ?_⟩
  · simp [hlog, Transmission.events]
  · rintro _ _ _ ⟨⟩
  · rintro _ _ ⟨⟩
    exact ⟨hexact, ⟨k, reader.datagram client, []⟩, by simp, hat⟩
  · rintro _ ⟨⟩

/-- **One outcome** keeps the invariant. -/
theorem servedLog_step (hstop : sys.NoStop)
    (hfile : sys.Finds session.filePath (.regular file true))
    (hmode : session.request.xfermode = lit "octet")
    (hsize : options.tsize = .ofNat file.content.length) (hb : 0 < options.blksize.toNat)
    (s : State) (o : RecvOutcome)
    (h : ServedLog file.content options.blksize.toNat session.remoteClient options s.control
      s.io.log) :
    ServedLog file.content options.blksize.toNat session.remoteClient options
      (step sys session s o).control (step sys session s o).io.log := by
  obtain ⟨control, io⟩ := s
  obtain ⟨prelude, ts, hlog, hserved⟩ := h
  dsimp only at hlog hserved
  have hreceived : ∀ {minor}, Minors session.filePath minor → NoData (.received o :: minor) :=
    fun hminor => (noData_received o).append hminor.noData
  cases control with
  | oackSent retryCounter options' oack =>
    obtain ⟨rfl, rfl⟩ := hserved.oackSent _ _ _ rfl
    obtain ⟨r, es, hcontrol, hlog', hes⟩ :=
      step_oackSent hstop session retryCounter options' oack io o
    rw [hcontrol, hlog', hlog]
    cases hes with
    | retransmits hminor hpos hle =>
      have h' := servedLog_oack (F := file.content) (b := options'.blksize.toNat)
        (hserved.lockStep.prelude.append (hreceived hminor)) session.remoteClient options' oack
      simpa using h' _
    | starts hack hreader hminor hpos hle =>
      have hnone := hserved.lockStep.prelude.append (hreceived hminor)
      obtain ⟨hat, hexact⟩ := hreader.at_exact hfile hmode hsize hb
      have hempty : LockStep file.content options'.blksize.toNat session.remoteClient _ [] :=
        lockStep_nil hnone
      simpa using servedLog_sent hempty hat hexact rfl (fun _ => rfl) (by simp)
    | throws e hminor => exact servedLog_thrown hserved.lockStep (hreceived hminor)
  | dataSent retryCounter reader =>
    obtain ⟨hexact, t, ht, hat⟩ := hserved.dataSent _ _ rfl
    obtain ⟨r, es, hcontrol, hlog', hes⟩ := step_dataSent hstop session retryCounter reader io o
    rw [hcontrol, hlog', hlog]
    have hnumber := hat.number
    -- what is received belongs to the last transmission
    have hkeep := fun {minor} (hminor : Minors session.filePath minor) =>
      hserved.lockStep.received (hreceived hminor)
    cases hes with
    | retransmits hminor hpos hle =>
      obtain ⟨prelude', ts', heq, hls, -, hlast⟩ := hkeep hminor
      obtain ⟨t', ht', hblock, -⟩ := hlast t ht
      have hts' : ts' ≠ [] := by rintro rfl; cases ht'
      have hsame : ∀ t'' ∈ ts'.getLast?, t.block = t''.block ∨
          t.block = t''.block + 1 ∧ Acknowledged t''.block t''.after := by
        intro t'' ht''
        obtain rfl := Option.some.inj (ht'.symm.trans ht'')
        exact .inl hblock.symm
      simpa using servedLog_sent hls hat hexact heq (fun h => absurd h hts') hsame
    | advances hack hlast hminor hpos hle =>
      obtain ⟨prelude', ts', heq, hls, -, hlast'⟩ := hkeep hminor
      obtain ⟨t', ht', hblock, hsub⟩ := hlast' t ht
      have hts' : ts' ≠ [] := by rintro rfl; cases ht'
      have hnext : ∀ t'' ∈ ts'.getLast?, t.block + 1 = t''.block ∨
          t.block + 1 = t''.block + 1 ∧ Acknowledged t''.block t''.after := by
        intro t'' ht''
        obtain rfl := Option.some.inj (ht'.symm.trans ht'')
        exact .inr ⟨by rw [hblock], o, hsub (by simp), by rwa [hblock, ← hnumber]⟩
      simpa using servedLog_sent hls (hat.next hlast) (hexact.next hat hlast) heq
        (fun h => absurd h hts') hnext
    | finishes hack hlast hminor =>
      obtain ⟨prelude', ts', heq, hls, -, hlast'⟩ := hkeep hminor
      obtain ⟨t', ht', hblock, hsub⟩ := hlast' t ht
      refine ⟨prelude', ts', heq, hls, ?_, ?_, ?_⟩
      · rintro _ _ _ ⟨⟩
      · rintro _ _ ⟨⟩
      · rintro _ ⟨⟩
        refine ⟨t', ht', ?_, o, hsub (by simp), by rwa [hblock, ← hnumber]⟩
        rw [hblock, hat.last_iff.mp hlast]
    | throws e hminor => exact servedLog_thrown hserved.lockStep (hreceived hminor)
  | finished reader => exact ⟨prelude, ts, hlog, hserved⟩
  | thrown e => exact ⟨prelude, ts, hlog, hserved⟩

/-- **The invariant of a session**, over every run. -/
theorem run_lockStep (hstop : sys.NoStop)
    (hfile : sys.Finds session.filePath (.regular file true))
    (hmode : session.request.xfermode = lit "octet")
    (huse : session.optionsInUse file = .ok options) (hb : 0 < options.blksize.toNat)
    (os : List RecvOutcome) :
    ServedLog file.content options.blksize.toNat session.remoteClient options
      (run sys session os).control (run sys session os).io.log := by
  have hsize := tsize_of_optionsInUse huse
  have hsizeOf := hfile.fileSize .fileSize
  refine run_induction ?_ (servedLog_step hstop hfile hmode hsize hb) os
  obtain ⟨r, hcontrol, hes⟩ := start_cases hstop session
  rw [hcontrol]
  generalize (start sys session).io.log = log at hes
  cases hes with
  | oackSent hsize' hoptions hparse hminor hpos hle =>
    obtain rfl := Except.ok.inj (hsize'.symm.trans hsizeOf)
    obtain rfl : _ = options := by simpa [optionsInUse, hparse] using huse
    exact servedLog_oack hminor.noData session.remoteClient _ _ _
  | dataSent hsize' hoptions hreader hminor hpos hle =>
    obtain rfl := Except.ok.inj (hsize'.symm.trans hsizeOf)
    obtain rfl : ⟨512, 1, .ofNat file.content.length⟩ = options := by
      simpa [optionsInUse, parseOptions_empty hoptions] using huse
    obtain ⟨hat, hexact⟩ := hreader.at_exact hfile hmode hsize hb
    simpa using servedLog_sent (lockStep_nil hminor.noData) hat hexact rfl (fun _ => rfl) (by simp)
  | throws e hminor =>
    exact ⟨_, [], by simp, lockStep_nil hminor.noData, by simp, by simp, by simp⟩

/-- **Lock-step.** For every octet session with blocks of at least one byte and everything that
can be received, the log is a prelude without DATA and then one transmission for each DATA packet:
they start at block 1, repeat a block or go to the next after an acknowledgement of it, never pass
block `|F| / b + 1`, and always carry the number and the bytes of their block. The data loop is
left only when the last block has been acknowledged. -/
theorem data_lock_step (hstop : sys.NoStop)
    (hfile : sys.Finds session.filePath (.regular file true))
    (hmode : session.request.xfermode = lit "octet")
    (huse : session.optionsInUse file = .ok options) (hb : 1 ≤ options.blksize.toNat)
    (os : List RecvOutcome) :
    ∃ prelude ts, (run sys session os).io.log = prelude ++ ts.flatMap Transmission.events ∧
      LockStep file.content options.blksize.toNat session.remoteClient prelude ts ∧
      ∀ reader, (run sys session os).control = .finished reader →
        ∃ t ∈ ts.getLast?, t.block = file.content.length / options.blksize.toNat + 1 ∧
          Acknowledged t.block t.after := by
  obtain ⟨prelude, ts, hlog, h⟩ := run_lockStep hstop hfile hmode huse hb os
  exact ⟨prelude, ts, hlog, h.lockStep, h.finished⟩

/-- Three bytes in blocks of two, with the first acknowledgement repeated. -/
theorem data_lock_step_three_bytes :
    let client : AddressV4 := ⟨1, 1024⟩
    let file : File := ⟨[65, 66, 67], by decide⟩
    let session : TftpSessionV4 :=
      ⟨Path.ofString (lit "./"), client, ⟨lit "a", lit "octet",
        UnorderedMap.emplace ∅ (lit "blksize") (lit "2")⟩⟩
    let ack := fun k => RecvOutcome.datagram client (TftpPacket.ackBits k)
    ∃ prelude ts,
      (run (.serving file) session [ack 0, ack 1, ack 1, ack 2]).io.log =
        prelude ++ ts.flatMap Transmission.events ∧
      LockStep [65, 66, 67] 2 client prelude ts ∧
      ∀ reader, (run (.serving file) session [ack 0, ack 1, ack 1, ack 2]).control =
        .finished reader → ∃ t ∈ ts.getLast?, t.block = 2 ∧ Acknowledged t.block t.after :=
  have huse : optionsInUse ⟨Path.ofString (lit "./"), ⟨1, 1024⟩, ⟨lit "a", lit "octet",
      UnorderedMap.emplace ∅ (lit "blksize") (lit "2")⟩⟩ ⟨[65, 66, 67], by decide⟩ =
      .ok ⟨2, 1, 3⟩ := by decide
  data_lock_step (System.noStop_serving _) (System.finds_serving _ _) rfl huse (by decide) _

end TftpSessionV4

end Bootpd
