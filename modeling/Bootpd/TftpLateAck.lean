import Bootpd.TftpHealthySteps
import Bootpd.TftpNetwork
import Mathlib.Data.List.Infix

/-!
# Late acknowledgements

A packet that is sent again is answered again, and when both answers arrive the second one comes
to a session that waits for another number. `validate_ack` lets only the awaited number through:
the late acknowledgement is answered by an ERROR packet, and an exception ends the session.

The client here answers every packet by itself, with no memory.

## The shape of the argument

The window says what can be on its way to the session: acknowledgements of the packet before its
own, and behind them acknowledgements of its own. So there are two cases for each receive. Either
the awaited acknowledgement is at the head of the channel, and the session goes on; or the one
before it is, and the session is at its end. A time-out ends nothing while retries are left, and
`Patient` says that they are. One action is `thrown_step_iff`; over a run the first late
acknowledgement is looked for.

## Scope

There is one budget of time-outs for all packets, `MAX_RETRIES - 1` without the last. The later
blocks need it; the OACK and the first block have one retry more, which is left out of account. As
everywhere in `TftpNetwork`, no datagram overtakes another. The sockets work, the file is there, and
nobody requests a stop, so that nothing else can end the session.

## Main definitions

* `acker` — the client
* `Late` — the next datagram for the session acknowledges the packet before its own
* `Patient` — the retries that are left make up for the time-outs

## Main results

* `Network.thrown_step_iff` — what one action does to a waiting session
* `TftpSessionV4.thrown_iff_late` — over a run, a late acknowledgement is the only thing that ends
  a session by an exception, and it always does
-/

namespace Bootpd

open Imperative StopAndWait

/-- A client that answers every packet by itself. -/
def acker : Client Unit := ⟨(), fun _ bits => ((), answer bits)⟩

theorem inStep_acker (Good : TftpReader → Prop) (size b : ℕ) :
    Network.InStep acker Good size b fun _ _ => True := by
  refine ⟨trivial, ?_⟩
  rintro _ k i bits - hpacket -
  change _ ∧ answer bits = none ∨ _ ∧ ∃ a, _ ∧ answer bits = some a
  cases hpacket with
  | oack oack =>
    exact .inr ⟨trivial, _, rfl, (answer_encode (by decide) _).trans (if_pos (by decide))⟩
  | data hat hgood =>
    exact .inr ⟨trivial, _, congrArg _ (congrArg _ hat.number), answer_dataBits ..⟩
  | error _ rest =>
    exact .inl ⟨trivial, (answer_encode (by decide) _).trans (if_neg (by decide))⟩

namespace Network

variable {σ : Type} {sys : System} {session : TftpSessionV4} {client : Client σ}
  {Good : TftpReader → Prop} {size : ℕ} {options : OptionsType} {net : Network σ} {p k n : ℕ}
  {reader : TftpReader} {longest : ℕ}

/-- The acknowledgement that the session would receive next is one of the packet before the one it
waits for. -/
def Late (net : Network σ) : Prop :=
  ∃ n reader, net.session.control = .dataSent n reader ∧
    net.toSession.head? = some (TftpPacket.ackBits (UInt16.ofNat (reader.number.toNat - 1)))

/-- The retries that are left make up for the time-outs. The first packet of a session has
`MAX_RETRIES`, every other one less. -/
structure Patient (net : Network σ) : Prop where
  oackSent : ∀ n options oack, net.session.control = .oackSent n options oack →
    maxRetries ≤ n + net.timeouts
  dataSent : ∀ n reader, net.session.control = .dataSent n reader →
    maxRetries - 1 ≤ n + net.timeouts

/-! ### Sessions that have ended -/

theorem sessionStep_ended (h : ¬net.session.control.Waiting) (o : RecvOutcome) :
    (net.sessionStep sys session o).session = net.session := by
  obtain ⟨⟨control, io⟩, c, toClient, toSession, block, timeouts⟩ := net
  cases control with
  | oackSent n options oack => exact absurd (Option.some_ne_none _) h
  | dataSent n reader => exact absurd (Option.some_ne_none _) h
  | finished reader => exact TftpSessionV4.step_finished reader io o
  | thrown e => exact TftpSessionV4.step_thrown e io o

theorem step_ended (sys : System) (session : TftpSessionV4) (client : Client σ)
    (h : ¬net.session.control.Waiting) (a : Action) :
    (step sys session client net a).session = net.session := by
  cases a with
  | timeout => exact sessionStep_ended h _
  | sessionReceives =>
    rw [step]
    split
    · rfl
    · exact sessionStep_ended h _
  | clientReceives =>
    rw [step]
    split <;> rfl
  | _ => rfl

theorem not_late_of_ended (h : ¬net.session.control.Waiting) : ¬Late net := by
  rintro ⟨n, reader, hcontrol, -⟩
  rw [hcontrol] at h
  exact h (Option.some_ne_none _)

theorem patient_of_ended (h : ¬net.session.control.Waiting) : Patient net := by
  constructor
  · intro n options oack hcontrol
    rw [hcontrol] at h
    exact absurd (Option.some_ne_none _) h
  · intro n reader hcontrol
    rw [hcontrol] at h
    exact absurd (Option.some_ne_none _) h

/-! ### Waiting sessions -/

/-- A waiting session that has not ended by an exception, after one action. -/
structure Goes (net' : Network σ) : Prop where
  patient : Patient net'
  alive : ∀ e, net'.session.control ≠ .thrown e

theorem goes_oackSent {oack : DictionaryType}
    (hcontrol : net.session.control = .oackSent n options oack)
    (hn : maxRetries ≤ n + net.timeouts) : Goes net := by
  refine ⟨⟨?_, ?_⟩, ?_⟩ <;> rw [hcontrol]
  · rintro _ _ _ ⟨⟩
    exact hn
  · rintro _ _ ⟨⟩
  · rintro _ ⟨⟩

theorem goes_dataSent (hcontrol : net.session.control = .dataSent n reader)
    (hn : maxRetries - 1 ≤ n + net.timeouts) : Goes net := by
  refine ⟨⟨?_, ?_⟩, ?_⟩ <;> rw [hcontrol]
  · rintro _ _ _ ⟨⟩
  · rintro _ _ ⟨⟩
    exact hn
  · rintro _ ⟨⟩

theorem goes_finished (hcontrol : net.session.control = .finished reader) : Goes net := by
  refine ⟨⟨?_, ?_⟩, ?_⟩ <;> rw [hcontrol]
  · rintro _ _ _ ⟨⟩
  · rintro _ _ ⟨⟩
  · rintro _ ⟨⟩

/-- What the session sends when a time-out comes has at most `longest` bytes. -/
structure Sendable (session : TftpSessionV4) (longest : ℕ) (control : Control) : Prop where
  oackSent : ∀ n options oack, control = .oackSent n options oack →
    (oackDatagram oack session.remoteClient).bits.length ≤ longest
  dataSent : ∀ n reader, control = .dataSent n reader →
    (reader.datagram session.remoteClient).bits.length ≤ longest

theorem sendable {file : File} (huse : session.optionsInUse file = .ok options)
    (h : Invariant Good file.content.length options net p k)
    (hannounces : Announces session file net.session.control) :
    Sendable session (session.longest file) net.session.control where
  oackSent n options' oack hcontrol :=
    TftpSessionV4.oack_le_longest (hannounces n options' oack hcontrol)
  dataSent n reader hcontrol :=
    (TftpSessionV4.length_datagram_le (h.dataSent n reader hcontrol).1 _).trans
      (TftpSessionV4.block_le_longest huse)

/-- **A time-out**, with retries left. -/
theorem goes_timeout (hsys : sys.Healthy longest) (hstop : sys.NoStop)
    (hsendable : Sendable session longest net.session.control)
    (hwait : net.session.control.Waiting) (hpatient : Patient net)
    (hbudget : (step sys session client net .timeout).timeouts < maxRetries - 1) :
    Goes (step sys session client net .timeout) := by
  obtain ⟨⟨control, io⟩, c, toClient, toSession, block, timeouts⟩ := net
  have htimeouts : (step sys session client ⟨⟨control, io⟩, c, toClient, toSession, block,
      timeouts⟩ .timeout).timeouts = timeouts + 1 := if_pos hwait
  rw [htimeouts, maxRetries] at hbudget
  cases control with
  | oackSent n options oack =>
    have hn := hpatient.oackSent n options oack rfl
    rw [maxRetries] at hn
    dsimp only at hn
    have hstep : TftpSessionV4.step sys session ⟨.oackSent n options oack, io⟩ .timedOut = _ :=
      TftpSessionV4.step_timedOut_oackSent hsys hstop options oack io
        (hsendable.oackSent n options oack rfl) (by omega)
    refine goes_oackSent (n := n - 1) (congrArg TftpSessionV4.State.control hstep) ?_
    rw [htimeouts, maxRetries]
    omega
  | dataSent n reader =>
    have hn := hpatient.dataSent n reader rfl
    rw [maxRetries] at hn
    dsimp only at hn
    have hstep : TftpSessionV4.step sys session ⟨.dataSent n reader, io⟩ .timedOut = _ :=
      TftpSessionV4.step_timedOut_dataSent hsys hstop io (hsendable.dataSent n reader rfl)
        (by omega)
    refine goes_dataSent (n := n - 1) (congrArg TftpSessionV4.State.control hstep) ?_
    rw [htimeouts, maxRetries]
    omega
  | finished reader => exact absurd rfl hwait
  | thrown e => exact absurd rfl hwait

/-- **An acknowledgement**: a late one ends the session by an exception, any other does not. -/
theorem goes_or_late (client : Client σ) {file : File} {readable : Bool}
    (hsys : sys.Healthy (session.longest file)) (hstop : sys.NoStop)
    (hfile : sys.Finds session.filePath (.regular file readable))
    (huse : session.optionsInUse file = .ok options)
    (halloc : sys.canAllocate options.blksize = true) (hwait : net.session.control.Waiting)
    (h : Invariant Good file.content.length options net p k) {bits : List UInt8}
    {rest : List (List UInt8)}
    (hback : net.toSession = bits :: rest) :
    (¬Late net ∧ Goes (step sys session client net .sessionReceives)) ∨
      Late net ∧ ∃ e, (step sys session client net .sessionReceives).session.control =
        .thrown e := by
  obtain ⟨⟨control, io⟩, c, toClient, toSession, block, timeouts⟩ := net
  obtain rfl : toSession = bits :: rest := hback
  obtain ⟨j, rfl, -, hj⟩ := h.window.accept
  cases control with
  | oackSent n options' oack =>
    obtain ⟨rfl, rfl⟩ := h.oackSent _ _ _ rfl
    obtain rfl : j = 0 := by omega
    obtain ⟨io', -, hexec⟩ := TftpSessionV4.exec_startTransfer hsys hstop hfile
      (TftpSessionV4.tsize_of_optionsInUse huse) (TftpSessionV4.block_le_longest huse)
      (io.push (.received (session.ackOf 0)))
    rw [halloc, if_pos rfl] at hexec
    have hstep := (TftpSessionV4.step_ack_oackSent (n := n) options' oack io).trans
      (congrArg TftpSessionV4.settle hexec)
    refine .inl ⟨?_, goes_dataSent (congrArg TftpSessionV4.State.control hstep)
      (Nat.le_add_right_of_le (by decide))⟩
    rintro ⟨_, _, ⟨⟩, -⟩
  | dataSent n reader =>
    obtain ⟨hat, -⟩ := h.dataSent _ _ rfl
    have hnumber := hat.number
    have hpos := hat.number_pos
    rcases hj with ⟨rfl, -⟩ | hj
    · subst hnumber
      refine .inl ⟨?_, ?_⟩
      · rintro ⟨_, _, ⟨⟩, hhead⟩
        have hbits := congrArg TftpPacket.ofBits (Option.some.inj hhead)
        rw [TftpPacket.ofBits_ackBits, TftpPacket.ofBits_ackBits] at hbits
        have hsame : UInt16.ofNat (reader.number.toNat - 1 + 1) =
            UInt16.ofNat (reader.number.toNat - 1) := by
          rw [Nat.sub_add_cancel hpos]
          simpa using hbits
        exact ofNat_succ_ne _ hsame
      · cases hlast : reader.last
        · have hstep : TftpSessionV4.step sys session ⟨.dataSent n reader, io⟩
              (session.ackOf reader.number) = _ :=
            TftpSessionV4.step_ack_next hsys hstop io
              ((TftpSessionV4.length_datagram_le (hat.next hlast) _).trans
                (TftpSessionV4.block_le_longest huse)) hlast
          exact goes_dataSent (congrArg TftpSessionV4.State.control hstep) le_self_add
        · have hstep : TftpSessionV4.step sys session ⟨.dataSent n reader, io⟩
              (session.ackOf reader.number) = _ := TftpSessionV4.step_ack_last io hlast
          exact goes_finished (congrArg TftpSessionV4.State.control hstep)
    · subst hnumber
      refine .inr ⟨⟨n, reader, rfl, ?_⟩, ?_⟩
      · rw [← hj, Nat.add_sub_cancel]
        rfl
      · have hne : UInt16.ofNat j ≠ UInt16.ofNat reader.number.toNat := by
          rw [← hj]
          exact (ofNat_succ_ne j).symm
        obtain ⟨io', hexec⟩ := TftpSessionV4.exec_awaitAck_ne hsys
          (TftpSessionV4.le_longest session file) session hne io
        refine ⟨_, congrArg TftpSessionV4.State.control (TftpSessionV4.step_of_error rfl ?_ hexec)⟩
        rintro what ⟨⟩
  | finished reader => exact absurd rfl hwait
  | thrown e => exact absurd rfl hwait

/-- **One action** on a waiting session, within its budget of time-outs. -/
theorem thrown_step_iff {file : File} {readable : Bool}
    (hsys : sys.Healthy (session.longest file)) (hstop : sys.NoStop)
    (hfile : sys.Finds session.filePath (.regular file readable))
    (huse : session.optionsInUse file = .ok options)
    (halloc : sys.canAllocate options.blksize = true) (hwait : net.session.control.Waiting)
    (h : Invariant Good file.content.length options net p k)
    (hannounces : Announces session file net.session.control) (hpatient : Patient net) (a : Action)
    (hbudget : (step sys session client net a).timeouts < maxRetries - 1) :
    Patient (step sys session client net a) ∧
      ((∃ e, (step sys session client net a).session.control = .thrown e) ↔
        a = .sessionReceives ∧ Late net) := by
  have hgoes : Goes (step sys session client net a) → ¬(a = .sessionReceives ∧ Late net) →
      Patient (step sys session client net a) ∧
        ((∃ e, (step sys session client net a).session.control = .thrown e) ↔
          a = .sessionReceives ∧ Late net) :=
    fun hgoes hlate => ⟨hgoes.patient,
      iff_of_false (fun ⟨e, he⟩ => hgoes.alive e he) hlate⟩
  -- an action that leaves the session as it is
  have hsame : (step sys session client net a).session = net.session →
      (step sys session client net a).timeouts = net.timeouts →
      Goes (step sys session client net a) := by
    intro hsession htimeouts
    refine ⟨⟨?_, ?_⟩, ?_⟩ <;> rw [hsession]
    · rw [htimeouts]
      exact hpatient.oackSent
    · rw [htimeouts]
      exact hpatient.dataSent
    · intro e he
      rw [he] at hwait
      exact hwait rfl
  cases a with
  | timeout =>
    exact hgoes (goes_timeout hsys hstop (sendable huse h hannounces) hwait hpatient hbudget)
      (by simp)
  | sessionReceives =>
    cases hback : net.toSession with
    | nil =>
      have hnone : step sys session client net .sessionReceives = net := by rw [step, hback]
      refine hgoes (hsame (by rw [hnone]) (by rw [hnone])) ?_
      rintro ⟨-, n, reader, -, hhead⟩
      rw [hback] at hhead
      cases hhead
    | cons bits rest =>
      rcases goes_or_late client hsys hstop hfile huse halloc hwait h hback with
        ⟨hlate, hgo⟩ | ⟨hlate, e, he⟩
      · exact hgoes hgo fun h => hlate h.2
      · refine ⟨patient_of_ended ?_, iff_of_true ⟨e, he⟩ ⟨rfl, hlate⟩⟩
        rw [he]
        exact fun h => h rfl
  | clientReceives =>
    refine hgoes (hsame ?_ ?_) (by simp) <;> rw [step] <;> split <;> rfl
  | loseToClient i => exact hgoes (hsame rfl rfl) (by simp)
  | loseToSession i => exact hgoes (hsame rfl rfl) (by simp)
  | repeatToClient i => exact hgoes (hsame rfl rfl) (by simp)
  | repeatToSession i => exact hgoes (hsame rfl rfl) (by simp)

end Network

/-! ### Runs -/

namespace TftpSessionV4

open Network

variable {sys : System} {session : TftpSessionV4} {file : File} {readable : Bool}
  {options : OptionsType}

/-- Of the readers of any transfer it is known where they are. -/
theorem reads_at (hfile : sys.Finds session.filePath (.regular file readable))
    (huse : session.optionsInUse file = .ok options) (hb : 1 ≤ options.blksize.toNat) :
    Reads sys session (fun _ => True) file.content.length options where
  first reader hreader := by
    rw [hreader.eq hfile (tsize_of_optionsInUse huse)]
    exact ⟨TftpReader.at_initial file hb _, trivial⟩
  next _ _ _ _ _ := trivial

/-- A session that is accepted waits, with all its retries. -/
theorem goes_start (hsys : sys.Healthy (session.longest file)) (hstop : sys.NoStop)
    (hmode : session.request.xfermode = lit "octet" ∨ session.request.xfermode = lit "netascii")
    (hfile : sys.Finds session.filePath (.regular file readable))
    (huse : session.optionsInUse file = .ok options)
    (halloc : sys.canAllocate options.blksize = true) :
    Goes (Network.start sys session acker) := by
  obtain ⟨io, -, hstart | ⟨oack, hstart⟩⟩ := start_of_optionsInUse hsys hstop hmode hfile huse
  · obtain ⟨io', -, hexec⟩ :=
      exec_startTransfer hsys hstop hfile (tsize_of_optionsInUse huse) (block_le_longest huse) io
    rw [halloc, if_pos rfl] at hexec
    rw [hexec] at hstart
    exact goes_dataSent (congrArg State.control hstart) (Nat.le_add_right_of_le (by decide))
  · exact goes_oackSent (congrArg State.control hstart) le_rfl

/-- **Late acknowledgements.** In every run of a session and a client that acknowledges every
packet once, in which no packet suffers `MAX_RETRIES - 1` consecutive time-outs: the session ends
by an exception exactly when it has received, in place of the acknowledgement of its block, one of
the packet before.

There is one budget of time-outs for all packets, which is that of the later blocks. The OACK and
block 1 survive one time-out more, so the condition asks for more than they need. -/
theorem thrown_iff_late (hsys : sys.Healthy (session.longest file)) (hstop : sys.NoStop)
    (hmode : session.request.xfermode = lit "octet" ∨ session.request.xfermode = lit "netascii")
    (hfile : sys.Finds session.filePath (.regular file readable))
    (huse : session.optionsInUse file = .ok options) (hb : 1 ≤ options.blksize.toNat)
    (halloc : sys.canAllocate options.blksize = true) (as : List Action)
    (hbudget : ∀ as', as' <+: as →
      (Network.run sys session acker as').timeouts < maxRetries - 1) :
    (∃ e, (Network.run sys session acker as).session.control = .thrown e) ↔
      ∃ as', as' ++ [.sessionReceives] <+: as ∧ Late (Network.run sys session acker as') := by
  have hreads := reads_at hfile huse hb
  suffices h : Patient (Network.run sys session acker as) ∧
      ((∃ e, (Network.run sys session acker as).session.control = .thrown e) ↔
        ∃ as', as' ++ [.sessionReceives] <+: as ∧
          Late (Network.run sys session acker as')) from h.2
  induction as using List.reverseRecOn with
  | nil =>
    have hgoes := goes_start hsys hstop hmode hfile huse halloc
    refine ⟨hgoes.patient, iff_of_false (fun ⟨e, he⟩ => hgoes.alive e he) ?_⟩
    rintro ⟨as', hprefix, -⟩
    simpa using List.prefix_nil.mp hprefix
  | append_singleton as a ih =>
    obtain ⟨hpatient, hiff⟩ := ih fun as' has' => hbudget as' (has'.trans (List.prefix_append ..))
    have hrun : Network.run sys session acker (as ++ [a]) =
        Network.step sys session acker (Network.run sys session acker as) a := by
      rw [Network.run, List.foldl_append]
      rfl
    -- a late acknowledgement now, or before
    have hsplit : (∃ as', as' ++ [.sessionReceives] <+: as ++ [a] ∧
          Late (Network.run sys session acker as')) ↔
        (a = .sessionReceives ∧ Late (Network.run sys session acker as)) ∨
          ∃ as', as' ++ [.sessionReceives] <+: as ∧
            Late (Network.run sys session acker as') := by
      simp only [List.prefix_concat_iff, or_and_right, exists_or]
      refine or_congr_left ⟨?_, ?_⟩
      · rintro ⟨as', heq, hlate⟩
        obtain ⟨rfl, ha⟩ := List.append_inj' heq rfl
        exact ⟨(List.singleton_inj.mp ha).symm, hlate⟩
      · rintro ⟨rfl, hlate⟩
        exact ⟨as, rfl, hlate⟩
    rw [hrun, hsplit]
    by_cases hwait : (Network.run sys session acker as).session.control.Waiting
    · obtain ⟨p, k, h, -⟩ :=
        invariant_run hstop hfile huse hreads (inStep_acker _ _ _) as
      have hnot : ¬∃ e, (Network.run sys session acker as).session.control = .thrown e := by
        rintro ⟨e, he⟩
        rw [he] at hwait
        exact hwait rfl
      have hnow := hbudget (as ++ [a]) List.prefix_rfl
      rw [hrun] at hnow
      rw [← hiff, or_iff_left hnot]
      exact thrown_step_iff hsys hstop hfile huse halloc hwait h (announces_run hstop hfile as)
        hpatient a hnow
    · have hended := step_ended sys session acker hwait a
      rw [or_iff_right (fun h => not_late_of_ended hwait h.2), ← hiff, hended]
      refine ⟨patient_of_ended ?_, Iff.rfl⟩
      rwa [hended]

/-- Three bytes in blocks of two, and nothing late. -/
theorem thrown_iff_late_three_bytes :
    let file : File := ⟨[65, 66, 67], by decide⟩
    let session : TftpSessionV4 :=
      ⟨Path.ofString (lit "./"), ⟨1, 1024⟩, ⟨lit "a", lit "octet",
        UnorderedMap.emplace ∅ (lit "blksize") (lit "2")⟩⟩
    let run := Network.run (.serving file) session acker
    (∃ e, (run [.timeout, .clientReceives, .sessionReceives]).session.control = .thrown e) ↔
      ∃ as', as' ++ [.sessionReceives] <+: [.timeout, .clientReceives, .sessionReceives] ∧
        Late (run as') := by
  have huse : optionsInUse ⟨Path.ofString (lit "./"), ⟨1, 1024⟩, ⟨lit "a", lit "octet",
      UnorderedMap.emplace ∅ (lit "blksize") (lit "2")⟩⟩ ⟨[65, 66, 67], by decide⟩ =
      .ok ⟨2, 1, 3⟩ := by decide
  refine thrown_iff_late (System.healthy_serving _) (System.noStop_serving _) (.inl rfl)
    (System.finds_serving _ _) huse
    (by decide) rfl _ ?_
  simp_rw [← List.mem_inits]
  decide +kernel

/-- **A late acknowledgement ends a session**: block 1 is sent twice and acknowledged twice, and
the second acknowledgement comes while block 2 is under way. -/
theorem late_ack_throws :
    let file : File := ⟨[65, 66, 67], by decide⟩
    let session : TftpSessionV4 :=
      ⟨Path.ofString (lit "./"), ⟨1, 1024⟩, ⟨lit "a", lit "octet",
        UnorderedMap.emplace ∅ (lit "blksize") (lit "2")⟩⟩
    let run := Network.run (.serving file) session acker
    let as : List Action := [.clientReceives, .sessionReceives, .timeout, .clientReceives,
      .clientReceives, .sessionReceives, .sessionReceives]
    (∀ as', as' <+: as → (run as').timeouts < maxRetries) ∧
      (run as).session.control = .thrown (unexpectedAck 2 1) := by
  simp_rw [← List.mem_inits]
  decide +kernel

end TftpSessionV4

end Bootpd
