import Bootpd.TftpGrammar
import Bootpd.TftpTimeouts

/-!
# What the OACK says and what the transfer does

The texts of `blksize` and `timeout` are put into the OACK as the client wrote them, and the numbers
the session goes by are what `std::stoull` makes of them. The text of `tsize` is written by the
session itself.

## What an OACK states

A client takes an OACK at its word: the name of an option means that it is in force, and the text is
its value, in decimal digits. `OackHolds` is this for the three options. The block size is the one
of the reader, and its DATA packets can be sent; the time-out is the one of the socket; the size is
that of the file. It is asked of an OACK datagram that has been sent, as it is read by its receiver,
and of everything that the session does from then on.

`std::stoull` accepts more than decimal digits: blanks in front, a sign, and anything behind the
number. It also accepts numbers that a block size or a time-out cannot be. `PlainNumbers` is what is
left, and it depends on the request and the size of the file alone.

## How the datagrams are known

`Sending` lists what has to be known of the calls of a session to know all events of its log. It is
used twice, for the size of the DATA packets and for the one OACK that a session can send.

## Main definitions

* `TftpSessionV4.OackHolds`, `TftpSessionV4.StatesTransfer` — an OACK that says what is done
* `TftpSessionV4.PlainNumbers` — the texts of a request for which it does

## Main results

* `TftpSessionV4.mem_oack_iff` — the names of the OACK
* `TftpSessionV4.goesBy_run` — the options a session goes by, along every run
* `TftpSessionV4.fits_run` — the size of its datagrams
* `TftpSessionV4.statesTransfer_iff` — the requests whose OACK states what the transfer does
-/

namespace Bootpd

open Imperative SocketUdp

/-- The datagram an event sends or tries to send. -/
def Event.datagram : Event → Option Datagram
  | .sent d | .sendFailed d _ => some d
  | .received _ | .opened _ => none

/-- A DATA packet that an event sends or tries to send fits the limit for UDP. -/
def Event.Fits (ev : Event) : Prop :=
  ∀ d payload, ev.datagram = some d → TftpPacket.ofBits d.bits = .ok (.data payload) →
    d.bits.length ≤ 65507

/-- The reader a session holds. -/
def Control.reader : Control → Option TftpReader
  | .dataSent _ reader | .finished reader => some reader
  | .oackSent .. | .thrown _ => none

namespace TftpSessionV4

/-- What an OACK is to say of a session that is in the state `s` later on. -/
structure OackHolds (session : TftpSessionV4) (file : File) (oack : DictionaryType) (s : State) :
    Prop where
  names : ∀ name, name ∈ oack ↔ name ∈ session.request.options ∧
    name ∈ [lit "blksize", lit "timeout", lit "tsize"]
  decimal : ∀ name text, oack.lookup name = some text → IsDecimal text
  blksize : ∀ text reader, oack.lookup (lit "blksize") = some text →
    s.control.reader = some reader → reader.blksiz.toNat = denoted 10 text
  timeout : ∀ text, oack.lookup (lit "timeout") = some text → InTransfer s.control →
    s.io.soRcvtimeo.toNat = 1000 * denoted 10 text
  tsize : ∀ text, oack.lookup (lit "tsize") = some text → denoted 10 text = file.content.length
  fits : (lit "blksize") ∈ oack → ∀ ev ∈ s.io.log, ev.Fits

/-- Whatever the system answers otherwise and whatever is received, an OACK datagram that has been
sent, as its receiver reads it, says what the rest of the session does. -/
def StatesTransfer (session : TftpSessionV4) (file : File) : Prop :=
  ∀ sys readable, sys.Finds session.filePath (.regular file readable) →
    ∀ os os' d payload, .sent d ∈ (run sys session os).io.log →
      TftpPacket.ofBits d.bits = .ok (.oack payload) →
        OackHolds session file payload.options (run sys session (os ++ os'))

variable {sys : System} {session : TftpSessionV4} {file : File} {readable : Bool}
  {options : OptionsType} {reader : TftpReader}

/-! ### The texts -/

theorem mem_iff_lookup {dict : DictionaryType} {name : StdString} :
    name ∈ dict ↔ ∃ text, dict.lookup name = some text := by
  rw [← AList.lookup_isSome, Option.isSome_iff_exists]

/-- The names of the OACK. -/
theorem mem_oack_iff {options' : OptionsType} {dict oack : DictionaryType}
    (h : parseOptions options dict = .ok (options', oack)) (name : StdString) :
    name ∈ oack ↔ name ∈ dict ∧ name ∈ [lit "blksize", lit "timeout", lit "tsize"] := by
  rw [mem_iff_lookup, lookup_oack h]
  simp only [List.mem_cons, List.not_mem_nil, or_false]
  by_cases hnumber : name = lit "blksize" ∨ name = lit "timeout"
  · rw [if_pos hnumber, ← mem_iff_lookup]
    exact ⟨fun h => ⟨h, hnumber.imp_right .inl⟩, And.left⟩
  · rw [if_neg hnumber]
    by_cases hsize : name = lit "tsize" ∧ name ∈ dict
    · rw [if_pos hsize]
      exact ⟨fun _ => ⟨hsize.2, .inr (.inr hsize.1)⟩, fun _ => ⟨_, rfl⟩⟩
    · rw [if_neg hsize]
      constructor
      · rintro ⟨_, ⟨⟩⟩
      · rintro ⟨hmem, hname⟩
        rw [← or_assoc] at hname
        exact absurd ⟨hname.resolve_left hnumber, hmem⟩ hsize

/-! ### The blocks -/

/-- A reader with the block size of the options, whose block is no larger than that or than the
file. -/
def Within (file : File) (options : OptionsType) (reader : TftpReader) : Prop :=
  reader.blksiz = options.blksize ∧
    reader.buffer.length ≤ min options.blksize.toNat file.content.length

theorem FirstReader.within (h : FirstReader sys session options reader)
    (hfile : sys.Finds session.filePath (.regular file readable))
    (hsize : options.tsize = .ofNat file.content.length) : Within file options reader := by
  rw [h.eq hfile hsize]
  refine ⟨?_, (length_buffer_firstReader sys session file options).le⟩
  rw [firstReader]
  exact TftpReader.blksiz_next _

/-- A block that is not the last one is full, so the next one is no larger. -/
theorem Within.next (h : Within file options reader) (hlast : reader.last = false) :
    Within file options reader.next := by
  obtain ⟨hblksiz, hbuffer⟩ := h
  rw [TftpReader.last, decide_eq_false_iff_not, hblksiz] at hlast
  have hnext := toNat_nextLength_le reader
  rw [hblksiz] at hnext
  refine ⟨(TftpReader.blksiz_next reader).trans hblksiz, ?_⟩
  rw [TftpReader.length_buffer_next]
  omega

/-- A session that sends `file` by the options `options`, and answers the request with `oack`. -/
structure Answers (session : TftpSessionV4) (file : File) (options : OptionsType)
    (oack : DictionaryType) : Prop where
  supported : Supported session.request.xfermode
  parse : parseOptions ⟨512, 1, .ofNat file.content.length⟩ session.request.options =
    .ok (options, oack)

/-- The place of a session that goes by the options `options` and answers them with `oack`. -/
def GoesBy (file : File) (options : OptionsType) (oack : DictionaryType) : Control → Prop
  | .oackSent _ options' oack' => options' = options ∧ oack' = oack
  | .dataSent _ reader | .finished reader => Within file options reader
  | .thrown _ => True

theorem GoesBy.next {oack : DictionaryType}
    (hfile : sys.Finds session.filePath (.regular file readable))
    (hsize : options.tsize = .ofNat file.content.length) {control control' : Control}
    (h : GoesBy file options oack control) (hnext : Next sys session control control') :
    GoesBy file options oack control' := by
  cases hnext with
  | oackSent => exact h
  | starts hreader | startsStopped hreader =>
    obtain ⟨rfl, -⟩ := h
    exact hreader.within hfile hsize
  | dataSent | finishes => exact h
  | advances hlast | advancesStopped hlast => exact Within.next h hlast
  | throws => trivial
  | ended => exact h

/-- **The options along a run.** -/
theorem goesBy_run (hfile : sys.Finds session.filePath (.regular file readable))
    (os : List RecvOutcome) :
    (∃ e, (run sys session os).control = .thrown e) ∨
      ∃ options oack, Answers session file options oack ∧
        GoesBy file options oack (run sys session os).control := by
  have hfileSize := hfile.fileSize .fileSize
  refine run_induction (P := fun s => (∃ e, s.control = .thrown e) ∨ ∃ options oack,
    Answers session file options oack ∧ GoesBy file options oack s.control) ?_ ?_ os
  · have hstart := starts_start sys session
    generalize (start sys session).control = control at hstart
    cases hstart with
    | oackSent hmode hsize hparse =>
      obtain rfl := Except.ok.inj (hfileSize.symm.trans hsize)
      exact .inr ⟨_, _, ⟨hmode, hparse⟩, rfl, rfl⟩
    | begins hmode hsize hparse hbegins =>
      obtain rfl := Except.ok.inj (hfileSize.symm.trans hsize)
      refine .inr ⟨_, _, ⟨hmode, hparse⟩, ?_⟩
      cases hbegins with
      | dataSent hreader | finished hreader =>
        exact hreader.within hfile (tsize_of_parseOptions hparse)
    | thrown e => exact .inl ⟨e, rfl⟩
  · rintro s o (⟨e, hthrown⟩ | ⟨options, oack, hanswers, hgoes⟩)
    · obtain ⟨control, io⟩ := s
      obtain rfl : control = .thrown e := hthrown
      exact .inl ⟨e, rfl⟩
    · exact .inr ⟨options, oack, hanswers,
        hgoes.next hfile (tsize_of_parseOptions hanswers.parse) (next_step sys session s o)⟩

/-! ### The datagrams of a session -/

/-- What has to be known of the events of its calls to know all events of a session. -/
structure Sending (sys : System) (session : TftpSessionV4) (file : File) (E : Event → Prop) :
    Prop where
  received : ∀ o, E (.received o)
  opened : E (.opened session.filePath)
  error : ∀ payload target, LogsOnly IoState.log (send sys (TftpPacket.error payload) target) E
  data : ∀ options oack reader, Answers session file options oack → Within file options reader →
    LogsOnly IoState.log (send sys reader.data session.remoteClient) E
  oack : ∀ options oack, Answers session file options oack →
    LogsOnly IoState.log (send sys (TftpPacket.makeOack oack) session.remoteClient) E

section Sending

variable {E : Event → Prop} {oack : DictionaryType}

theorem logsOnly_event {ev : Event} (h : E ev) :
    LogsOnly IoState.log (modify fun s => s.push ev : SessionM PUnit) E := by
  refine fun s => ⟨[ev], rfl, fun ev' hev => ?_⟩
  obtain rfl := List.mem_singleton.mp hev
  exact h

theorem Quiet.logsOnly {α : Type} {x : SessionM α} (h : Quiet x) : LogsOnly IoState.log x E :=
  h.mono fun _ es hes => by simp [hes]

/-- `validate_request` lets no other mode pass. -/
theorem logs_supported : Logs IoState.log (validateRequest sys session)
    fun r _ => ∀ u, r = .ok u → Supported session.request.xfermode := by
  rw [validateRequest]
  split_ifs with hmode
  · refine (logs_reject _ _).mono ?_
    rintro r es ⟨⟨e, rfl⟩, -⟩ u ⟨⟩
  · exact Logs.pure fun _ _ => by_contra fun h => hmode (not_or.mp h)

namespace Sending

theorem dataLoop (h : Sending sys session file E) (hanswers : Answers session file options oack)
    (hwithin : Within file options reader) (n : ℕ) :
    LogsOnly IoState.log (dataLoop sys session reader n) E :=
  compositional_sendLoop (LogsOnly.compositional _ _) (h.data _ _ _ hanswers hwithin)
    (LogsOnly.pure _) (LogsOnly.throw _) n

theorem startTransfer (h : Sending sys session file E)
    (hfile : sys.Finds session.filePath (.regular file readable))
    (hanswers : Answers session file options oack) :
    LogsOnly IoState.log (startTransfer sys session options) E := by
  have hmake : LogsOnly IoState.log (TftpReader.make sys session.filePath options.tsize
      options.blksize (session.request.xfermode == lit "octet")) E :=
    compositional_makeReader (LogsOnly.compositional _ _) _ (logsOnly_event h.opened) _ _ _
  rw [TftpSessionV4.startTransfer]
  exact LogsOnly.bind (Quiet.logsOnly (quiet_timeout _ _)) fun _ => hmake.bind_of_logs
    ((logs_makeReader options).mono fun _ _ h => h.2) fun reader hreader =>
      h.dataLoop hanswers (hreader.within hfile (tsize_of_parseOptions hanswers.parse)) maxRetries

theorem oackLoop (h : Sending sys session file E)
    (hfile : sys.Finds session.filePath (.regular file readable))
    (hanswers : Answers session file options oack) (n : ℕ) :
    LogsOnly IoState.log (oackLoop sys session options oack n) E :=
  compositional_sendLoop (LogsOnly.compositional _ _) (h.oack _ _ hanswers)
    (h.startTransfer hfile hanswers) ((h.error _ _).bind fun _ => LogsOnly.throw _) n

theorem ioThread (h : Sending sys session file E)
    (hfile : sys.Finds session.filePath (.regular file readable)) :
    LogsOnly IoState.log (ioThread sys session) E := by
  have hC := LogsOnly.compositional (ε := Exception) IoState.log E
  rw [TftpSessionV4.ioThread]
  refine LogsOnly.bind (Quiet.logsOnly quiet_make) fun _ =>
    LogsOnly.bind (Quiet.logsOnly (quiet_timeout _ _)) fun _ =>
    (compositional_validateRequest hC h.error session).bind_of_logs
      logs_supported fun _ hmode =>
    LogsOnly.bind (compositional_validateFilepath hC h.error session _) fun _ =>
    logs_liftExcept_bind (by simp) fun tsize hsize => ?_
  obtain rfl := Except.ok.inj ((hfile.fileSize .fileSize).symm.trans hsize)
  split_ifs with hempty
  · exact h.startTransfer hfile ⟨hmode, parseOptions_empty hempty _⟩
  · refine logs_liftExcept_bind (by simp) ?_
    rintro ⟨options, oack⟩ hparse
    exact h.oackLoop hfile ⟨hmode, hparse⟩ maxRetries

theorem resume (h : Sending sys session file E)
    (hfile : sys.Finds session.filePath (.regular file readable))
    (hanswers : Answers session file options oack) {control : Control}
    (hgoes : GoesBy file options oack control) (o : RecvOutcome) :
    LogsOnly IoState.log (resume sys session control o) E := by
  have hC := LogsOnly.compositional (ε := Exception) IoState.log E
  have hrecv : ∀ o, LogsOnly IoState.log (recv o) E := fun o =>
    (logsOnly_event (h.received o)).bind fun _ => LogsOnly.liftExcept _
  have hawait : ∀ number, LogsOnly IoState.log (awaitAck sys session number o) E :=
    fun number => compositional_awaitAck hC h.error hrecv session number o
  cases control with
  | oackSent c options' oack' =>
    obtain ⟨rfl, rfl⟩ := hgoes
    exact (hawait 0).observing.bind fun r => compositional_onTimeout hC r
      (h.oackLoop hfile hanswers _) fun _ => h.startTransfer hfile hanswers
  | dataSent c reader =>
    refine (hawait reader.number).observing.bind fun r => compositional_onTimeout hC r
      (h.dataLoop hanswers hgoes _) fun _ => ?_
    split_ifs with hlast
    · exact LogsOnly.pure _
    · exact h.dataLoop hanswers (Within.next hgoes (Bool.eq_false_iff.mpr hlast)) _
  | finished reader => exact LogsOnly.pure _
  | thrown e => exact LogsOnly.pure _

/-- **All events of a session**, from those of its calls. -/
theorem run (h : Sending sys session file E)
    (hfile : sys.Finds session.filePath (.regular file readable)) (os : List RecvOutcome) :
    ∀ ev ∈ (run sys session os).io.log, E ev := by
  induction os using List.reverseRecOn with
  | nil =>
    obtain ⟨es, hlog, hes⟩ := h.ioThread hfile ⟨[], 0, 0⟩
    intro ev hev
    rw [show (TftpSessionV4.run sys session []).io.log = es from hlog] at hev
    exact hes ev hev
  | append_singleton os o ih =>
    rw [run_append_singleton]
    rcases goesBy_run hfile os with ⟨e, hthrown⟩ | ⟨options, oack, hanswers, hgoes⟩
    · rw [step, hthrown]
      exact ih
    · obtain ⟨es, hlog, hes⟩ :=
        h.resume hfile hanswers hgoes o (TftpSessionV4.run sys session os).io
      intro ev hev
      rw [step, settle, hlog] at hev
      exact (List.mem_append.mp hev).elim (ih ev) (hes ev)

end Sending

/-- What is known of a datagram is known of its send. -/
theorem logsOnly_send {packet : TftpPacket} {bits : List UInt8}
    (hbits : serializeToVector packet = .ok bits) (target : AddressV4)
    (h : ∀ ev : Event, ev.datagram = some ⟨target, bits⟩ → E ev) :
    LogsOnly IoState.log (send sys packet target) E := by
  refine (logs_send hbits target).mono ?_
  rintro r es (_ | e) ev hev
  · obtain rfl := List.mem_singleton.mp hev
    exact h _ rfl
  · obtain rfl := List.mem_singleton.mp hev
    exact h _ rfl

end Sending

/-! ### The size of the datagrams -/

/-- What a session of `file` goes by is small. -/
def Small (session : TftpSessionV4) (file : File) : Prop :=
  ∀ options oack, Answers session file options oack →
    min options.blksize.toNat file.content.length + 4 ≤ 65507

theorem sending_fits (sys : System) (hsmall : Small session file) :
    Sending sys session file Event.Fits := by
  have hnodata : ∀ {op : UInt16} {rest : List UInt8} {target : AddressV4} {ev : Event},
      op ≠ tftpOpcodeData → ev.datagram = some ⟨target, Scalar.encode .network op ++ rest⟩ →
      ev.Fits := by
    intro op rest target ev hop hev d payload hd hdata
    obtain rfl := Option.some.inj (hev.symm.trans hd)
    exact absurd hdata (TftpPacket.not_data_of_opcode hop _ payload)
  constructor
  case received | opened => intros; rintro d payload ⟨⟩
  case error =>
    intro payload target
    exact logsOnly_send (TftpPacket.serialize_error payload) target fun ev => hnodata (by decide)
  case oack =>
    intro options oack _
    exact logsOnly_send (TftpPacket.serialize_oack ⟨oack⟩) _ fun ev => hnodata (by decide)
  case data =>
    intro options oack reader hanswers hwithin
    refine logsOnly_send (serialize_readerData reader session.remoteClient) _ ?_
    intro ev hev d payload hd _
    obtain rfl := Option.some.inj (hev.symm.trans hd)
    have hlength := length_datagram reader session.remoteClient
    have hle := hwithin.2
    have hbound := hsmall options oack hanswers
    dsimp only at hlength ⊢
    omega

/-- **The datagrams of a session**, when the block size of its options or its file is small. -/
theorem fits_run (hfile : sys.Finds session.filePath (.regular file readable))
    (hsmall : Small session file) (os : List RecvOutcome) :
    ∀ ev ∈ (run sys session os).io.log, ev.Fits :=
  (sending_fits sys hsmall).run hfile os

/-! ### The OACK on the wire -/

/-- An OACK that an event sends is the one of the session. -/
def SendsOack (session : TftpSessionV4) (file : File) (ev : Event) : Prop :=
  ∀ d payload, ev.datagram = some d → TftpPacket.ofBits d.bits = .ok (.oack payload) →
    ∃ options oack, Answers session file options oack ∧ d = oackDatagram oack session.remoteClient

/-- A packet of another opcode is not read as an OACK. -/
theorem not_oack_of_opcode {op : UInt16} (hop : op ≠ tftpOpcodeOack) (rest : List UInt8)
    (payload : TypeOack) :
    TftpPacket.ofBits (Scalar.encode .network op ++ rest) ≠ .ok (.oack payload) := by
  intro h
  rcases TftpPacket.opcode_ofBits h with h | h
  · cases h
  · exact hop (Except.ok.inj h).symm

theorem sending_sendsOack (sys : System) (session : TftpSessionV4) (file : File) :
    Sending sys session file (SendsOack session file) := by
  have hnooack : ∀ {op : UInt16} {rest : List UInt8} {target : AddressV4} {ev : Event},
      op ≠ tftpOpcodeOack → ev.datagram = some ⟨target, Scalar.encode .network op ++ rest⟩ →
      SendsOack session file ev := by
    intro op rest target ev hop hev d payload hd hoack
    obtain rfl := Option.some.inj (hev.symm.trans hd)
    exact absurd hoack (not_oack_of_opcode hop _ payload)
  constructor
  case received | opened => intros; rintro d payload ⟨⟩
  case error =>
    intro payload target
    exact logsOnly_send (TftpPacket.serialize_error payload) target fun ev => hnooack (by decide)
  case data =>
    intro options oack reader _ _
    exact logsOnly_send (serialize_readerData reader session.remoteClient) _
      fun ev => hnooack (by decide)
  case oack =>
    intro options oack hanswers
    refine logsOnly_send (TftpPacket.serialize_oack ⟨oack⟩) _ ?_
    intro ev hev d payload hd _
    exact ⟨options, oack, hanswers, (Option.some.inj (hev.symm.trans hd)).symm⟩

theorem nulFree_of_isDecimal {text : StdString} (h : IsDecimal text) : TftpPacket.NulFree text :=
  fun hmem => absurd (h.2 0 hmem) (by decide)

/-- The texts of a request that has come in a datagram. -/
theorem nulFree_of_ofBits {bits : List UInt8} {request : TypeRrq}
    (h : TftpPacket.ofBits bits = .ok (.rrq request)) {name text : StdString}
    (htext : request.options.lookup name = some text) : TftpPacket.NulFree text := by
  cases TftpPacket.derives_of_ofBits h with
  | rrq _ _ hpairs hoptions =>
    rw [hoptions] at htext
    obtain ⟨before, after, rfl, -⟩ := List.lookup_eq_some_iff.mp htext
    exact (hpairs (name, text) (by simp)).2

/-- **The OACK is read as it was written**, if the texts of the request can be. -/
theorem ofBits_oackDatagram {oack : DictionaryType} (hanswers : Answers session file options oack)
    (hnul : ∀ name text, session.request.options.lookup name = some text →
      TftpPacket.NulFree text) :
    ∃ dict : DictionaryType, TftpPacket.ofBits (oackDatagram oack session.remoteClient).bits =
      .ok (.oack ⟨dict⟩) ∧ ∀ name, dict.lookup name = oack.lookup name := by
  have hpairs : TftpPacket.NulFreePairs oack.toList := by
    rintro ⟨name, text⟩ hmem
    have htext := UnorderedMap.lookup_of_mem_toList hmem
    have hname := ((mem_oack_iff hanswers.parse name).mp (mem_iff_lookup.mpr ⟨text, htext⟩)).2
    rw [lookup_oack hanswers.parse] at htext
    refine ⟨?_, ?_⟩
    · show TftpPacket.NulFree name
      clear htext
      simp only [List.mem_cons, List.not_mem_nil, or_false] at hname
      rcases hname with rfl | rfl | rfl <;> decide
    · split_ifs at htext
      · exact hnul _ _ htext
      · rw [← Option.some.inj htext]
        exact nulFree_of_isDecimal (isDecimal_toString _)
  obtain ⟨packet, hpacket, hsame⟩ := TftpPacket.ofBits_of_derives
    (.oack hpairs (TftpPacket.firstWins_toList oack))
  cases hsame with
  | refl => exact ⟨oack, hpacket, fun _ => rfl⟩
  | oack hlookup => exact ⟨_, hpacket, hlookup⟩

/-! ### The requests whose OACK states the transfer -/

/-- The numbers of a request are written in decimal digits, the blocks of the file fit into a
datagram, and the milliseconds into 32 bits. -/
structure PlainNumbers (dict : DictionaryType) (file : File) : Prop where
  blksize : ∀ text, dict.lookup (lit "blksize") = some text →
    IsDecimal text ∧ min (denoted 10 text) file.content.length + 4 ≤ 65507
  timeout : ∀ text, dict.lookup (lit "timeout") = some text →
    IsDecimal text ∧ 1000 * denoted 10 text < 2 ^ 32

/-- What holds of a dictionary holds of any that has the same entries. -/
theorem OackHolds.congr {dict oack : DictionaryType} {s : State}
    (h : OackHolds session file dict s) (hlookup : ∀ name, dict.lookup name = oack.lookup name) :
    OackHolds session file oack s where
  names name := by rw [mem_iff_lookup, ← hlookup, ← mem_iff_lookup, h.names]
  decimal name text := by rw [← hlookup]; exact h.decimal name text
  blksize text reader := by rw [← hlookup]; exact h.blksize text reader
  timeout text := by rw [← hlookup]; exact h.timeout text
  tsize text := by rw [← hlookup]; exact h.tsize text
  fits := by rw [mem_iff_lookup, ← hlookup, ← mem_iff_lookup]; exact h.fits

/-- **The first block after the OACK**, when nothing fails. -/
theorem run_ackOf_zero {oack : DictionaryType}
    (hempty : session.request.options.entries.isEmpty = false)
    (hanswers : Answers session file options oack) :
    .sent (oackDatagram oack session.remoteClient) ∈ (run (.serving file) session []).io.log ∧
      (run (.serving file) session [session.ackOf 0]).control =
        .dataSent maxRetries (firstReader (.serving file) session file options) ∧
      .sent ((firstReader (.serving file) session file options).datagram session.remoteClient) ∈
        (run (.serving file) session [session.ackOf 0]).io.log := by
  have hsys : (System.serving file).Healthy (session.longest file) := System.healthy_serving file
  have hstop := System.noStop_serving file
  have hfile : (System.serving file).Finds session.filePath (.regular file true) :=
    System.finds_serving file _
  have huse : session.optionsInUse file = .ok options := by
    rw [optionsInUse, hanswers.parse]
    rfl
  obtain ⟨io, -, hexec⟩ := exec_ioThread hsys hanswers.supported hfile ⟨[], 0, 0⟩
  rw [hempty, if_neg Bool.false_ne_true, hanswers.parse,
    exec_bind_ok (exec_liftExcept ..)] at hexec
  dsimp only at hexec
  rw [exec_oackLoop hsys hstop options (oack_le_longest hanswers.parse) (by decide)] at hexec
  have hstart : start (.serving file) session = ⟨.oackSent maxRetries options oack,
      io.push (.sent (oackDatagram oack session.remoteClient))⟩ := congrArg settle hexec
  have hrun : run (.serving file) session [session.ackOf 0] =
      step (.serving file) session (start (.serving file) session) (session.ackOf 0) := rfl
  refine ⟨?_, ?_⟩
  · rw [show run (.serving file) session [] = start (.serving file) session from rfl, hstart]
    exact List.mem_append_right _ (List.mem_singleton_self _)
  · obtain ⟨io', -, htransfer⟩ := exec_startTransfer hsys hstop hfile
      (tsize_of_parseOptions hanswers.parse) (block_le_longest huse)
      ((io.push (.sent (oackDatagram oack session.remoteClient))).push
        (.received (session.ackOf 0)))
    have halloc : (System.serving file).canAllocate options.blksize = true := rfl
    rw [if_pos halloc] at htransfer
    rw [hrun, hstart, step_ack_oackSent, htransfer]
    exact ⟨rfl, List.mem_append_right _ (List.mem_singleton_self _)⟩

theorem plainNumbers_of_statesTransfer (h : StatesTransfer session file)
    (hnul : ∀ name text, session.request.options.lookup name = some text →
      TftpPacket.NulFree text)
    (hmode : Supported session.request.xfermode)
    (hnumbers : AcceptsNumbers session.request.options) :
    PlainNumbers session.request.options file := by
  obtain ⟨⟨options, oack⟩, hparse⟩ := (exists_parseOptions_iff
    ⟨512, 1, .ofNat file.content.length⟩ session.request.options).mpr hnumbers
  have hanswers : Answers session file options oack := ⟨hmode, hparse⟩
  obtain ⟨dict, hread, hdict⟩ := ofBits_oackDatagram hanswers hnul
  have hholds : ∀ {name text : StdString}, session.request.options.lookup name = some text →
      OackHolds session file oack (run (.serving file) session [session.ackOf 0]) :=
    fun htext => (h _ true (System.finds_serving file _) [] [session.ackOf 0] _ _
      (run_ackOf_zero (entries_isEmpty_of_lookup htext) hanswers).1 hread).congr hdict
  have hlookup : ∀ {name text : StdString}, name = lit "blksize" ∨ name = lit "timeout" →
      session.request.options.lookup name = some text → oack.lookup name = some text :=
    fun hname htext => (lookup_oack hanswers.parse _).trans ((if_pos hname).trans htext)
  constructor
  · intro text htext
    have hoack := hlookup (.inl rfl) htext
    have hdecimal := (hholds htext).decimal _ text hoack
    have hsent := (run_ackOf_zero (entries_isEmpty_of_lookup htext) hanswers).2.2
    have hfits := (hholds htext).fits (mem_iff_lookup.mpr ⟨text, hoack⟩) _ hsent _ _ rfl
      (TftpPacket.ofBits_dataBits _ _)
    obtain ⟨idx, hnumber⟩ := blksize_of_parseOptions hanswers.parse htext
    rw [length_datagram, length_buffer_firstReader, toNat_of_stoull hdecimal hnumber] at hfits
    exact ⟨hdecimal, hfits⟩
  · intro text htext
    have hoack := hlookup (.inr rfl) htext
    have htransfer : InTransfer (run (.serving file) session [session.ackOf 0]).control := by
      rw [(run_ackOf_zero (entries_isEmpty_of_lookup htext) hanswers).2.1]
      trivial
    rw [← (hholds htext).timeout text hoack htransfer]
    exact ⟨(hholds htext).decimal _ text hoack, UInt32.toNat_lt _⟩

/-- What the OACK says of the rest of a session, if the numbers of its request are plain. -/
theorem oackHolds_of_plainNumbers {oack : DictionaryType}
    (hfile : sys.Finds session.filePath (.regular file readable))
    (hanswers : Answers session file options oack)
    (hplain : PlainNumbers session.request.options file)
    (os : List RecvOutcome) : OackHolds session file oack (run sys session os) := by
  have hparse := hanswers.parse
  have hdict : ∀ {name text}, name = lit "blksize" ∨ name = lit "timeout" →
      oack.lookup name = some text → session.request.options.lookup name = some text :=
    fun hname htext => (if_pos hname).symm.trans ((lookup_oack hparse _).symm.trans htext)
  have htsize : ∀ {text}, oack.lookup (lit "tsize") = some text →
      text = toString file.content.length := by
    intro text htext
    have hother : ¬(lit "tsize" = lit "blksize" ∨ lit "tsize" = lit "timeout") := by decide
    rw [lookup_oack hparse, if_neg hother] at htext
    split_ifs at htext
    rw [← Option.some.inj htext]
    exact congrArg toString (Nat.mod_eq_of_lt (file.size_lt.trans (by decide)))
  constructor
  case names => exact mem_oack_iff hparse
  case decimal =>
    intro name text htext
    have hmem := ((mem_oack_iff hparse name).mp (mem_iff_lookup.mpr ⟨text, htext⟩)).2
    simp only [List.mem_cons, List.not_mem_nil, or_false] at hmem
    rcases hmem with rfl | rfl | rfl
    · exact (hplain.blksize text (hdict (.inl rfl) htext)).1
    · exact (hplain.timeout text (hdict (.inr rfl) htext)).1
    · rw [htsize htext]
      exact isDecimal_toString _
  case blksize =>
    intro text reader htext hreader
    have hrequest := hdict (.inl rfl) htext
    obtain ⟨idx, hnumber⟩ := blksize_of_parseOptions hparse hrequest
    rw [← toNat_of_stoull (hplain.blksize text hrequest).1 hnumber]
    rcases @goesBy_run _ session _ _ hfile os with ⟨e, hthrown⟩ | ⟨_, _, hanswers', hgoes⟩
    · rw [hthrown] at hreader
      cases hreader
    · obtain ⟨rfl, rfl⟩ := Prod.mk.inj (Except.ok.inj (hparse.symm.trans hanswers'.parse))
      cases hcontrol : (run sys session os).control <;> rw [hcontrol] at hreader hgoes <;>
        cases hreader
      · rw [hgoes.1]
      · rw [hgoes.1]
  case timeout =>
    intro text htext htransfer
    have hrequest := hdict (.inr rfl) htext
    obtain ⟨hdecimal, hlt⟩ := hplain.timeout text hrequest
    obtain ⟨T, idx, hnumber, htimeouts⟩ := timeouts_of_inTransfer hrequest htransfer
    have hrcv := (Prod.mk.inj htimeouts).1
    rw [hrcv, toNat_milliseconds, toNat_of_stoull hdecimal hnumber, Nat.mod_eq_of_lt hlt]
  case tsize =>
    intro text htext
    rw [htsize htext, denoted_toString]
  case fits =>
    intro hmem
    obtain ⟨text, htext⟩ := mem_iff_lookup.mp hmem
    have hrequest := hdict (.inl rfl) htext
    obtain ⟨hdecimal, hle⟩ := hplain.blksize text hrequest
    refine fits_run hfile ?_ os
    intro options' oack' hanswers'
    obtain ⟨idx, hnumber⟩ := blksize_of_parseOptions hanswers'.parse hrequest
    rwa [toNat_of_stoull hdecimal hnumber]

theorem statesTransfer_of_plainNumbers
    (hnul : ∀ name text, session.request.options.lookup name = some text →
      TftpPacket.NulFree text)
    (h : Supported session.request.xfermode → AcceptsNumbers session.request.options →
      PlainNumbers session.request.options file) : StatesTransfer session file := by
  intro sys readable hfile os os' d payload hsent hpayload
  -- the datagram is the OACK of the session, and is read as it was written
  obtain ⟨options, oack, hanswers, rfl⟩ :=
    (sending_sendsOack sys session file).run hfile os _ hsent d payload rfl hpayload
  obtain ⟨dict, hread, hdict⟩ := ofBits_oackDatagram hanswers hnul
  obtain rfl : payload = ⟨dict⟩ :=
    TftpPacket.oack.inj (Except.ok.inj (hpayload.symm.trans hread))
  exact (oackHolds_of_plainNumbers hfile hanswers
    (h hanswers.supported ((exists_parseOptions_iff _ _).mp ⟨_, hanswers.parse⟩)) _).congr
      fun name => (hdict name).symm

/-- **The requests whose OACK states what the transfer does**: of all that come in a datagram, those
with plain numbers, and those that are refused. -/
theorem statesTransfer_iff (session : TftpSessionV4) (file : File) {bits : List UInt8}
    (hrequest : TftpPacket.ofBits bits = .ok (.rrq session.request)) :
    StatesTransfer session file ↔
      (Supported session.request.xfermode → AcceptsNumbers session.request.options →
        PlainNumbers session.request.options file) :=
  ⟨fun h => plainNumbers_of_statesTransfer h fun _ _ => nulFree_of_ofBits hrequest,
    statesTransfer_of_plainNumbers fun _ _ => nulFree_of_ofBits hrequest⟩

/-- A client that asks for blocks of `text` bytes. -/
def blksizeSession (text : StdString) : TftpSessionV4 :=
  ⟨Path.ofString (lit "./"), ⟨1, 1024⟩,
    ⟨lit "a", lit "octet", UnorderedMap.emplace ∅ (lit "blksize") text⟩⟩

/-- The read request of such a client. -/
def blksizeBits (text : StdString) : List UInt8 :=
  Scalar.encode .network tftpOpcodeRrq ++
    (lit "a" ++ 0 :: (lit "octet" ++ 0 :: (lit "blksize" ++ 0 :: (text ++ [0]))))

theorem ofBits_blksizeBits {text : StdString} (h : TftpPacket.NulFree text) :
    TftpPacket.ofBits (blksizeBits text) = .ok (.rrq (blksizeSession text).request) := by
  have hpairs : TftpPacket.NulFreePairs [(lit "blksize", text)] := by
    intro pair hpair
    obtain rfl := List.mem_singleton.mp hpair
    exact ⟨show TftpPacket.NulFree (lit "blksize") by decide, h⟩
  have hread := TftpPacket.ofBits_rrq (show TftpPacket.NulFree (lit "a") by decide)
    (show TftpPacket.NulFree (lit "octet") by decide) hpairs
  have hbits : blksizeBits text = Scalar.encode .network tftpOpcodeRrq ++ (lit "a" ++
      0 :: (lit "octet" ++ 0 :: [(lit "blksize", text)].flatMap TftpPacket.pairBits)) := by
    simp [blksizeBits, TftpPacket.pairBits]
  rw [hbits]
  exact hread

theorem lookup_blksizeSession {text name text' : StdString}
    (h : (blksizeSession text).request.options.lookup name = some text') :
    name = lit "blksize" ∧ text' = text := by
  rw [blksizeSession, UnorderedMap.lookup_emplace] at h
  split_ifs at h with hname
  · exact ⟨hname, (Option.some.inj h).symm⟩
  · cases h

theorem statesTransfer_iff_blksize :
    TftpPacket.ofBits (blksizeBits (lit "512")) = .ok (.rrq (blksizeSession (lit "512")).request) ∧
      StatesTransfer (blksizeSession (lit "512")) ⟨[65], by decide⟩ := by
  have hrequest := ofBits_blksizeBits (show TftpPacket.NulFree (lit "512") by decide)
  refine ⟨hrequest, (statesTransfer_iff _ _ hrequest).mpr fun _ _ => ⟨?_, ?_⟩⟩
  · intro text htext
    rw [(lookup_blksizeSession htext).2]
    exact ⟨by decide +kernel, by decide +kernel⟩
  · intro text htext
    exact absurd (lookup_blksizeSession htext).1 (by decide)

/-- A file with a block of 65504 bytes. -/
def largeFile : File := ⟨List.replicate 65504 0, by rw [List.length_replicate]; decide⟩

/-- **Texts that are echoed and are not the block size**: with a blank, with a letter, and with a
sign. And one that is, of blocks that do not fit into a datagram. -/
theorem not_statesTransfer :
    (∀ text ∈ [lit " 512", lit "512x", lit "-18446744073709551104"],
      TftpPacket.ofBits (blksizeBits text) = .ok (.rrq (blksizeSession text).request) ∧
        ¬StatesTransfer (blksizeSession text) ⟨[65], by decide⟩) ∧
    TftpPacket.ofBits (blksizeBits (lit "65504")) =
        .ok (.rrq (blksizeSession (lit "65504")).request) ∧
      ¬StatesTransfer (blksizeSession (lit "65504")) largeFile := by
  have hnot : ∀ {text : StdString} {file : File}, TftpPacket.NulFree text →
      (∃ r, stoull 10 text = .ok r) →
      ¬(IsDecimal text ∧ min (denoted 10 text) file.content.length + 4 ≤ 65507) →
      TftpPacket.ofBits (blksizeBits text) = .ok (.rrq (blksizeSession text).request) ∧
        ¬StatesTransfer (blksizeSession text) file := by
    intro text file hnul haccepted hplain
    refine ⟨ofBits_blksizeBits hnul, fun h => hplain ?_⟩
    have hlookup : (blksizeSession text).request.options.lookup (lit "blksize") = some text := rfl
    refine (plainNumbers_of_statesTransfer h (fun name text' htext' => ?_) (.inl rfl) ?_).blksize
      text hlookup
    · exact (lookup_blksizeSession htext').2 ▸ hnul
    rw [AcceptsNumbers, List.forall_mem_cons, List.forall_mem_singleton]
    exact ⟨fun text' htext' => (lookup_blksizeSession htext').2 ▸ haccepted,
      fun _ htext' => absurd (lookup_blksizeSession htext').1 (by decide)⟩
  constructor
  · simp only [List.forall_mem_cons]
    refine ⟨hnot (by decide) ⟨_, rfl⟩ fun h => absurd h.1 (by decide +kernel),
      hnot (by decide) ⟨_, rfl⟩ fun h => absurd h.1 (by decide +kernel),
      hnot (by decide) ⟨_, rfl⟩ fun h => absurd h.1 (by decide +kernel), by simp⟩
  · refine hnot (by decide) ⟨_, rfl⟩ ?_
    rintro ⟨-, hle⟩
    have hsize : largeFile.content.length = 65504 := List.length_replicate
    have hnumber : denoted 10 (lit "65504") = 65504 := by decide
    rw [hsize, hnumber] at hle
    omega

end TftpSessionV4

end Bootpd
