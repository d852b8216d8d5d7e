import Bootpd.TftpSessionSteps

/-!
# Where a session can go next, whatever its calls answer

`step_oackSent` and `step_dataSent` are about sessions that nobody asks to stop. Here no call of the
system is assumed to do anything, and a session may be asked to stop at any time: what is left are
the places it can get to, with its retry counter and its reader.

## Two kinds of facts

`Next` is a relation between the places, with the outcome left out. It is enough for what depends on
the retry counters and the reader alone, above all for the end of a session: each place has a number
of waits that can still follow, and `Next` makes it less.

The other kind is about a property of computations that all calls of the system have, and that
sequences and handlers keep. `Compositional` says so, and then the functions of the session have
the property because they are put together from such calls. Each half of a loop is done once here,
and the modules that count, time or stop a session use it with properties of their own.

## Main definitions

* `TftpSessionV4.Starts`, `TftpSessionV4.Begins`, `TftpSessionV4.Next` — the first place of a
  session, of a transfer, and from one place to the next
* `TftpSessionV4.Returns` — what a computation returns when it does

## Main results

* `TftpSessionV4.starts_start` — the first place
* `TftpSessionV4.next_step` — from one place to the next
* `TftpSessionV4.compositional_awaitAck`, `compositional_sendLoop` — what both halves of a loop have
  when the calls of the system have it
-/

namespace Bootpd

open Imperative SocketUdp

namespace TftpSessionV4

/-- Where an outcome can take a session. -/
inductive Next (sys : System) (session : TftpSessionV4) : Control → Control → Prop where
  | oackSent {c n : ℕ} {options : OptionsType} {oack : DictionaryType} (hpos : 0 < n)
      (hlt : n < c) :
      Next sys session (.oackSent c options oack) (.oackSent n options oack)
  | starts {c n : ℕ} {options : OptionsType} {oack : DictionaryType} {reader : TftpReader}
      (hreader : FirstReader sys session options reader) (hpos : 0 < n) (hle : n ≤ maxRetries) :
      Next sys session (.oackSent c options oack) (.dataSent n reader)
  /-- Asked to stop in front of the first block. -/
  | startsStopped {c : ℕ} {options : OptionsType} {oack : DictionaryType} {reader : TftpReader}
      (hreader : FirstReader sys session options reader) :
      Next sys session (.oackSent c options oack) (.finished reader)
  | dataSent {c n : ℕ} {reader : TftpReader} (hpos : 0 < n) (hlt : n < c) :
      Next sys session (.dataSent c reader) (.dataSent n reader)
  | advances {c n : ℕ} {reader : TftpReader} (hlast : reader.last = false) (hpos : 0 < n)
      (hlt : n < maxRetries) : Next sys session (.dataSent c reader) (.dataSent n reader.next)
  | finishes {c : ℕ} {reader : TftpReader} :
      Next sys session (.dataSent c reader) (.finished reader)
  /-- Asked to stop in front of another block. -/
  | advancesStopped {c : ℕ} {reader : TftpReader} (hlast : reader.last = false) :
      Next sys session (.dataSent c reader) (.finished reader.next)
  | throws {control : Control} (e : Exception) : Next sys session control (.thrown e)
  | ended {control : Control} (h : ¬control.Waiting) : Next sys session control control

/-- Where a transfer can get to before its first `recv`. -/
inductive Begins (sys : System) (session : TftpSessionV4) (options : OptionsType) :
    Control → Prop where
  | dataSent {n : ℕ} {reader : TftpReader} (hreader : FirstReader sys session options reader)
      (hpos : 0 < n) (hle : n ≤ maxRetries) : Begins sys session options (.dataSent n reader)
  | finished {reader : TftpReader} (hreader : FirstReader sys session options reader) :
      Begins sys session options (.finished reader)

/-- The transfer modes of the program. -/
def Supported (xfermode : StdString) : Prop := xfermode = lit "octet" ∨ xfermode = lit "netascii"

/-- Where a session can get to before its first `recv`. -/
inductive Starts (sys : System) (session : TftpSessionV4) : Control → Prop where
  | oackSent {n : ℕ} {tsize : UInt64} {options : OptionsType} {oack : DictionaryType}
      (hmode : Supported session.request.xfermode)
      (hsize : (sys.filesystem .fileSize).fileSize session.filePath = .ok tsize)
      (hparse : parseOptions ⟨512, 1, tsize⟩ session.request.options = .ok (options, oack))
      (hpos : 0 < n) (hle : n ≤ maxRetries) : Starts sys session (.oackSent n options oack)
  | begins {tsize : UInt64} {options : OptionsType} {oack : DictionaryType} {control : Control}
      (hmode : Supported session.request.xfermode)
      (hsize : (sys.filesystem .fileSize).fileSize session.filePath = .ok tsize)
      (hparse : parseOptions ⟨512, 1, tsize⟩ session.request.options = .ok (options, oack))
      (hbegins : Begins sys session options control) : Starts sys session control
  | thrown (e : Exception) : Starts sys session (.thrown e)

/-- What `x` returns, when it does, satisfies `R`. -/
def Returns {α : Type} (x : SessionM α) (R : α → Prop) : Prop :=
  Triple (fun _ => True) x (fun a _ => R a) fun _ _ => True

namespace Returns

variable {α β : Type} {R : β → Prop}

theorem any {x : SessionM α} : Returns x fun _ => True := ⟨fun _ _ => trivial, fun _ _ => trivial⟩

theorem pure {b : β} (h : R b) : Returns (pure b) R := Triple.pure b fun _ _ => h

theorem throw (e : Exception) : Returns (throw e) R := Triple.throw e fun _ _ => trivial

theorem bind {x : SessionM α} {f : α → SessionM β} {S : α → Prop} (hx : Returns x S)
    (hf : ∀ a, S a → Returns (f a) R) : Returns (x >>= f) R := by
  refine Triple.bind hx fun a => ⟨fun {s b s'} ha h => ?_, fun _ _ => trivial⟩
  exact (hf a ha).ok trivial h

theorem after {x : SessionM α} {f : α → SessionM β} (hf : ∀ a, Returns (f a) R) :
    Returns (x >>= f) R := bind any fun a _ => hf a

theorem mono {x : SessionM β} {S : β → Prop} (hx : Returns x S) (h : ∀ b, S b → R b) :
    Returns x R := Triple.mono hx (fun _ hs => hs) (fun b _ => h b) fun _ _ _ => trivial

theorem liftExcept {r : Except Exception β} (h : ∀ b, r = .ok b → R b) :
    Returns (liftExcept r) R :=
  Triple.liftExcept (fun b _ hr _ => h b hr) fun _ _ _ _ => trivial

/-- Behind a `try`: the retry, or the rest. -/
theorem afterTry {r : Except Exception α} {retry : SessionM β} {rest : α → SessionM β}
    (hretry : Returns retry R) (hrest : ∀ a, Returns (rest a) R) :
    Returns (onTimeout r retry rest) R := by
  cases r with
  | ok a => exact hrest a
  | error e =>
    rcases onTimeout_error_or retry rest e with h | h <;> rw [h]
    · exact hretry
    · exact throw e

end Returns

variable {sys : System} {session : TftpSessionV4} {options : OptionsType}

/-- **A loop** that returns waits with some of its retries left, or was stopped. -/
theorem returns_sendLoop {packet : TftpPacket} {waiting : ℕ → Control}
    {stopped exhausted : SessionM Control} {R : Control → Prop} {n : ℕ}
    (hstopped : Returns stopped R) (hexhausted : Returns exhausted R)
    (hwaiting : ∀ k, 0 < k → k ≤ n → R (waiting k)) :
    Returns (sendLoop sys session packet waiting stopped exhausted n) R := by
  induction n with
  | zero => exact hexhausted
  | succ n ih =>
    rw [sendLoop]
    refine Returns.after fun s => ?_
    split_ifs
    · exact hstopped
    · exact Returns.after fun r => Returns.afterTry
        (ih fun k hpos hle => hwaiting k hpos (Nat.le_succ_of_le hle))
        fun _ => Returns.pure (hwaiting (n + 1) n.succ_pos le_rfl)

theorem returns_dataLoop {reader : TftpReader} {R : Control → Prop} {n : ℕ}
    (hwaiting : ∀ k, 0 < k → k ≤ n → R (.dataSent k reader)) (hfinished : R (.finished reader)) :
    Returns (dataLoop sys session reader n) R :=
  returns_sendLoop (Returns.pure hfinished) (Returns.throw _) hwaiting

theorem returns_startTransfer (session : TftpSessionV4) (options : OptionsType) :
    Returns (startTransfer sys session options) (Begins sys session options) := by
  rw [startTransfer]
  have hmake : Returns (TftpReader.make sys session.filePath options.tsize options.blksize
      (session.request.xfermode == lit "octet")) (FirstReader sys session options) := by
    refine ⟨fun {s reader s'} _ h => ?_, fun _ _ => trivial⟩
    obtain ⟨_, -, -, hreader⟩ := @logs_makeReader sys session options s
    exact hreader reader (congrArg Prod.fst h)
  exact Returns.after fun _ => hmake.bind fun reader hreader =>
    returns_dataLoop (fun _ hpos hle => .dataSent hreader hpos hle) (.finished hreader)

theorem returns_oackLoop {oack : DictionaryType} {R : Control → Prop} {n : ℕ}
    (hwaiting : ∀ k, 0 < k → k ≤ n → R (.oackSent k options oack))
    (hbegins : ∀ control, Begins sys session options control → R control) :
    Returns (oackLoop sys session options oack n) R :=
  returns_sendLoop ((returns_startTransfer session options).mono hbegins)
    (Returns.after fun _ => Returns.throw _) hwaiting

theorem returns_validateRequest :
    Returns (validateRequest sys session) fun _ => Supported session.request.xfermode := by
  rw [validateRequest]
  split_ifs with h
  · exact Returns.after fun _ => Returns.throw _
  · exact Returns.pure (or_iff_not_and_not.mpr h)

theorem returns_ioThread (sys : System) (session : TftpSessionV4) :
    Returns (ioThread sys session) (Starts sys session) := by
  rw [ioThread]
  refine Returns.after fun _ => Returns.after fun _ => returns_validateRequest.bind fun _ hmode =>
    Returns.after fun _ => Returns.bind (Returns.liftExcept fun _ h => h) fun tsize hsize => ?_
  dsimp only
  split_ifs with hempty
  · exact (returns_startTransfer session _).mono fun control hbegins =>
      .begins hmode hsize (parseOptions_empty hempty _) hbegins
  · refine Returns.bind (Returns.liftExcept fun _ h => h) ?_
    rintro ⟨options, oack⟩ hparse
    exact returns_oackLoop (fun _ hpos hle => .oackSent hmode hsize hparse hpos hle)
      fun control hbegins => .begins hmode hsize hparse hbegins

/-- **The first place** of a session. -/
theorem starts_start (sys : System) (session : TftpSessionV4) :
    Starts sys session (start sys session).control := by
  rw [start]
  rcases h : exec (ioThread sys session) ⟨[], 0, 0⟩ with ⟨e | control, io⟩
  · exact .thrown e
  · exact (returns_ioThread sys session).ok trivial h

theorem returns_resume (sys : System) (session : TftpSessionV4) (control : Control)
    (o : RecvOutcome) : Returns (resume sys session control o) (Next sys session control) := by
  cases control with
  | oackSent c options oack =>
    have hbegins : ∀ control, Begins sys session options control →
        Next sys session (.oackSent c options oack) control := by
      rintro _ (⟨hreader, hpos, hle⟩ | hreader)
      · exact .starts hreader hpos hle
      · exact .startsStopped hreader
    exact Returns.after fun r => Returns.afterTry
      (returns_oackLoop (fun k hpos hle => .oackSent hpos (by omega)) hbegins)
      fun _ => (returns_startTransfer session options).mono hbegins
  | dataSent c reader =>
    refine Returns.after fun r => Returns.afterTry
      (returns_dataLoop (fun k hpos hle => .dataSent hpos (by omega)) .finishes) fun _ => ?_
    cases hlast : reader.last
    · exact returns_dataLoop (fun k hpos hle => .advances hlast hpos (Nat.lt_succ_of_le hle))
        (.advancesStopped hlast)
    · exact Returns.pure .finishes
  | finished reader => exact Returns.pure (.ended (by simp [Control.Waiting, Control.awaited]))
  | thrown e => exact Returns.pure (.throws e)

/-- **From one place to the next.** -/
theorem next_step (sys : System) (session : TftpSessionV4) (s : State) (o : RecvOutcome) :
    Next sys session s.control (step sys session s o).control := by
  rw [step]
  rcases h : exec (resume sys session s.control o) s.io with ⟨e | control, io⟩
  · exact .throws e
  · exact (returns_resume sys session s.control o).ok trivial h

theorem settle_throw (e : Exception) (io : IoState) :
    settle (exec (throw e) io) = ⟨.thrown e, io⟩ := rfl

/-- A sequence: what its first part throws ends the session, and the rest goes on from what it
returns. -/
theorem settle_bind {α : Type} {x : SessionM α} {f : α → SessionM Control} {P : IoState → Prop}
    {Q : α → IoState → Prop} {I : State → Prop} (hx : Triple P x Q fun e io => I ⟨.thrown e, io⟩)
    (hf : ∀ a io, Q a io → I (settle (exec (f a) io))) {io : IoState} (h : P io) :
    I (settle (exec (x >>= f) io)) := by
  rcases hrun : exec x io with ⟨e | a, io'⟩
  · rw [exec_bind_error hrun]
    exact hx.error h hrun
  · rw [exec_bind_ok hrun]
    exact hf a io' (hx.ok h hrun)

/-! ### What all parts of a session have -/

section Compositional

variable {C : (α : Type) → SessionM α → Prop}

theorem compositional_onTimeout (hC : Compositional C) {α β : Type} (r : Except Exception α)
    {retry : SessionM β} {rest : α → SessionM β} (hretry : C β retry)
    (hrest : ∀ a, C β (rest a)) : C β (onTimeout r retry rest) := by
  cases r with
  | ok a => exact hrest a
  | error e =>
    rcases onTimeout_error_or retry rest e with h | h <;> rw [h]
    · exact hretry
    · exact hC.throw e

/-- Answering with an ERROR packet and throwing. -/
theorem compositional_reject (hC : Compositional C)
    (hsend : ∀ payload target, C Unit (send sys (TftpPacket.error payload) target)) (α : Type)
    (payload : TypeError) (target : AddressV4) (e : Exception) : C α (do
      send sys (TftpPacket.error payload) target
      throw e) :=
  hC.bind (hsend payload target) fun _ => hC.throw e

theorem compositional_validateRequest (hC : Compositional C)
    (hsend : ∀ payload target, C Unit (send sys (TftpPacket.error payload) target))
    (session : TftpSessionV4) : C Unit (validateRequest sys session) := by
  rw [validateRequest]
  split_ifs
  · exact compositional_reject hC hsend _ _ _ _
  · exact hC.pure _

theorem compositional_validateFilepath (hC : Compositional C)
    (hsend : ∀ payload target, C Unit (send sys (TftpPacket.error payload) target))
    (session : TftpSessionV4) (filePath : Path) :
    C Unit (validateFilepath sys session filePath) := by
  have hregular : C Unit (do
      let regular ← liftExcept ((sys.filesystem .isRegularFile).isRegularFile filePath)
      if !regular then
        send sys (TftpPacket.makeError .fileNotFound) session.remoteClient
        throw (.runtimeError (lit "Not a file: " ++ filePath.string))) := by
    refine hC.bind (hC.liftExcept _) fun regular => ?_
    split_ifs
    · exact compositional_reject hC hsend _ _ _ _
    · exact hC.pure _
  rw [validateFilepath]
  refine hC.bind (hC.liftExcept _) fun found => ?_
  split_ifs
  · exact hC.bind (hsend _ _) fun _ => hC.bind (hC.throw _) fun _ => hregular
  · exact hregular

/-- **The half of a loop behind `recv`** sends nothing but ERROR packets. -/
theorem compositional_awaitAck (hC : Compositional C)
    (hsend : ∀ payload target, C Unit (send sys (TftpPacket.error payload) target))
    (hrecv : ∀ o, C (AddressV4 × List UInt8) (recv o)) (session : TftpSessionV4)
    (number : UInt64) (o : RecvOutcome) : C Unit (awaitAck sys session number o) := by
  have hsource : ∀ source, C Unit (validateSource sys session source) := by
    intro source
    rw [validateSource]
    split_ifs
    · exact hsend _ _
    · exact hC.pure _
  have hack : ∀ packet, C Unit (validateAck sys session packet number) := by
    intro packet
    have hreject := compositional_reject hC hsend Unit
    cases packet with
    | error payload => exact hC.throw _
    | ack payload =>
      rw [validateAck_ack]
      split_ifs
      · exact hC.pure _
      · exact hreject _ _ _
    | monostate | rrq payload | wrq payload | data payload | oack payload => exact hreject _ _ _
  exact hC.bind (hrecv o) fun a => hC.bind (hsource a.1) fun _ => hC.bind (hC.liftExcept _) hack

/-- **The half of a loop in front of `recv`** sends its packet. -/
theorem compositional_sendLoop (hC : Compositional C) {packet : TftpPacket}
    {waiting : ℕ → Control} {stopped exhausted : SessionM Control}
    (hpacket : C Unit (send sys packet session.remoteClient)) (hstopped : C Control stopped)
    (hexhausted : C Control exhausted) (n : ℕ) :
    C Control (sendLoop sys session packet waiting stopped exhausted n) := by
  induction n with
  | zero => exact hexhausted
  | succ n ih =>
    rw [TftpSessionV4.sendLoop]
    refine hC.bind hC.get fun s => ?_
    split_ifs
    · exact hstopped
    · exact hC.bind (hC.observing hpacket) fun r =>
        compositional_onTimeout hC r ih fun _ => hC.pure _

theorem compositional_makeReader (hC : Compositional C) (path : Path)
    (hopened : C PUnit (modify fun s => s.push (.opened path))) (length blksiz : UInt64)
    (isBinary : Bool) : C TftpReader (TftpReader.make sys path length blksiz isBinary) := by
  rw [TftpReader.make]
  refine hC.bind hopened fun _ => hC.bind (hC.liftExcept _) fun length => ?_
  split_ifs
  · exact hC.throw _
  · exact hC.pure _

end Compositional

end TftpSessionV4

end Bootpd
