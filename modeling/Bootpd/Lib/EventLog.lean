import Bootpd.Lib.Imperative

/-!
# Computations that append to a log

A state that keeps a log of events, and computations that only ever add to it. `Logs` says what a
computation adds, together with how it ends; its rules follow the shape of the program, so that
what a whole function logs is put together from what its calls log.

## Three strengths

`Logs x P` is about the result and the events together, and composes by concatenation: what is added
by a sequence is what its first part adds and then what its second part does, from the result of the
first. `LogsOnly x E` forgets the result and the order, and only says that every event is of some
kind; it is kept by all that keeps programs together, so that it need be checked for calls only.
`Guarded` is about a log and not a computation: each event is judged by what stands in front of it.

The state may have other parts. Only the function to its log is given, and a computation that leaves
the log alone logs nothing, whatever else it does.

## Main definitions

* `Logs`, `LogsOnly` — what a computation adds
* `Guarded` — events that are judged by what stands in front of them

## Main results

* `Logs.bind`, `Logs.observing` — sequencing, and `try`
* `LogsOnly.compositional` — computations that log events of one kind only
* `guarded_append` — guarded events behind others
-/

namespace Imperative

variable {σ ε ι α β : Type} {log : σ → List ι}

/-- Every run of `x` appends some events to the log, and these and the result satisfy `P`. -/
def Logs (log : σ → List ι) (x : Imp σ ε α) (P : Except ε α → List ι → Prop) : Prop :=
  ∀ s, ∃ es, log (exec x s).2 = log s ++ es ∧ P (exec x s).1 es

variable {P : Except ε α → List ι → Prop} {Q : Except ε β → List ι → Prop}

theorem Logs.mono {x : Imp σ ε α} {P' : Except ε α → List ι → Prop} (h : Logs log x P)
    (hP : ∀ r es, P r es → P' r es) : Logs log x P' := by
  intro s
  obtain ⟨es, hlog, hes⟩ := h s
  exact ⟨es, hlog, hP _ _ hes⟩

/-- Two things that are known of a computation. -/
theorem Logs.and {x : Imp σ ε α} {P' : Except ε α → List ι → Prop} (h : Logs log x P)
    (h' : Logs log x P') : Logs log x fun r es => P r es ∧ P' r es := by
  intro s
  obtain ⟨es, hlog, hes⟩ := h s
  obtain ⟨es', hlog', hes'⟩ := h' s
  obtain rfl := List.append_cancel_left (hlog.symm.trans hlog')
  exact ⟨es, hlog, hes, hes'⟩

/-- A computation that leaves the log alone and whose results are known. -/
theorem Logs.silent {x : Imp σ ε α} (hlog : ∀ s, log (Imperative.exec x s).2 = log s)
    (h : ∀ s, P (Imperative.exec x s).1 []) : Logs log x P :=
  fun s => ⟨[], by rw [hlog, List.append_nil], h s⟩

theorem Logs.pure {a : α} (h : P (.ok a) []) : Logs log (pure a : Imp σ ε α) P :=
  Logs.silent (fun _ => rfl) fun _ => h

theorem Logs.throw {e : ε} (h : P (.error e) []) : Logs log (throw e : Imp σ ε α) P :=
  Logs.silent (fun _ => rfl) fun _ => h

theorem Logs.liftExcept {r : Except ε α} (h : P r []) :
    Logs log (liftExcept r : Imp σ ε α) P := by
  intro s
  rw [exec_liftExcept]
  exact ⟨[], (List.append_nil _).symm, h⟩

/-- **Sequencing.** -/
theorem Logs.bind {x : Imp σ ε α} {f : α → Imp σ ε β} {F : α → Except ε β → List ι → Prop}
    (hx : Logs log x P) (hf : ∀ a, Logs log (f a) (F a))
    (herror : ∀ e es, P (.error e) es → Q (.error e) es)
    (hok : ∀ a es r es', P (.ok a) es → F a r es' → Q r (es ++ es')) :
    Logs log (x >>= f) Q := by
  intro s
  obtain ⟨es, hlog, hes⟩ := hx s
  rcases hs : Imperative.exec x s with ⟨e | a, s'⟩ <;> rw [hs] at hlog hes
  · rw [exec_bind_error hs]
    exact ⟨es, hlog, herror e es hes⟩
  · rw [exec_bind_ok hs]
    obtain ⟨es', hlog', hes'⟩ := hf a s'
    exact ⟨es ++ es', by rw [hlog', hlog, List.append_assoc], hok a es _ es' hes hes'⟩

/-- A value, or an exception, and then the rest. -/
theorem logs_liftExcept_bind {r : Except ε α} {f : α → Imp σ ε β}
    (herror : ∀ e, r = .error e → Q (.error e) []) (hok : ∀ a, r = .ok a → Logs log (f a) Q) :
    Logs log (liftExcept r >>= f) Q := by
  intro s
  rw [exec_bind, exec_liftExcept]
  cases r with
  | error e => exact ⟨[], (List.append_nil _).symm, herror e rfl⟩
  | ok a => exact hok a rfl s

/-- **A `try`.** -/
theorem Logs.observing {x : Imp σ ε α} {Q : Except ε (Except ε α) → List ι → Prop}
    (hx : Logs log x P) (h : ∀ r es, P r es → Q (.ok r) es) : Logs log (observing x) Q := by
  intro s
  obtain ⟨es, hlog, hes⟩ := hx s
  rw [exec_observing]
  exact ⟨es, hlog, h _ es hes⟩

/-! ### Logs of events of one kind -/

/-- Every event `x` logs satisfies `E`. -/
def LogsOnly (log : σ → List ι) (x : Imp σ ε α) (E : ι → Prop) : Prop :=
  Logs log x fun _ es => ∀ ev ∈ es, E ev

variable {E : ι → Prop}

theorem LogsOnly.bind {x : Imp σ ε α} {f : α → Imp σ ε β} (hx : LogsOnly log x E)
    (hf : ∀ a, LogsOnly log (f a) E) : LogsOnly log (x >>= f) E :=
  Logs.bind hx hf (fun _ _ h => h) fun _ _ _ _ h h' ev hev =>
    (List.mem_append.mp hev).elim (h ev) (h' ev)

/-- Sequencing after a computation whose results are known. -/
theorem LogsOnly.bind_of_logs {x : Imp σ ε α} {f : α → Imp σ ε β} {R : α → Prop}
    (hx : LogsOnly log x E) (hresult : Logs log x fun r _ => ∀ a, r = .ok a → R a)
    (hf : ∀ a, R a → LogsOnly log (f a) E) : LogsOnly log (x >>= f) E := by
  intro s
  obtain ⟨es, hlog, hes, hR⟩ := (hx.and hresult) s
  rcases hs : Imperative.exec x s with ⟨e | a, s'⟩ <;> rw [hs] at hlog hR
  · rw [exec_bind_error hs]
    exact ⟨es, hlog, hes⟩
  · rw [exec_bind_ok hs]
    obtain ⟨es', hlog', hes'⟩ := hf a (hR a rfl) s'
    refine ⟨es ++ es', by rw [hlog', hlog, List.append_assoc], fun ev hev => ?_⟩
    exact (List.mem_append.mp hev).elim (hes ev) (hes' ev)

theorem LogsOnly.pure (a : α) : LogsOnly log (pure a : Imp σ ε α) E := Logs.pure (by simp)

theorem LogsOnly.throw (e : ε) : LogsOnly log (throw e : Imp σ ε α) E := Logs.throw (by simp)

theorem LogsOnly.liftExcept (r : Except ε α) : LogsOnly log (liftExcept r : Imp σ ε α) E :=
  Logs.liftExcept (by simp)

theorem LogsOnly.observing {x : Imp σ ε α} (hx : LogsOnly log x E) :
    LogsOnly log (observing x) E :=
  Logs.observing hx fun _ _ h => h

theorem LogsOnly.compositional (log : σ → List ι) (E : ι → Prop) :
    Compositional fun (α : Type) (x : Imp σ ε α) => LogsOnly log x E where
  pure := LogsOnly.pure
  throw := LogsOnly.throw
  get := Logs.silent (fun _ => rfl) fun _ => by simp
  liftExcept := LogsOnly.liftExcept
  bind := LogsOnly.bind
  observing := LogsOnly.observing

/-! ### Events that depend on those in front of them -/

/-- Every event behind a log satisfies `E` of what stands in front of it. -/
def Guarded (E : List ι → ι → Prop) : List ι → List ι → Prop
  | _, [] => True
  | before, ev :: es => E before ev ∧ Guarded E (before ++ [ev]) es

variable {E : List ι → ι → Prop} {before es es' : List ι}

theorem guarded_append :
    Guarded E before (es ++ es') ↔ Guarded E before es ∧ Guarded E (before ++ es) es' := by
  induction es generalizing before with
  | nil => simp [Guarded]
  | cons ev es ih => simp [Guarded, ih, and_assoc]

theorem guarded_of_forall (h : ∀ before, ∀ ev ∈ es, E before ev) : Guarded E before es := by
  induction es generalizing before with
  | nil => trivial
  | cons ev es ih => exact ⟨h before ev (by simp), ih fun log x hx => h log x (by simp [hx])⟩

/-- What holds of an event wherever it stands behind `before`. -/
theorem Guarded.forall {F : ι → Prop} (h : Guarded E before es)
    (hF : ∀ es ev, E (before ++ es) ev → F ev) : ∀ ev ∈ es, F ev := by
  induction es generalizing before with
  | nil => simp
  | cons ev es ih =>
    obtain ⟨hev, hes⟩ := h
    have hrest := ih hes fun es x hx => hF (ev :: es) x (by simpa using hx)
    exact List.forall_mem_cons.mpr ⟨hF [] ev (by simpa using hev), hrest⟩

end Imperative
