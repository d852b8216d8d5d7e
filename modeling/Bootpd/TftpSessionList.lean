import Bootpd.TftpServerV4
import Mathlib.Data.List.Nodup

/-!
# The life of a session

A session is in `m_session_list` from its construction to the notification of its thread. The list
is keyed by address, and addresses are used again, so what a notification finds in the list is a
session of the same address; that it is the same session is the invariant here.

## The invariant

It is stated for each address by itself: `Live` for one with a session, `Free` for the others. A
step touches one address, or moves an event from one place to another, and the other addresses are
as they were. `Live` says that its thread has finished exactly when its notification is pending or
the session is being destroyed, and that nobody else has notified from there. At a `Free` address
nothing is pending and nothing is in the list.

The notification that the responder has taken from the queue and is handling counts as pending, as
those in the queue do. In this time the session is in the list although no event in the queue speaks
of it, which is why the life of a session is told with `State.pending` and not with the queue.

A thread may be done before its session is in the list, between the construction and `emplace`. Its
notification waits in the queue then, since the responder that would handle it is the one that is
about to `emplace`.

## Main definitions

* `TftpServerV4.State.pending` — the events in the queue and in the hands of the responder
* `TftpServerV4.Live`, `TftpServerV4.Free`, `TftpServerV4.Consistent` — the invariant
* `TftpServerV4.Lifecycle` — what holds of the sessions in every state

## Main results

* `TftpServerV4.consistent_run` — the invariant of every run
* `TftpServerV4.session_list_lifecycle` — what becomes of a session
* `TftpServerV4.listed_while_handled` — a session whose notification is out of the queue
-/

namespace Bootpd

open Imperative SocketUdp Transition

namespace TftpServerV4

/-! ### What is pending -/

/-- The events that have not been handled. -/
def State.pending (s : State) : List EventType :=
  match s.responder with
  | .visiting event => event :: s.events
  | _ => s.events

/-- The address in a notification. -/
def EventType.who : EventType → Option Pointer
  | .packet .. => none
  | .notify who _ => some who

theorem mem_filterMap_who {events : List EventType} {p : Pointer} :
    p ∈ events.filterMap EventType.who ↔ ∃ n, .notify p n ∈ events := by
  rw [List.mem_filterMap]
  constructor
  · rintro ⟨event, hevent, hwho⟩
    cases event with
    | packet => cases hwho
    | notify who n =>
      obtain rfl := Option.some.inj hwho
      exact ⟨n, hevent⟩
  · rintro ⟨n, hn⟩
    exact ⟨_, hn, rfl⟩

/-! ### The invariant -/

/-- The session `x` lives at `p`. -/
structure Live (s : State) (p : Pointer) (x : Session) : Prop where
  nonnull : p ≠ 0
  number_lt : x.number < s.created
  done : x.thread ≠ .transferring → x.done = true ∧ x.number ∈ s.marked
  listed : p ∈ s.sessionList ↔ s.responder ≠ .emplacing p ∧ s.responder ≠ .destroying p
  /-- Its thread has pushed the notification, and the session lives until that is handled. -/
  finished : x.thread = .finished ↔ .notify p x.number ∈ s.pending ∨ s.responder = .destroying p
  /-- Nobody else has notified from `p`. -/
  own : ∀ n, .notify p n ∈ s.pending → n = x.number ∧ s.responder ≠ .destroying p
  erased : x.number ∈ s.erased ↔ s.responder = .destroying p

/-- No session lives at `p`, and nothing points there. -/
structure Free (s : State) (p : Pointer) : Prop where
  listed : p ∉ s.sessionList
  emplacing : s.responder ≠ .emplacing p
  destroying : s.responder ≠ .destroying p
  own : ∀ n, .notify p n ∉ s.pending

/-- What every run keeps. -/
structure Consistent (s : State) : Prop where
  defined : s.responder ≠ .undefined
  live : ∀ p x, s.sessions p = some x → Live s p x
  free : ∀ p, s.sessions p = none → Free s p
  numbers : ∀ p q x y, s.sessions p = some x → s.sessions q = some y → x.number = y.number → p = q
  once : (s.pending.filterMap EventType.who).Nodup
  erased : s.erased.Nodup
  erased_lt : ∀ n ∈ s.erased, n < s.created ∧ n ∈ s.marked

theorem consistent_start : Consistent start := by
  constructor <;> simp [start, State.pending]
  intro p
  constructor <;> simp [State.pending]

/-- A step sees nothing of the address `p`. -/
structure Unseen (s s' : State) (p : Pointer) : Prop where
  listed : p ∈ s'.sessionList ↔ p ∈ s.sessionList
  emplacing : s'.responder = .emplacing p ↔ s.responder = .emplacing p
  destroying : s'.responder = .destroying p ↔ s.responder = .destroying p
  own : ∀ n, .notify p n ∈ s'.pending ↔ .notify p n ∈ s.pending

variable {s s' : State} {p : Pointer} {x : Session}

theorem Free.of_unseen (h : Free s p) (hp : Unseen s s' p) : Free s' p where
  listed := by rw [hp.listed]; exact h.listed
  emplacing := by rw [ne_eq, hp.emplacing]; exact h.emplacing
  destroying := by rw [ne_eq, hp.destroying]; exact h.destroying
  own n := by rw [hp.own]; exact h.own n

theorem Live.of_unseen (h : Live s p x) (hp : Unseen s s' p) (hcreated : s.created ≤ s'.created)
    (hmarked : s.marked ⊆ s'.marked) (herased : x.number ∈ s'.erased ↔ x.number ∈ s.erased) :
    Live s' p x where
  nonnull := h.nonnull
  number_lt := h.number_lt.trans_le hcreated
  done hx := ⟨(h.done hx).1, hmarked (h.done hx).2⟩
  listed := by rw [hp.listed, ne_eq, ne_eq, hp.emplacing, hp.destroying]; exact h.listed
  finished := by rw [hp.own, hp.destroying]; exact h.finished
  own n hn := by rw [ne_eq, hp.destroying]; exact h.own n ((hp.own n).mp hn)
  erased := by rw [herased, hp.destroying]; exact h.erased

/-- A step that sees nothing of any address. -/
theorem Consistent.of_unseen (h : Consistent s) (hdefined : s'.responder ≠ .undefined)
    (hsessions : s'.sessions = s.sessions) (hcreated : s'.created = s.created)
    (hmarked : s'.marked = s.marked) (herased : s'.erased = s.erased)
    (hunseen : ∀ p, Unseen s s' p)
    (honce : s'.pending.filterMap EventType.who = s.pending.filterMap EventType.who) :
    Consistent s' where
  defined := hdefined
  live p x hx := by
    rw [hsessions] at hx
    exact (h.live p x hx).of_unseen (hunseen p) hcreated.ge (by rw [hmarked]; exact fun _ hn => hn)
      (by rw [herased])
  free p hp := (h.free p (hsessions ▸ hp)).of_unseen (hunseen p)
  numbers := hsessions ▸ h.numbers
  once := honce ▸ h.once
  erased := herased ▸ h.erased
  erased_lt := by
    rw [herased, hcreated, hmarked]
    exact h.erased_lt

/-- A step that sees one address. -/
theorem Consistent.of_unseen_others (h : Consistent s) (p : Pointer)
    (hdefined : s'.responder ≠ .undefined) (hsessions : ∀ q ≠ p, s'.sessions q = s.sessions q)
    (hunseen : ∀ q ≠ p, Unseen s s' q) (hcreated : s.created ≤ s'.created)
    (hmarked : s.marked ⊆ s'.marked)
    (herased : ∀ q ≠ p, ∀ y, s.sessions q = some y → (y.number ∈ s'.erased ↔ y.number ∈ s.erased))
    (hlive : ∀ x, s'.sessions p = some x → Live s' p x)
    (hfree : s'.sessions p = none → Free s' p)
    (hnumbers : ∀ x, s'.sessions p = some x → ∀ q ≠ p, ∀ y, s.sessions q = some y →
      y.number ≠ x.number)
    (honce : (s'.pending.filterMap EventType.who).Nodup) (hnodup : s'.erased.Nodup)
    (hlt : ∀ n ∈ s'.erased, n < s'.created ∧ n ∈ s'.marked) : Consistent s' where
  defined := hdefined
  live q y hy := by
    by_cases hq : q = p
    · subst hq
      exact hlive y hy
    · rw [hsessions q hq] at hy
      exact (h.live q y hy).of_unseen (hunseen q hq) hcreated hmarked (herased q hq y hy)
  free q hy := by
    by_cases hq : q = p
    · subst hq
      exact hfree hy
    · rw [hsessions q hq] at hy
      exact (h.free q hy).of_unseen (hunseen q hq)
  numbers q r y z hy hz hnumber := by
    by_cases hq : q = p <;> by_cases hr : r = p
    · rw [hq, hr]
    · subst hq
      rw [hsessions r hr] at hz
      exact absurd hnumber.symm (hnumbers y hy r hr z hz)
    · subst hr
      rw [hsessions q hq] at hy
      exact absurd hnumber (hnumbers z hz q hq y hy)
    · rw [hsessions q hq] at hy
      rw [hsessions r hr] at hz
      exact h.numbers q r y z hy hz hnumber
  once := honce
  erased := hnodup
  erased_lt := hlt

/-! ### The steps -/

theorem pending_of_visiting {event : EventType} (h : s.responder = .visiting event) :
    s.pending = event :: s.events := by
  rw [State.pending, h]

theorem pending_of_ne (h : ∀ event, s.responder ≠ .visiting event) : s.pending = s.events := by
  rw [State.pending]
  split
  · rename_i event hevent
    exact absurd hevent (h event)
  · rfl

theorem pending_push (s : State) (event : EventType) :
    { s with events := s.events ++ [event] }.pending = s.pending ++ [event] := by
  cases hs : s.responder <;> simp [State.pending, hs]

/-- A datagram is put into the queue. -/
theorem Consistent.push (h : Consistent s) (source : AddressV4) (bits : List UInt8) :
    Consistent { s with events := s.events ++ [.packet source bits] } := by
  refine h.of_unseen h.defined rfl rfl rfl rfl
    (fun p => ⟨Iff.rfl, Iff.rfl, Iff.rfl, fun n => ?_⟩) ?_
  · rw [pending_push, List.mem_append]
    simp
  · rw [pending_push, List.filterMap_append]
    simp [EventType.who]

/-- The responder takes an event. -/
theorem Consistent.pop (h : Consistent s) (hs : s.responder = .popping) {event : EventType}
    {events : List EventType} (hevents : s.events = event :: events) :
    Consistent { s with events, responder := .visiting event } := by
  have hpending : { s with events, responder := .visiting event }.pending = s.pending := by
    rw [pending_of_visiting rfl, pending_of_ne (by simp [hs]), hevents]
  refine h.of_unseen (by simp) rfl rfl rfl rfl (fun p => ⟨Iff.rfl, ?_, ?_, fun n => ?_⟩) ?_
  · simp [hs]
  · simp [hs]
  · rw [hpending]
  · rw [hpending]

/-- The responder drops a datagram. -/
theorem Consistent.drop (h : Consistent s) {source : AddressV4} {bits : List UInt8}
    (hs : s.responder = .visiting (.packet source bits)) (io : IoState) :
    Consistent { s with io, responder := .popping } := by
  have hpending := pending_of_visiting hs
  refine h.of_unseen (by simp) rfl rfl rfl rfl (fun p => ⟨Iff.rfl, ?_, ?_, fun n => ?_⟩) ?_
  · simp [hs]
  · simp [hs]
  · rw [hpending, pending_of_ne (by simp)]
    simp
  · rw [hpending, pending_of_ne (by simp), List.filterMap_cons]
    rfl

/-- The responder constructs a session, at an address that is free. -/
theorem Consistent.construct (h : Consistent s) {source : AddressV4} {bits : List UInt8}
    (hs : s.responder = .visiting (.packet source bits)) (io : IoState) (hnull : p ≠ 0)
    (hp : s.sessions p = none) :
    Consistent { s with
      io, responder := .emplacing p, created := s.created + 1
      sessions := Function.update s.sessions p (some ⟨s.created, false, .transferring⟩) } := by
  have hpending : ∀ q n, .notify q n ∈ s.events ↔ .notify q n ∈ s.pending := by
    intro q n
    rw [pending_of_visiting hs]
    simp
  have hfree := h.free p hp
  refine h.of_unseen_others p (by simp) (fun q hq => Function.update_of_ne hq ..)
    (fun q hq => ⟨Iff.rfl, by simp [hs, hq.symm], by simp [hs], hpending q⟩) (Nat.le_succ _)
    (fun _ hn => hn) (fun _ _ _ _ => Iff.rfl) (fun x hx => ?_) (fun hx => ?_)
    (fun x hx q hq y hy => ?_) ?_ h.erased fun n hn => ?_
  · simp only [Function.update_self, Option.some.injEq] at hx
    subst hx
    have hnew : s.created ∉ s.erased := fun hn => absurd (h.erased_lt _ hn).1 (lt_irrefl _)
    refine ⟨hnull, Nat.lt_succ_self _, fun hx => absurd rfl hx, ?_, ?_, fun n hn => ?_, ?_⟩
    · simpa using hfree.listed
    · rw [pending_of_ne (by simp), hpending]
      simpa using hfree.own s.created
    · exact absurd ((hpending p n).mp hn) (hfree.own n)
    · simpa using hnew
  · simp at hx
  · simp only [Function.update_self, Option.some.injEq] at hx
    subst hx
    exact (h.live q y hy).number_lt.ne
  · have honce := h.once
    rw [pending_of_visiting hs, List.filterMap_cons] at honce
    exact honce
  · exact ⟨(h.erased_lt n hn).1.trans (Nat.lt_succ_self _), (h.erased_lt n hn).2⟩

/-- **A notification** finds its session, which is done and in the list. -/
theorem Consistent.notify_found (h : Consistent s) {number : ℕ}
    (hs : s.responder = .visiting (.notify p number)) :
    ∃ x, s.sessions p = some x ∧ x.number = number ∧ x.done = true ∧ p ∈ s.sessionList := by
  have hmem : .notify p number ∈ s.pending := by
    rw [pending_of_visiting hs]
    exact List.mem_cons_self
  cases hx : s.sessions p with
  | none => exact absurd hmem ((h.free p hx).own number)
  | some x =>
    have hlive := h.live p x hx
    obtain ⟨rfl, -⟩ := hlive.own number hmem
    have hfinished := hlive.finished.mpr (.inl hmem)
    exact ⟨x, rfl, rfl, (hlive.done (by simp [hfinished])).1,
      hlive.listed.mpr (by simp [hs])⟩

/-- The responder erases the session that has notified. -/
theorem Consistent.erase (h : Consistent s) {number : ℕ}
    (hs : s.responder = .visiting (.notify p number)) : Consistent (visitNotify s p) := by
  obtain ⟨x, hx, rfl, hdone, hlisted⟩ := h.notify_found hs
  have hlive := h.live p x hx
  have hpending := pending_of_visiting hs
  have hfinished : x.thread = .finished := hlive.finished.mpr (.inl (by simp [hpending]))
  have honce := h.once
  rw [hpending, List.filterMap_cons] at honce
  obtain ⟨hlast, honce⟩ := List.nodup_cons.mp honce
  have herased : x.number ∉ s.erased := by simp [hlive.erased, hs]
  have heq : visitNotify s p = { s with
      sessionList := s.sessionList.erase p, erased := s.erased ++ [x.number]
      responder := .destroying p } := by
    simp [visitNotify, hlive.nonnull, hx, hdone, hlisted]
  rw [heq]
  refine h.of_unseen_others p (by simp) (fun _ _ => rfl) (fun q hq => ⟨?_, ?_, ?_, fun n => ?_⟩)
    le_rfl (fun _ hn => hn) (fun q hq y hy => ?_) (fun y hy => ?_) (fun hy => ?_)
    (fun y hy q hq z hz => ?_) honce ?_ fun n hn => ?_
  · simp [hq]
  · simp [hs]
  · simp [hs, hq.symm]
  · rw [hpending, pending_of_ne (by simp)]
    simp [hq]
  · have hne : y.number ≠ x.number := fun hnumber => hq (h.numbers q p y x hy hx hnumber)
    simp [hne]
  · obtain rfl := Option.some.inj (hx.symm.trans hy)
    refine ⟨hlive.nonnull, hlive.number_lt, hlive.done, by simp, by simp [hfinished],
      fun n hn => absurd (mem_filterMap_who.mpr ⟨n, hn⟩) hlast, by simp⟩
  · cases hx.symm.trans hy
  · obtain rfl := Option.some.inj (hx.symm.trans hy)
    exact fun hnumber => hq (h.numbers q p z x hz hx hnumber)
  · simpa using h.erased.concat herased
  · rcases List.mem_append.mp hn with hn | hn
    · exact h.erased_lt n hn
    · obtain rfl := List.mem_singleton.mp hn
      exact ⟨hlive.number_lt, (hlive.done (by simp [hfinished])).2⟩

/-- The session at an address the responder is at. -/
theorem Consistent.exists_live (h : Consistent s)
    (hs : s.responder = .emplacing p ∨ s.responder = .destroying p) :
    ∃ x, s.sessions p = some x := by
  rw [← Option.isSome_iff_exists, Option.isSome_iff_ne_none]
  intro hp
  exact hs.elim (h.free p hp).emplacing (h.free p hp).destroying

/-- The responder puts the session it has constructed into the list. -/
theorem Consistent.emplace (h : Consistent s) (hs : s.responder = .emplacing p) :
    p ∉ s.sessionList ∧
      Consistent { s with sessionList := insert p s.sessionList, responder := .popping } := by
  obtain ⟨x, hx⟩ := h.exists_live (.inl hs)
  have hlive := h.live p x hx
  have hpending : s.pending = s.events := pending_of_ne (by simp [hs])
  have hlisted : p ∉ s.sessionList := fun hp => (hlive.listed.mp hp).1 hs
  refine ⟨hlisted, h.of_unseen_others p (by simp) (fun _ _ => rfl)
    (fun q hq => ⟨by simp [hq], by simp [hs, hq.symm], by simp [hs], fun n => ?_⟩) le_rfl
    (fun _ hn => hn) (fun _ _ _ _ => Iff.rfl) (fun y hy => ?_) (fun hy => ?_)
    (fun y hy q hq z hz => ?_) ?_ h.erased h.erased_lt⟩
  · rw [hpending, pending_of_ne (by simp)]
  · obtain rfl := Option.some.inj (hx.symm.trans hy)
    refine ⟨hlive.nonnull, hlive.number_lt, hlive.done, by simp, ?_, fun n hn => ⟨?_, by simp⟩, ?_⟩
    · have hfinished := hlive.finished
      rw [hpending, hs] at hfinished
      rw [pending_of_ne (by simp)]
      simpa using hfinished
    · exact (hlive.own n (hpending ▸ hn)).1
    · simpa [hs] using hlive.erased
  · cases hx.symm.trans hy
  · obtain rfl := Option.some.inj (hx.symm.trans hy)
    exact fun hnumber => hq (h.numbers q p z x hz hx hnumber)
  · have honce := h.once
    rwa [hpending] at honce

/-- The responder has joined the thread of a session and frees its memory. -/
theorem Consistent.destroy (h : Consistent s) (hs : s.responder = .destroying p) :
    (∃ x, s.sessions p = some x ∧ x.thread = .finished) ∧ Consistent { s with
      sessions := Function.update s.sessions p none, responder := .popping } := by
  obtain ⟨x, hx⟩ := h.exists_live (.inr hs)
  have hlive := h.live p x hx
  have hpending : s.pending = s.events := pending_of_ne (by simp [hs])
  refine ⟨⟨x, hx, hlive.finished.mpr (.inr hs)⟩, h.of_unseen_others p (by simp)
    (fun q hq => Function.update_of_ne hq ..)
    (fun q hq => ⟨Iff.rfl, by simp [hs], by simp [hs, hq.symm], fun n => ?_⟩) le_rfl
    (fun _ hn => hn) (fun _ _ _ _ => Iff.rfl) (fun y hy => ?_) (fun _ => ?_)
    (fun y hy _ _ _ _ => ?_) ?_ h.erased h.erased_lt⟩
  · rw [hpending, pending_of_ne (by simp)]
  · simp at hy
  · refine ⟨fun hp => (hlive.listed.mp hp).2 hs, by simp, by simp, fun n hn => ?_⟩
    exact (hlive.own n (hpending ▸ hn)).2 hs
  · simp at hy
  · have honce := h.once
    rwa [hpending] at honce

/-- A session thread sets `m_done`. -/
theorem Consistent.store (h : Consistent s) {number : ℕ} {done : Bool}
    (hx : s.sessions p = some ⟨number, done, .transferring⟩) :
    Consistent { s with
      sessions := Function.update s.sessions p (some ⟨number, true, .notifying⟩)
      marked := s.marked ++ [number] } := by
  have hlive := h.live p _ hx
  refine h.of_unseen_others p h.defined (fun q hq => Function.update_of_ne hq ..)
    (fun _ _ => ⟨Iff.rfl, Iff.rfl, Iff.rfl, fun _ => Iff.rfl⟩) le_rfl
    (List.subset_append_left _ _) (fun _ _ _ _ => Iff.rfl) (fun y hy => ?_) (fun hy => ?_)
    (fun y hy q hq z hz => ?_) h.once h.erased fun n hn => ?_
  · simp only [Function.update_self, Option.some.injEq] at hy
    subst hy
    refine ⟨hlive.nonnull, hlive.number_lt, fun _ => ⟨rfl, by simp⟩, hlive.listed, ?_, hlive.own,
      hlive.erased⟩
    show _ ↔ .notify p number ∈ s.pending ∨ s.responder = .destroying p
    simpa using hlive.finished
  · simp at hy
  · simp only [Function.update_self, Option.some.injEq] at hy
    subst hy
    exact fun hnumber => hq (h.numbers q p z _ hz hx hnumber)
  · exact ⟨(h.erased_lt n hn).1, List.mem_append_left _ (h.erased_lt n hn).2⟩

/-- A session thread notifies the server. -/
theorem Consistent.notify (h : Consistent s) {number : ℕ} {done : Bool}
    (hx : s.sessions p = some ⟨number, done, .notifying⟩) :
    Consistent { s with
      sessions := Function.update s.sessions p (some ⟨number, done, .finished⟩)
      events := s.events ++ [.notify p number] } := by
  have hlive := h.live p _ hx
  obtain ⟨hnone, hdestroying⟩ := not_or.mp fun hfinished =>
    SessionThread.noConfusion (hlive.finished.mpr hfinished)
  have hfirst : ∀ n, .notify p n ∉ s.pending := by
    intro n hn
    obtain ⟨rfl, -⟩ := hlive.own n hn
    exact hnone hn
  have hpending : { s with
      sessions := Function.update s.sessions p (some ⟨number, done, .finished⟩)
      events := s.events ++ [EventType.notify p number] }.pending =
      s.pending ++ [.notify p number] := pending_push s _
  refine h.of_unseen_others p h.defined (fun q hq => Function.update_of_ne hq ..)
    (fun q hq => ⟨Iff.rfl, Iff.rfl, Iff.rfl, fun n => ?_⟩) le_rfl (fun _ hn => hn)
    (fun _ _ _ _ => Iff.rfl) (fun y hy => ?_) (fun hy => ?_) (fun y hy q hq z hz => ?_) ?_ h.erased
    h.erased_lt
  · rw [hpending]
    simp [hq]
  · simp only [Function.update_self, Option.some.injEq] at hy
    subst hy
    refine ⟨hlive.nonnull, hlive.number_lt, fun _ => hlive.done (by simp), hlive.listed, ?_,
      fun n hn => ?_, hlive.erased⟩
    · rw [hpending]
      simp
    · rw [hpending, List.mem_append] at hn
      refine ⟨?_, hdestroying⟩
      simpa [hfirst n] using hn
  · simp at hy
  · simp only [Function.update_self, Option.some.injEq] at hy
    subst hy
    exact fun hnumber => hq (h.numbers q p z _ hz hx hnumber)
  · have hlast : p ∉ s.pending.filterMap EventType.who := by
      rw [mem_filterMap_who]
      exact fun ⟨n, hn⟩ => hfirst n hn
    rw [hpending, List.filterMap_append]
    simpa [EventType.who] using h.once.concat hlast

/-! ### Runs -/

/-- **A step** of any of the threads. -/
theorem Consistent.step {a : Action} (h : Consistent s) (hstep : step s a = some s') :
    Consistent s' := by
  cases steps_of_step hstep with
  | arrives => exact h.push _ _
  | ignores => exact h
  | pops hs hevents => exact h.pop hs hevents
  | visitsPacket hs hvisit =>
    rw [visitDatagram] at hvisit
    dsimp only at hvisit
    split at hvisit
    · obtain ⟨⟨hnull, hp⟩, hvisit⟩ := Option.ite_none_right_eq_some.mp hvisit
      obtain rfl := Option.some.inj hvisit
      exact h.construct hs _ hnull hp
    · obtain rfl := Option.some.inj hvisit
      exact h.drop hs _
  | visitsNotify hs => exact h.erase hs
  | drops hs hp => exact absurd hp (h.emplace hs).1
  | emplaces hs hp => exact (h.emplace hs).2
  | dangles hs hp =>
    -- the session in the list is there
    obtain ⟨⟨x, hx, -⟩, -⟩ := h.destroy hs
    rw [hp] at hx
    cases hx
  | destroys hs hp hfinished => exact (h.destroy hs).2
  | stores hp => exact h.store hp
  | notifies hp => exact h.notify hp

/-- **Every run** is consistent. -/
theorem consistent_run {as : List Action} (hrun : run step start as = some s) : Consistent s :=
  Keeps.run (fun _ _ _ h hstep => h.step hstep) consistent_start hrun

/-- All session threads have finished. -/
def AllFinished (s : State) : Prop := ∀ p x, s.sessions p = some x → x.thread = .finished

/-- What becomes of the sessions of a server in the state `s`. -/
structure Lifecycle (s : State) : Prop where
  /-- No notification reads a session that has been destroyed. -/
  defined : s.responder ≠ .undefined
  /-- A notification finds its own session, and in the list. -/
  found : ∀ p number, s.responder = .visiting (.notify p number) →
    p ∈ s.sessionList ∧ ∃ x, s.sessions p = some x ∧ x.number = number
  once : s.erased.Nodup
  /-- What has been erased had `m_done` set. -/
  done : ∀ number ∈ s.erased, number ∈ s.marked
  /-- With an empty queue and all threads finished, the list is empty, unless the responder is
  handling a notification: then it may hold the session that notified. -/
  empty : s.events = [] → AllFinished s →
    ∀ p ∈ s.sessionList, ∃ number, s.responder = .visiting (.notify p number)

theorem Consistent.lifecycle (h : Consistent s) : Lifecycle s where
  defined := h.defined
  found p number hs := by
    obtain ⟨x, hx, hnumber, -, hlisted⟩ := h.notify_found hs
    exact ⟨hlisted, x, hx, hnumber⟩
  once := h.erased
  done number hnumber := (h.erased_lt number hnumber).2
  empty hevents hfinished p hp := by
    cases hx : s.sessions p with
    | none => exact absurd hp (h.free p hx).listed
    | some x =>
      have hlive := h.live p x hx
      have hpending := (hlive.finished.mp (hfinished p x hx)).resolve_right (hlive.listed.mp hp).2
      rw [State.pending] at hpending
      split at hpending
      · rename_i event hs
        rw [hevents, List.mem_singleton] at hpending
        exact ⟨x.number, hpending ▸ hs⟩
      · rw [hevents] at hpending
        cases hpending

/-- **The life of the sessions**, in every run: erased after they are done, at most once and for
their own notification, and none is left over. -/
theorem session_list_lifecycle (as : List Action) : Along step Lifecycle start as :=
  along_of_run fun _ _ hrun => (consistent_run hrun).lifecycle

/-- **Between the queue and the list**: the notification is out of the queue before its session is
out of the list. -/
theorem listed_while_handled : ∃ s, run step start
    [.receive (.datagram ⟨1, 69⟩ [0, 1, 97, 0, 111, 99, 116, 101, 116, 0]), .pop,
      .visit (.serving ⟨[], by decide⟩) (some 1), .emplace, .store 1, .notify 1, .pop] = some s ∧
    s.events = [] ∧ AllFinished s ∧ s.sessionList ≠ ∅ := by
  refine ⟨_, rfl, rfl, fun p x hx => ?_, Finset.insert_ne_empty 1 ∅⟩
  by_cases hp : p = 1
  · subst hp
    exact Option.some.inj hx ▸ rfl
  · simp [start, hp] at hx

end TftpServerV4

end Bootpd
