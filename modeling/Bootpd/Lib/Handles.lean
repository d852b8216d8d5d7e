import Bootpd.Lib.Transition
import Mathlib.Data.Finset.Basic
import Mathlib.Logic.Equiv.Basic

/-!
# Handles and their owners

A program knows a resource outside of it by a handle. The resource is opened, used and closed, and
a handle that has been closed can come back for another resource. One value, `null`, stands for no
resource at all: it may be used, and is refused.

## Two accounts

`step` is the side of the resources: it says which of these events are in order, given the handles
that are open. Opening one that is open, and using or closing one that is not, has no step, so that
a run is a list of events in which nothing of the kind occurs.

`Accounted` is the side of the objects: the handles that are open are those that some object owns,
each owned by one, and those that have been lost. An operation on objects passes handles on, takes
one in, or gives one up, and there is a rule for each. An owner is found by the handle that an
object holds; what else is in the object does not matter.

## Main definitions

* `Handles.Event`, `Handles.step` — what is done to the resources, and when it is in order
* `Handles.Owns`, `Handles.Accounted` — who owns what, and that everything is owned or lost

## Main results

* `Handles.count_opened` — a handle is closed as often as it is opened, or once less
* `Handles.Accounted.rename` — handles change their owners
* `Handles.Accounted.gain`, `Handles.Accounted.lose`, `Handles.Accounted.close` — handles come
  and go
-/

namespace Handles

open Transition

variable {η ω : Type*}

inductive Event (η : Type*) where
  | opened (h : η)
  | used (h : η)
  | closed (h : η)
deriving DecidableEq

/-- The handles that are open after an event, if it is in order. -/
def step [DecidableEq η] (null : η) (opened : Finset η) : Event η → Option (Finset η)
  | .opened h => if h ≠ null ∧ h ∉ opened then some (insert h opened) else none
  | .used h => if h = null ∨ h ∈ opened then some opened else none
  | .closed h => if h ∈ opened then some (opened.erase h) else none

section Events

variable [DecidableEq η] {null : η} {O O' : Finset η} {es : List (Event η)} {h : η}

theorem step_opened (hnull : h ≠ null) (hO : h ∉ O) :
    step null O (.opened h) = some (insert h O) := if_pos ⟨hnull, hO⟩

theorem step_used (hO : h = null ∨ h ∈ O) : step null O (.used h) = some O := if_pos hO

theorem step_closed (hO : h ∈ O) : step null O (.closed h) = some (O.erase h) := if_pos hO

/-- One more event. -/
theorem run_concat {e : Event η} (hrun : run (step null) O es = some O')
    {O'' : Finset η} (hstep : step null O' e = some O'') :
    run (step null) O (es ++ [e]) = some O'' := by
  rw [run_append, hrun]
  show (step null O' e).bind _ = _
  rw [hstep]
  rfl

/-- **Opened and closed**: a handle has been closed as often as it has been opened, or once less
while it is open. -/
theorem count_opened (h : η) (hrun : run (step null) O es = some O') :
    es.count (.opened h) + (if h ∈ O then 1 else 0) =
      es.count (.closed h) + if h ∈ O' then 1 else 0 := by
  induction es generalizing O with
  | nil =>
    obtain rfl := Option.some.inj hrun
    rfl
  | cons e es ih =>
    obtain ⟨P, hstep, hrest⟩ := run_cons_eq_some.mp hrun
    have hcount := ih hrest
    rw [List.count_cons, List.count_cons]
    cases e with
    | opened k =>
      obtain ⟨⟨-, hk⟩, hP⟩ := Option.ite_none_right_eq_some.mp hstep
      obtain rfl := Option.some.inj hP
      by_cases hkh : k = h
      · subst hkh
        simp only [Finset.mem_insert_self, hk, if_true, if_false] at hcount ⊢
        simp
        omega
      · have hmem : h ∈ insert k O ↔ h ∈ O := by simp [Finset.mem_insert, Ne.symm hkh]
        simpa [hmem, hkh] using hcount
    | used k =>
      obtain ⟨-, hP⟩ := Option.ite_none_right_eq_some.mp hstep
      obtain rfl := Option.some.inj hP
      simpa using hcount
    | closed k =>
      obtain ⟨hk, hP⟩ := Option.ite_none_right_eq_some.mp hstep
      obtain rfl := Option.some.inj hP
      by_cases hkh : k = h
      · subst hkh
        simp only [Finset.notMem_erase, hk, if_true, if_false] at hcount ⊢
        simp
        omega
      · have hmem : h ∈ O.erase k ↔ h ∈ O := by simp [Finset.mem_erase, Ne.symm hkh]
        simpa [hmem, hkh] using hcount

end Events

/-! ### Owners -/

/-- The object at `o` owns `h`. Where there is no object, there is `none`. -/
def Owns (null : η) (objects : ω → Option η) (o : ω) (h : η) : Prop :=
  objects o = some h ∧ h ≠ null

/-- A resource is open if it is owned, by one object, or if it has been lost. -/
structure Accounted (null : η) (objects : ω → Option η) (opened lost : Finset η) : Prop where
  mem_iff : ∀ h, h ∈ opened ↔ h ∈ lost ∨ ∃ o, Owns null objects o h
  exclusive : ∀ o p h, Owns null objects o h → Owns null objects p h → o = p
  notLost : ∀ o h, Owns null objects o h → h ∉ lost

section Owners

variable {null : η} {objects objects' : ω → Option η} {opened lost : Finset η} {o p : ω} {h : η}

theorem accounted_empty : Accounted null (fun _ : ω => none) ∅ ∅ where
  mem_iff _ := by simp [Owns]
  exclusive _ _ _ ho := nomatch ho.1
  notLost _ _ ho := nomatch ho.1

theorem Accounted.mem_of_owns (ha : Accounted null objects opened lost)
    (ho : Owns null objects o h) : h ∈ opened := (ha.mem_iff h).mpr (.inr ⟨o, ho⟩)

/-- **Handles change their owners**, each for one other. -/
theorem Accounted.rename (ha : Accounted null objects opened lost) (σ : ω ≃ ω)
    (hσ : ∀ o h, Owns null objects' o h ↔ Owns null objects (σ o) h) :
    Accounted null objects' opened lost where
  mem_iff h := by
    rw [ha.mem_iff]
    refine or_congr_right ⟨?_, ?_⟩
    · rintro ⟨o, ho⟩
      exact ⟨σ.symm o, (hσ _ h).mpr (by rwa [σ.apply_symm_apply])⟩
    · rintro ⟨o, ho⟩
      exact ⟨σ o, (hσ o h).mp ho⟩
  exclusive o p h ho hp :=
    σ.injective (ha.exclusive (σ o) (σ p) h ((hσ o h).mp ho) ((hσ p h).mp hp))
  notLost o h ho := ha.notLost (σ o) h ((hσ o h).mp ho)

/-- A resource is opened, and no object gets it. -/
theorem Accounted.lose [DecidableEq η] (ha : Accounted null objects opened lost) (hh : h ∉ opened) :
    Accounted null objects (insert h opened) (insert h lost) where
  mem_iff k := by rw [Finset.mem_insert, Finset.mem_insert, ha.mem_iff, or_assoc]
  exclusive := ha.exclusive
  notLost o k ho hk := by
    rcases Finset.mem_insert.mp hk with rfl | hk
    · exact hh (ha.mem_of_owns ho)
    · exact ha.notLost o k ho hk

variable [DecidableEq ω]

theorem owns_update {x : Option η} {q : ω} : Owns null (Function.update objects o x) q h ↔
    if q = o then x = some h ∧ h ≠ null else Owns null objects q h := by
  rw [Owns, Function.update_apply]
  split_ifs <;> rfl

/-- An object that owns nothing comes or goes. -/
theorem Accounted.replace (ha : Accounted null objects opened lost) {x : Option η}
    (ho : ∀ h, ¬Owns null objects o h) (hx : x = none ∨ x = some null) :
    Accounted null (Function.update objects o x) opened lost := by
  refine ha.rename (.refl ω) fun q h => ?_
  rw [owns_update, Equiv.refl_apply]
  split_ifs with hq
  · subst hq
    refine iff_of_false ?_ (ho h)
    rcases hx with rfl | rfl
    · simp
    · rintro ⟨heq, hne⟩
      exact hne (Option.some.inj heq).symm
  · rfl

/-- Two objects swap. -/
theorem Accounted.swap (ha : Accounted null objects opened lost) :
    Accounted null (Function.update (Function.update objects o (objects p)) p (objects o))
      opened lost := by
  refine ha.rename (Equiv.swap o p) fun q h => ?_
  rw [owns_update, owns_update]
  split_ifs with hp ho
  · rw [hp, Equiv.swap_apply_right]
    rfl
  · rw [ho, Equiv.swap_apply_left]
    rfl
  · rw [Equiv.swap_apply_of_ne_of_ne ho hp]

variable [DecidableEq η]

/-- An object that owned nothing gets a new handle. -/
theorem Accounted.gain (ha : Accounted null objects opened lost) (ho : ∀ h, ¬Owns null objects o h)
    (hnull : h ≠ null) (hh : h ∉ opened) :
    Accounted null (Function.update objects o (some h)) (insert h opened) lost := by
  have hnobody (q : ω) : ¬Owns null objects q h := fun hq => hh (ha.mem_of_owns hq)
  have howns (q : ω) (k : η) : Owns null (Function.update objects o (some h)) q k ↔
      q = o ∧ k = h ∨ Owns null objects q k := by
    rw [owns_update]
    split_ifs with hq
    · subst hq
      rw [or_iff_left (ho k), and_iff_right rfl]
      constructor
      · exact fun heq => (Option.some.inj heq.1).symm
      · rintro rfl
        exact ⟨rfl, hnull⟩
    · exact (or_iff_right fun hk => hq hk.1).symm
  refine ⟨fun k => ?_, fun q r k hq hr => ?_, fun q k hq => ?_⟩
  · rw [Finset.mem_insert, ha.mem_iff]
    simp only [howns]
    constructor
    · rintro (rfl | hk | ⟨q, hq⟩)
      · exact .inr ⟨o, .inl ⟨rfl, rfl⟩⟩
      · exact .inl hk
      · exact .inr ⟨q, .inr hq⟩
    · rintro (hk | ⟨q, ⟨-, rfl⟩ | hq⟩)
      · exact .inr (.inl hk)
      · exact .inl rfl
      · exact .inr (.inr ⟨q, hq⟩)
  · rcases (howns q k).mp hq with ⟨hq, hk⟩ | hq
    · rcases (howns r k).mp hr with ⟨hr, -⟩ | hr
      · rw [hq, hr]
      · exact absurd (hk ▸ hr) (hnobody r)
    · rcases (howns r k).mp hr with ⟨-, hk⟩ | hr
      · exact absurd (hk ▸ hq) (hnobody q)
      · exact ha.exclusive q r k hq hr
  · rcases (howns q k).mp hq with ⟨-, rfl⟩ | hq
    · exact fun hk => hh ((ha.mem_iff k).mpr (.inl hk))
    · exact ha.notLost q k hq

/-- An object closes what it owns. -/
theorem Accounted.close (ha : Accounted null objects opened lost) (ho : Owns null objects o h)
    {x : Option η} (hx : x = none ∨ x = some null) :
    Accounted null (Function.update objects o x) (opened.erase h) lost := by
  have howns (q : ω) (k : η) : Owns null (Function.update objects o x) q k ↔
      k ≠ h ∧ Owns null objects q k := by
    rw [owns_update]
    split_ifs with hq
    · subst hq
      refine iff_of_false ?_ fun ⟨hk, hq⟩ => hk (Option.some.inj (hq.1.symm.trans ho.1))
      rcases hx with rfl | rfl
      · simp
      · rintro ⟨heq, hne⟩
        exact hne (Option.some.inj heq).symm
    · refine ⟨fun hk => ⟨?_, hk⟩, And.right⟩
      rintro rfl
      exact hq (ha.exclusive q o k hk ho)
  refine ⟨fun k => ?_, fun q r k hq hr => ?_, fun q k hq => ?_⟩
  · rw [Finset.mem_erase, ha.mem_iff]
    simp only [howns]
    constructor
    · rintro ⟨hne, hk | ⟨q, hq⟩⟩
      · exact .inl hk
      · exact .inr ⟨q, hne, hq⟩
    · rintro (hk | ⟨q, hne, hq⟩)
      · refine ⟨?_, .inl hk⟩
        rintro rfl
        exact ha.notLost o k ho hk
      · exact ⟨hne, .inr ⟨q, hq⟩⟩
  · exact ha.exclusive q r k ((howns q k).mp hq).2 ((howns r k).mp hr).2
  · exact ha.notLost q k ((howns q k).mp hq).2

end Owners

end Handles
