import Bootpd.Lib.Transition
import Mathlib.Data.List.Perm.Subperm
import Mathlib.Logic.Function.Basic

/-!
# Objects that threads share

An object is given by what its calls do when they are made one at a time. When threads call it at
the same time, all that is seen is which thread calls what and when, and what it gets back. Such a
history is linearizable if every call can be given an instant, between its beginning and its end,
at which it is performed by itself.

A machine of threads implements an object if its steps are steps of the object: a thread begins a
call, performs the one it has begun, returns with the result, or does nothing to be seen.

## Instants

`Atomic` is the object with, for each thread, the call that it has begun and perhaps performed. Its
steps are the beginning, the performing and the return of a call, and `Linearizes` puts a history
beside the list of the calls that are performed in between. A call that has not returned may have
been performed or not. The state that the list ends in is part of it, so that a run of a machine is
linearized together with the state it leaves.

What is wanted of a linearization are facts about the history alone: that nothing is returned twice,
and that calls which do not overlap are performed in their order. They are proved here for every
object.

## Main definitions

* `Event`, `Performed`, `Atomic` — a history, and the object with its pending calls
* `Linearizes`, `Linearizable` — a history and an order of its calls
* `Implements` — a machine whose steps are steps of the object

## Main results

* `Linearizes.legal` — the calls, in the order they are performed, are a run of the object
* `Linearizes.accounts` — each thread's calls and results are those that are performed for it
* `Linearizes.performed_subperm`, `Linearizes.returned_subperm` — nothing is performed or returned
  twice
* `Linearizes.split` — calls that have returned are performed before those that begin later
* `Implements.linearizes` — the runs of a machine that implements an object are linearizable
-/

namespace SharedObject

variable {ι β κ ρ σ α : Type*}

/-- What is seen of the threads. -/
inductive Event (ι κ ρ : Type*) where
  | call (i : ι) (c : κ)
  | ret (i : ι) (r : ρ)
deriving DecidableEq

/-- A call that has been performed. -/
structure Performed (ι κ ρ : Type*) where
  thread : ι
  call : κ
  result : ρ
deriving DecidableEq

/-- Where a thread is with its call. -/
inductive Status (κ ρ : Type*) where
  | idle
  | called (c : κ)
  | performed (c : κ) (r : ρ)
deriving DecidableEq

/-- The object with its threads. -/
structure Atomic (ι β κ ρ : Type*) where
  value : β
  status : ι → Status κ ρ

/-- Nobody has called. -/
def Atomic.start (b : β) : Atomic ι β κ ρ := ⟨b, fun _ => .idle⟩

/-- The call of a thread. -/
def Event.callOf [DecidableEq ι] (i : ι) : Event ι κ ρ → Option κ
  | .call j c => if j = i then some c else none
  | .ret .. => none

/-- The result of a thread. -/
def Event.resultOf [DecidableEq ι] (i : ι) : Event ι κ ρ → Option ρ
  | .call .. => none
  | .ret j r => if j = i then some r else none

/-- A call, with its thread. -/
def Event.called : Event ι κ ρ → Option (ι × κ)
  | .call i c => some (i, c)
  | .ret .. => none

/-- A result, with its thread. -/
def Event.returned : Event ι κ ρ → Option (ι × ρ)
  | .call .. => none
  | .ret i r => some (i, r)

/-- What a thread calls, in order. -/
def callsOf [DecidableEq ι] (i : ι) (es : List (Event ι κ ρ)) : List κ :=
  es.filterMap (Event.callOf i)

/-- What a thread gets back, in order. -/
def resultsOf [DecidableEq ι] (i : ι) (es : List (Event ι κ ρ)) : List ρ :=
  es.filterMap (Event.resultOf i)

/-- What is performed for a thread, in order. -/
def performedFor [DecidableEq ι] (i : ι) (ps : List (Performed ι κ ρ)) :
    List (Performed ι κ ρ) := ps.filter (·.thread = i)

section

/-! ### The object by itself -/

variable (perform : β → κ → ρ → β → Prop)

/-- The calls are performed one after the other. -/
inductive Legal : β → List (Performed ι κ ρ) → β → Prop where
  | nil (b : β) : Legal b [] b
  | snoc {b b' b'' : β} {ps : List (Performed ι κ ρ)} {p : Performed ι κ ρ}
      (h : Legal b ps b') (hp : perform b' p.call p.result b'') : Legal b (ps ++ [p]) b''

/-- A step of the object with its threads: what is seen of it, and what is performed. -/
inductive AtomicStep [DecidableEq ι] (t : Atomic ι β κ ρ) :
    Option (Event ι κ ρ) → Option (Performed ι κ ρ) → Atomic ι β κ ρ → Prop where
  | stays : AtomicStep t none none t
  | calls {i : ι} (c : κ) (hi : t.status i = .idle) :
      AtomicStep t (some (.call i c)) none
        { t with status := Function.update t.status i (.called c) }
  | performs {i : ι} {c : κ} {r : ρ} {b : β} (hi : t.status i = .called c)
      (hp : perform t.value c r b) :
      AtomicStep t none (some ⟨i, c, r⟩)
        ⟨b, Function.update t.status i (.performed c r)⟩
  | returns {i : ι} {c : κ} {r : ρ} (hi : t.status i = .performed c r) :
      AtomicStep t (some (.ret i r)) none { t with status := Function.update t.status i .idle }

/-- The history `es`, in which the calls `ps` are performed in this order. -/
inductive Linearizes [DecidableEq ι] (t : Atomic ι β κ ρ) :
    List (Event ι κ ρ) → List (Performed ι κ ρ) → Atomic ι β κ ρ → Prop where
  | refl : Linearizes t [] [] t
  | tail {es : List (Event ι κ ρ)} {ps : List (Performed ι κ ρ)} {t' t'' : Atomic ι β κ ρ}
      {e : Option (Event ι κ ρ)} {p : Option (Performed ι κ ρ)} (h : Linearizes t es ps t')
      (hstep : AtomicStep perform t' e p t'') : Linearizes t (es ++ e.toList) (ps ++ p.toList) t''

/-- **Linearizable histories** of an object that has the value `b` at first. They leave the object,
and the threads with their calls, as `t` has them. -/
def Linearizable [DecidableEq ι] (b : β) (es : List (Event ι κ ρ)) (t : Atomic ι β κ ρ) : Prop :=
  ∃ ps, Linearizes perform (.start b) es ps t

end

section

variable {perform : β → κ → ρ → β → Prop} [DecidableEq ι] {t t' t'' : Atomic ι β κ ρ}
  {es es' : List (Event ι κ ρ)} {ps ps' : List (Performed ι κ ρ)}

/-- **The calls that are performed** are a run of the object. -/
theorem Linearizes.legal (h : Linearizes perform t es ps t') :
    Legal perform t.value ps t'.value := by
  induction h with
  | refl => exact .nil _
  | tail _ hstep ih =>
    cases hstep with
    | performs hi hp => exact ih.snoc hp
    | stays | calls | returns => simpa using ih

theorem Linearizes.trans (h : Linearizes perform t es ps t')
    (h' : Linearizes perform t' es' ps' t'') :
    Linearizes perform t (es ++ es') (ps ++ ps') t'' := by
  induction h' with
  | refl => simpa using h
  | tail _ hstep ih => simpa only [List.append_assoc] using ih.tail hstep

/-! ### What a thread sees -/

/-- The calls and the results of a thread, beside what is performed for it. -/
inductive Accounts (i : ι) (es : List (Event ι κ ρ)) (ps : List (Performed ι κ ρ)) :
    Status κ ρ → Prop where
  | idle (hcalls : callsOf i es = (performedFor i ps).map (·.call))
      (hresults : resultsOf i es = (performedFor i ps).map (·.result)) : Accounts i es ps .idle
  | called {c : κ} (hcalls : callsOf i es = (performedFor i ps).map (·.call) ++ [c])
      (hresults : resultsOf i es = (performedFor i ps).map (·.result)) :
      Accounts i es ps (.called c)
  | performed {c : κ} {r : ρ} (hcalls : callsOf i es = (performedFor i ps).map (·.call))
      (hresults : resultsOf i es ++ [r] = (performedFor i ps).map (·.result)) :
      Accounts i es ps (.performed c r)

@[simp] theorem callsOf_append (i : ι) :
    callsOf i (es ++ es') = callsOf i es ++ callsOf i es' := List.filterMap_append

@[simp] theorem resultsOf_append (i : ι) :
    resultsOf i (es ++ es') = resultsOf i es ++ resultsOf i es' := List.filterMap_append

@[simp] theorem performedFor_append (i : ι) :
    performedFor i (ps ++ ps') = performedFor i ps ++ performedFor i ps' := List.filter_append ..

theorem Accounts.calls {i : ι} (h : Accounts i es ps .idle) (c : κ) :
    Accounts i (es ++ [.call i c]) ps (.called c) := by
  cases h with
  | idle hcalls hresults =>
    refine .called ?_ ?_
    · rw [callsOf_append, hcalls]
      simp [callsOf, Event.callOf]
    · rw [resultsOf_append, hresults]
      simp [resultsOf, Event.resultOf]

theorem Accounts.performs {i : ι} {c : κ} (h : Accounts i es ps (.called c)) (r : ρ) :
    Accounts i es (ps ++ [⟨i, c, r⟩]) (.performed c r) := by
  cases h with
  | called hcalls hresults =>
    exact .performed (by simp [hcalls, performedFor]) (by simp [hresults, performedFor])

theorem Accounts.returns {i : ι} {c : κ} {r : ρ} (h : Accounts i es ps (.performed c r)) :
    Accounts i (es ++ [.ret i r]) ps .idle := by
  cases h with
  | performed hcalls hresults =>
    refine .idle ?_ ?_
    · rw [callsOf_append, hcalls]
      simp [callsOf, Event.callOf]
    · rw [resultsOf_append, ← hresults]
      simp [resultsOf, Event.resultOf]

/-- What another thread does is not seen. -/
theorem Accounts.congr {i : ι} {status : Status κ ρ} (h : Accounts i es ps status)
    (hcalls : callsOf i es' = callsOf i es) (hresults : resultsOf i es' = resultsOf i es)
    (hperformed : performedFor i ps' = performedFor i ps) : Accounts i es' ps' status := by
  cases h with
  | idle h₁ h₂ => exact .idle (by rw [hcalls, hperformed, h₁]) (by rw [hresults, hperformed, h₂])
  | called h₁ h₂ =>
    exact .called (by rw [hcalls, hperformed, h₁]) (by rw [hresults, hperformed, h₂])
  | performed h₁ h₂ =>
    exact .performed (by rw [hcalls, hperformed, h₁]) (by rw [hresults, hperformed, h₂])

/-- **Every thread** gets the results of its own calls. -/
theorem Linearizes.accounts {b : β} (h : Linearizes perform (.start b) es ps t) (i : ι) :
    Accounts i es ps (t.status i) := by
  induction h with
  | refl => exact .idle rfl rfl
  | @tail es ps t _ _ _ _ hstep ih =>
    cases hstep with
    | stays => simpa using ih
    | @calls j c hj =>
      simp only [Option.toList_some, Option.toList_none, List.append_nil]
      by_cases hi : i = j
      · subst hi
        rw [hj] at ih
        simpa using ih.calls c
      · rw [Function.update_of_ne hi]
        exact ih.congr (by simp [callsOf, Event.callOf, Ne.symm hi])
          (by simp [resultsOf, Event.resultOf]) rfl
    | @performs j c r b hj hp =>
      simp only [Option.toList_some, Option.toList_none, List.append_nil]
      by_cases hi : i = j
      · subst hi
        rw [hj] at ih
        simpa using ih.performs r
      · rw [Function.update_of_ne hi]
        exact ih.congr rfl rfl (by simp [performedFor, Ne.symm hi])
    | @returns j c r hj =>
      simp only [Option.toList_some, Option.toList_none, List.append_nil]
      by_cases hi : i = j
      · subst hi
        rw [hj] at ih
        simpa using ih.returns
      · rw [Function.update_of_ne hi]
        exact ih.congr (by simp [callsOf, Event.callOf])
          (by simp [resultsOf, Event.resultOf, Ne.symm hi]) rfl

/-- What is performed for a thread has been called by it, and what it gets back has been
performed. -/
theorem Accounts.prefixes {i : ι} {status : Status κ ρ} (h : Accounts i es ps status) :
    (performedFor i ps).map (·.call) <+: callsOf i es ∧
      resultsOf i es <+: (performedFor i ps).map (·.result) := by
  cases h with
  | idle hcalls hresults => exact ⟨hcalls ▸ List.prefix_rfl, hresults ▸ List.prefix_rfl⟩
  | called hcalls hresults => exact ⟨hcalls ▸ List.prefix_append .., hresults ▸ List.prefix_rfl⟩
  | performed hcalls hresults =>
    exact ⟨hcalls ▸ List.prefix_rfl, hresults ▸ List.prefix_append ..⟩

/-! ### What all threads see -/

/-- How often something happens to a thread. -/
theorem count_filterMap_pairs {γ δ : Type*} [DecidableEq γ] (f : δ → Option (ι × γ)) (i : ι)
    (c : γ) (xs : List δ) : (xs.filterMap f).count (i, c) =
      (xs.filterMap fun x => (f x).bind fun p => if p.1 = i then some p.2 else none).count c := by
  induction xs with
  | nil => rfl
  | cons x xs ih =>
    rw [List.filterMap_cons, List.filterMap_cons]
    rcases hx : f x with _ | ⟨j, c'⟩
    · exact ih
    · by_cases hj : j = i
      · subst hj
        by_cases hc : c' = c <;> simp [hc, ih]
      · simp [hj, ih]

/-- How often something is performed for a thread. -/
theorem count_map_pairs {γ : Type*} [DecidableEq γ] (g : Performed ι κ ρ → γ) (i : ι) (c : γ)
    (ps : List (Performed ι κ ρ)) :
    (ps.map fun p => (p.thread, g p)).count (i, c) = ((performedFor i ps).map g).count c := by
  induction ps with
  | nil => rfl
  | cons p ps ih =>
    by_cases hp : p.thread = i
    · by_cases hc : g p = c <;> simp_all [performedFor]
    · simp_all [performedFor]

/-- **What is performed** has been called, and no call is performed twice. -/
theorem Linearizes.performed_subperm {b : β} (h : Linearizes perform (.start b) es ps t) :
    (ps.map fun p => (p.thread, p.call)).Subperm (es.filterMap Event.called) := by
  classical
  rw [List.subperm_ext_iff]
  rintro ⟨i, c⟩ -
  have hcalls : callsOf i es = es.filterMap fun e =>
      e.called.bind fun p => if p.1 = i then some p.2 else none :=
    congrArg (es.filterMap ·) (funext fun e => by cases e <;> rfl)
  rw [count_map_pairs, count_filterMap_pairs, ← hcalls]
  exact (h.accounts i).prefixes.1.sublist.count_le c

/-- **What is returned** has been performed, and no result is returned twice. -/
theorem Linearizes.returned_subperm {b : β} (h : Linearizes perform (.start b) es ps t) :
    (es.filterMap Event.returned).Subperm (ps.map fun p => (p.thread, p.result)) := by
  classical
  rw [List.subperm_ext_iff]
  rintro ⟨i, r⟩ -
  have hresults : resultsOf i es = es.filterMap fun e =>
      e.returned.bind fun p => if p.1 = i then some p.2 else none :=
    congrArg (es.filterMap ·) (funext fun e => by cases e <;> rfl)
  rw [count_map_pairs, count_filterMap_pairs, ← hresults]
  exact (h.accounts i).prefixes.2.sublist.count_le r

/-- What only one thread does is done for that thread. -/
theorem filterMap_performedFor {γ : Type*} {i : ι} (f : Performed ι κ ρ → Option γ)
    (h : ∀ p ∈ ps, f p ≠ none → p.thread = i) :
    (performedFor i ps).filterMap f = ps.filterMap f := by
  rw [performedFor, List.filterMap_filter]
  refine List.filterMap_congr fun p hp => ?_
  by_cases hi : p.thread = i
  · simp [hi]
  · have hnone : f p = none := by
      by_contra hne
      exact hi (h p hp hne)
    simp [hi, hnone]

omit [DecidableEq ι] in
/-- A part of what happened, wherever in it. -/
theorem subperm_filterMap {γ δ : Type*} {xs ys : List γ} (h : xs.Subperm ys) (f : γ → Option δ) :
    (xs.filterMap f).Subperm (ys.filterMap f) := by
  obtain ⟨zs, hperm, hsub⟩ := h
  exact ⟨zs.filterMap f, hperm.filterMap f, hsub.filterMap f⟩

/-! ### Real time -/

/-- **Real time**: what is performed by the end of a part of a history comes first. -/
theorem Linearizes.split (h : Linearizes perform t (es ++ es') ps t'') :
    ∃ ps₁ ps₂ t', ps = ps₁ ++ ps₂ ∧ Linearizes perform t es ps₁ t' ∧
      Linearizes perform t' es' ps₂ t'' := by
  generalize hall : es ++ es' = all at h
  induction h generalizing es' with
  | refl =>
    obtain ⟨rfl, rfl⟩ := List.append_eq_nil_iff.mp hall
    exact ⟨[], [], t, rfl, .refl, .refl⟩
  | @tail es₀ ps₀ t₁ t₂ e p h₀ hstep ih =>
    rcases List.eq_nil_or_concat es' with rfl | ⟨es₁, last, rfl⟩
    · rw [List.append_nil] at hall
      subst hall
      exact ⟨_, [], t₂, by simp, h₀.tail hstep, .refl⟩
    · cases e with
      | none =>
        rw [Option.toList_none, List.append_nil] at hall
        obtain ⟨ps₁, ps₂, m, rfl, h₁, h₂⟩ := ih hall
        exact ⟨ps₁, ps₂ ++ p.toList, m, by simp, h₁, by simpa using h₂.tail hstep⟩
      | some e =>
        rw [List.concat_eq_append, ← List.append_assoc, Option.toList_some] at hall
        obtain ⟨hfront, hlast⟩ := List.append_inj' hall rfl
        obtain rfl := List.singleton_inj.mp hlast
        obtain ⟨ps₁, ps₂, m, rfl, h₁, h₂⟩ := ih hfront
        exact ⟨ps₁, ps₂ ++ p.toList, m, by simp, h₁, by simpa using h₂.tail hstep⟩

end

/-! ### Machines -/

section

open Transition

variable (step : σ → α → Option σ) (observe : σ → α → Option (Event ι κ ρ))

/-- What is seen of a run. -/
def history : σ → List α → List (Event ι κ ρ)
  | _, [] => []
  | s, a :: as => (observe s a).toList ++ (step s a).elim [] fun s' => history s' as

/-- A machine whose states, in so far as they satisfy `I`, stand for those of the object. -/
structure Implements [DecidableEq ι] (perform : β → κ → ρ → β → Prop)
    (abstraction : σ → Atomic ι β κ ρ) (I : σ → Prop) : Prop where
  keeps : Keeps step I
  simulates : ∀ s a s', I s → step s a = some s' →
    ∃ p, AtomicStep perform (abstraction s) (observe s a) p (abstraction s')

variable {step observe} [DecidableEq ι] {perform : β → κ → ρ → β → Prop}
  {abstraction : σ → Atomic ι β κ ρ} {I : σ → Prop}

/-- **The runs of a machine** that implements an object. -/
theorem Implements.linearizes (h : Implements step observe perform abstraction I) {s s' : σ}
    {as : List α} (hs : I s) (hrun : run step s as = some s') :
    ∃ ps, Linearizes perform (abstraction s) (history step observe s as) ps (abstraction s') := by
  induction as generalizing s with
  | nil =>
    obtain rfl := Option.some.inj hrun
    exact ⟨[], .refl⟩
  | cons a as ih =>
    obtain ⟨t, hstep, hrest⟩ := run_cons_eq_some.mp hrun
    obtain ⟨p, hfirst⟩ := h.simulates s a t hs hstep
    obtain ⟨ps, hps⟩ := ih (h.keeps s a t hs hstep) hrest
    refine ⟨p.toList ++ ps, ?_⟩
    rw [history, hstep]
    exact (Linearizes.refl.tail hfirst).trans hps

end

end SharedObject
