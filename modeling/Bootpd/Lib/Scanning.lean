import Mathlib.Data.List.Basic
import Mathlib.Data.List.TakeWhile
import Mathlib.Tactic.Common

/-!
# Scanning lists

Trimming a list at its ends, cutting it at a separator and splitting it into records with a
terminator, with the one lemma about each that says what comes out of a list put together that
way.

The lemmas go from the parts to the list: a list that is put together from a core and what is to be
trimmed around it has that core, a list with a separator is cut there if its front has none, and a
list of records with their terminators has these records. That is the direction in which a parser is
shown to be right. `Tight` says of a core that it has nothing to trim at its ends, which makes it
the one core that a list can have.

The last record may lack its terminator, and an empty list has no records.

## Main definitions

* `trim`, `Tight` — trimming, and lists that it leaves alone
* `records` — the records of a list

## Main results

* `trim_append` — what is wrapped in elements to trim is unwrapped
* `takeWhile_ne_cons`, `dropWhile_ne_cons` — cutting at the first separator
* `records_append` — the first record and the rest
-/

namespace Scanning

variable {α : Type}

/-! ### Trimming -/

/-- `l` without the elements satisfying `p` at its two ends. -/
def trim (p : α → Bool) (l : List α) : List α :=
  ((l.dropWhile p).reverse.dropWhile p).reverse

/-- Neither end satisfies `p`. -/
def Tight (p : α → Bool) (l : List α) : Prop :=
  (∀ a ∈ l.head?, p a = false) ∧ ∀ a ∈ l.getLast?, p a = false

variable {p : α → Bool} {a b l : List α}

theorem dropWhile_append_of_head (ha : ∀ c ∈ a, p c = true) (hl : ∀ c ∈ l.head?, p c = false) :
    (a ++ l).dropWhile p = l := by
  rw [List.dropWhile_append_of_pos ha]
  cases l with
  | nil => rfl
  | cons c l => rw [List.dropWhile_cons_of_neg (by simp [hl c rfl])]

/-- **Trimming** takes away what was put around. -/
theorem trim_append (ha : ∀ c ∈ a, p c = true) (hb : ∀ c ∈ b, p c = true) (hl : Tight p l) :
    trim p (a ++ (l ++ b)) = l := by
  cases l with
  | nil =>
    have hab : ∀ c ∈ a ++ b, p c = true := fun c hc => (List.mem_append.mp hc).elim (ha c) (hb c)
    have hnil : (a ++ b).dropWhile p = [] := by
      simpa using dropWhile_append_of_head (l := []) hab (by simp)
    rw [trim, List.nil_append, hnil]
    rfl
  | cons c l =>
    have hleft : (a ++ (c :: l ++ b)).dropWhile p = c :: l ++ b :=
      dropWhile_append_of_head ha hl.1
    have hright : (b.reverse ++ (c :: l).reverse).dropWhile p = (c :: l).reverse := by
      refine dropWhile_append_of_head (fun x hx => hb x (List.mem_reverse.mp hx)) ?_
      rw [List.head?_reverse]
      exact hl.2
    rw [trim, hleft, List.reverse_append, hright, List.reverse_reverse]

/-- The result of trimming, back in its place. -/
theorem exists_eq_append_trim (p : α → Bool) (l : List α) :
    ∃ a b, l = a ++ (trim p l ++ b) ∧ (∀ c ∈ a, p c = true) ∧ ∀ c ∈ b, p c = true := by
  refine ⟨l.takeWhile p, ((l.dropWhile p).reverse.takeWhile p).reverse, ?_, ?_, ?_⟩
  · rw [trim, ← List.reverse_append, List.takeWhile_append_dropWhile, List.reverse_reverse,
      List.takeWhile_append_dropWhile]
  · exact fun c hc => List.mem_takeWhile_imp hc
  · exact fun c hc => List.mem_takeWhile_imp (List.mem_reverse.mp hc)

theorem head?_dropWhile (p : α → Bool) (l : List α) :
    ∀ c ∈ (l.dropWhile p).head?, p c = false := by
  intro c hc
  simpa [Option.mem_def.mp hc] using List.head?_dropWhile_not p l

/-- Nothing is left to trim. -/
theorem tight_trim (p : α → Bool) (l : List α) : Tight p (trim p l) := by
  refine ⟨fun c hc => ?_, fun c hc => ?_⟩
  · -- the trimmed list begins as it did before its end was trimmed
    have hrest : (l.dropWhile p).reverse.dropWhile p <:+ (l.dropWhile p).reverse :=
      List.dropWhile_suffix p
    have hstart : trim p l <+: l.dropWhile p := by
      rw [trim, ← List.reverse_reverse (l.dropWhile p)]
      simpa using List.reverse_prefix.mpr hrest
    obtain ⟨t, ht⟩ := hstart
    refine head?_dropWhile p l c ?_
    rw [← ht, List.head?_append, Option.mem_def.mp hc]
    rfl
  · rw [trim, List.getLast?_reverse] at hc
    exact head?_dropWhile p _ c hc

/-- Trimming takes nothing off an end that is clean already. -/
theorem exists_eq_trim_append (h : ∀ c ∈ l.head?, p c = false) :
    ∃ b, l = trim p l ++ b ∧ ∀ c ∈ b, p c = true := by
  obtain ⟨a, b, hl, ha, hb⟩ := exists_eq_append_trim p l
  cases a with
  | nil => exact ⟨b, hl, hb⟩
  | cons c a =>
    have hc := h c (by rw [hl]; rfl)
    rw [ha c List.mem_cons_self] at hc
    cases hc

theorem exists_eq_append_trim_of_getLast (h : ∀ c ∈ l.getLast?, p c = false) :
    ∃ a, l = a ++ trim p l ∧ ∀ c ∈ a, p c = true := by
  obtain ⟨a, b, hl, ha, hb⟩ := exists_eq_append_trim p l
  rcases List.eq_nil_or_concat' b with rfl | ⟨b, c, rfl⟩
  · exact ⟨a, by rwa [List.append_nil] at hl, ha⟩
  · have hlast : l.getLast? = some c := by
      rw [hl, ← List.append_assoc, ← List.append_assoc, List.getLast?_concat]
    have hc := h c hlast
    rw [hb c (List.mem_append_right _ List.mem_cons_self)] at hc
    cases hc

theorem tight_of_append (hl : l ≠ []) {m : List α} (h : Tight p l) (hm : m ≠ [])
    (h' : Tight p m) (mid : List α) : Tight p (l ++ (mid ++ m)) := by
  obtain ⟨c, l, rfl⟩ := List.exists_cons_of_ne_nil hl
  refine ⟨h.1, fun x hx => h'.2 x ?_⟩
  have hlast : m.getLast?.isSome = true := by simp [hm]
  rwa [List.getLast?_append, List.getLast?_append, Option.or_of_isSome hlast,
    Option.or_of_isSome hlast] at hx

/-- What is trimmed on the left begins where the first element to keep is found, -/
theorem dropWhile_of_findIdx?_eq_some {i : ℕ} (h : l.findIdx? (!p ·) = some i) :
    i < l.length ∧ l.dropWhile p = l.drop i := by
  obtain ⟨hlt, hi⟩ := List.findIdx?_eq_some_iff_findIdx_eq.mp h
  exact ⟨hlt, by rw [List.dropWhile_eq_drop_findIdx_not, hi]⟩

/-- and is nothing if none is found. -/
theorem dropWhile_of_findIdx?_eq_none (h : l.findIdx? (!p ·) = none) : l.dropWhile p = [] := by
  refine List.dropWhile_eq_nil_iff.mpr ?_
  intro c hc
  simpa using List.findIdx?_eq_none_iff.mp h c hc

/-! ### Cutting at a separator -/

variable [DecidableEq α] {stop : α}

theorem ne_of_mem_of_notMem (h : stop ∉ l) : ∀ c ∈ l, (c != stop) = true := by
  intro c hc
  rw [bne_iff_ne]
  rintro rfl
  exact h hc

theorem takeWhile_ne_append (h : stop ∉ l) (m : List α) :
    (l ++ m).takeWhile (· != stop) = l ++ m.takeWhile (· != stop) :=
  List.takeWhile_append_of_pos (ne_of_mem_of_notMem h)

theorem takeWhile_ne_cons (h : stop ∉ l) (rest : List α) :
    (l ++ stop :: rest).takeWhile (· != stop) = l := by
  rw [takeWhile_ne_append h, List.takeWhile_cons_of_neg (by simp), List.append_nil]

theorem dropWhile_ne_cons (h : stop ∉ l) (rest : List α) :
    (l ++ stop :: rest).dropWhile (· != stop) = stop :: rest :=
  dropWhile_append_of_head (ne_of_mem_of_notMem h) (by simp)

/-! ### The first element of a kind -/

/-- What comes before the first element of a kind is determined by the list. -/
theorem eq_of_append_cons_eq {α : Type} {P : α → Prop} {l l' m m' : List α} {a a' : α}
    (h : l ++ a :: m = l' ++ a' :: m') (hl : ∀ c ∈ l, ¬P c) (ha : P a) (hl' : ∀ c ∈ l', ¬P c)
    (ha' : P a') : l = l' := by
  induction l generalizing l' with
  | nil =>
    cases l' with
    | nil => rfl
    | cons c l' =>
      obtain ⟨rfl, -⟩ := List.cons.inj h
      exact absurd ha (hl' a List.mem_cons_self)
  | cons c l ih =>
    cases l' with
    | nil =>
      obtain ⟨rfl, -⟩ := List.cons.inj h
      exact absurd ha' (hl c List.mem_cons_self)
    | cons c' l' =>
      obtain ⟨rfl, hrest⟩ := List.cons.inj h
      rw [List.forall_mem_cons] at hl hl'
      rw [ih hrest hl.2 hl'.2]

/-! ### Records -/

/-- The records of a list, each ended by `stop`. The last one may lack it. -/
def records (stop : α) : List α → List (List α)
  | [] => []
  | c :: l =>
    if c = stop then [] :: records stop l
    else match records stop l with
      | [] => [[c]]
      | record :: rest => (c :: record) :: rest

/-- **The first record** is what comes before the first `stop`. -/
theorem records_append (h : stop ∉ l) (rest : List α) :
    records stop (l ++ stop :: rest) = l :: records stop rest := by
  induction l with
  | nil => rw [List.nil_append, records, if_pos rfl]
  | cons c l ih =>
    rw [List.cons_append, records, if_neg fun hc => h (by simp [hc]),
      ih fun hmem => h (List.mem_cons_of_mem _ hmem)]

end Scanning
