import Mathlib.Data.List.Infix
import Mathlib.Data.List.TakeWhile

/-!
# Grouping a list by its keys

Some elements of a list are keys, and what stands behind a key belongs to it, up to the next key.
A loop over the list finds what belongs to a key when it carries the last key it has met; `carried`
is what such a loop still finds in the rest of the list.

`group` is stated on the list itself: for each occurrence of the key, the items right behind it, in
sequence. An occurrence with no item contributes nothing, so a key can occur and have no group.

## Main definitions

* `group` — what belongs to a key
* `carried` — what a loop still finds, if the last key it has met is known

## Main results

* `carried_key`, `carried_item` — what is left to find, element by element
* `group_ne_nil_iff` — something belongs to a key when an item stands right behind it
-/

namespace Grouping

variable {α : Type} [DecidableEq α] {isKey : α → Bool} {k last a : α} {l : List α}

/-- What stands behind the occurrences of `k`, each up to the next key. -/
def group (isKey : α → Bool) (k : α) : List α → List α
  | [] => []
  | a :: l => if a = k then l.takeWhile (!isKey ·) ++ group isKey k l else group isKey k l

/-- What belongs to `k` in `l`, when `last` is the last key in front of `l`. -/
def carried (isKey : α → Bool) (last k : α) (l : List α) : List α :=
  (if last = k then l.takeWhile (!isKey ·) else []) ++ group isKey k l

theorem carried_nil : carried isKey last k [] = [] := by simp [carried, group]

/-- From a key on it is the one that is carried. -/
theorem carried_key (ha : isKey a = true) : carried isKey last k (a :: l) =
    carried isKey a k l := by
  have hstop : (a :: l).takeWhile (!isKey ·) = [] := List.takeWhile_cons_of_neg (by simp [ha])
  rw [carried, hstop, ite_id, List.nil_append, group, carried]
  split_ifs with h
  · rfl
  · rfl

/-- An item belongs to the key that is carried. -/
theorem carried_item (hk : isKey k = true) (ha : isKey a = false) :
    carried isKey last k (a :: l) = (if last = k then [a] else []) ++ carried isKey last k l := by
  have hne : a ≠ k := by
    rintro rfl
    rw [ha] at hk
    cases hk
  have hgo : (a :: l).takeWhile (!isKey ·) = a :: l.takeWhile (!isKey ·) :=
    List.takeWhile_cons_of_pos (by simp [ha])
  rw [carried, hgo, group, if_neg hne, carried]
  split_ifs with h
  · rfl
  · rfl

/-- **Something belongs to a key** if and only if an item stands right behind an occurrence. -/
theorem group_ne_nil_iff : group isKey k l ≠ [] ↔ ∃ a, isKey a = false ∧ [k, a] <:+: l := by
  induction l with
  | nil => simp [group]
  | cons b l ih =>
    have hhead : ∀ a, [k, a] <:+: b :: l ↔ (b = k ∧ [a] <+: l) ∨ [k, a] <:+: l := fun a => by
      rw [List.infix_cons_iff, List.cons_prefix_cons, eq_comm]
    simp only [hhead, and_or_left, exists_or, ← ih]
    rw [group]
    split_ifs with hb
    · rw [← hb]
      cases l with
      | nil => simp [group]
      | cons a l =>
        by_cases ha : isKey a = false
        · simp [ha]
        · simp [ha]
    · simp [hb]

end Grouping
