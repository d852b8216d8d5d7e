import Bootpd.Lib.Scanning
import Bootpd.Std

/-!
# `std::string_view` and the trimming of views in `utility_trim.hpp`

A view is the characters it shows. Looking at its ends and moving them have preconditions: an empty
view has neither a front nor a back, and no more characters can be removed than there are. Where
one does not hold the program has no behaviour.

The characters a view does not show are not part of it. Nothing in the program looks behind the end
of a view, or compares where two views begin, so nothing is lost by that; and a view whose text has
gone away does not occur, since the line is there as long as its views are.

`ltrim` and `rtrim` search for the first and the last character that is no blank. When there is none
the search fails, and what they do then is part of what is shown: the view has become empty before
its other end is looked for.

## Main definitions

* `StringView.find`, `StringView.removePrefix`, `StringView.front` and the like — with preconditions
* `StringView.trim` — as the source has it

## Main results

* `StringView.trim_eq` — trimming a view never moves its ends past each other
-/

namespace Bootpd

open Scanning (dropWhile_of_findIdx?_eq_some dropWhile_of_findIdx?_eq_none)

/-- `std::string_view`. -/
abbrev StringView := StdString

namespace StringView

/-! ### The operations -/

/-- `find(c)`, where `none` is `npos`. -/
def find (sv : StringView) (c : UInt8) : Option ℕ := sv.findIdx? (· == c)

/-- `find_first_not_of(chars)`. -/
def findFirstNotOf (sv : StringView) (chars : StdString) : Option ℕ :=
  sv.findIdx? (!chars.contains ·)

/-- `find_last_not_of(chars)`. -/
def findLastNotOf (sv : StringView) (chars : StdString) : Option ℕ :=
  (sv.reverse.findIdx? (!chars.contains ·)).map (sv.length - 1 - ·)

/-- `remove_prefix(n)`. -/
def removePrefix (sv : StringView) (n : ℕ) : Except Exception StringView :=
  if n ≤ sv.length then .ok (sv.drop n)
  else .error (.undefinedBehaviour (lit "string_view::remove_prefix"))

/-- `remove_suffix(n)`. -/
def removeSuffix (sv : StringView) (n : ℕ) : Except Exception StringView :=
  if n ≤ sv.length then .ok (sv.take (sv.length - n))
  else .error (.undefinedBehaviour (lit "string_view::remove_suffix"))

/-- `front()`. -/
def front (sv : StringView) : Except Exception UInt8 :=
  match sv.head? with
  | some c => .ok c
  | none => .error (.undefinedBehaviour (lit "string_view::front"))

/-- `back()`. -/
def back (sv : StringView) : Except Exception UInt8 :=
  match sv.getLast? with
  | some c => .ok c
  | none => .error (.undefinedBehaviour (lit "string_view::back"))

/-! ### Trimming -/

/-- `" \t\n\r\f\v"`. -/
def blanks : StdString := [32, 9, 10, 13, 12, 11]

/-- `ltrim`. -/
def ltrim (sv : StringView) : Except Exception StringView :=
  if sv.isEmpty then .ok sv
  else match findFirstNotOf sv blanks with
    | some pos => removePrefix sv pos
    | none => removePrefix sv sv.length

/-- `rtrim`. -/
def rtrim (sv : StringView) : Except Exception StringView :=
  if sv.isEmpty then .ok sv
  else match findLastNotOf sv blanks with
    | some pos => removeSuffix sv (sv.length - pos - 1)
    | none => removeSuffix sv sv.length

/-- `trim`. -/
def trim (sv : StringView) : Except Exception StringView := do
  let sv ← ltrim sv
  rtrim sv

/-! ### What they do -/

variable (sv : StringView)

/-- The characters of the source are those of `isspace`. -/
theorem contains_blanks (c : UInt8) : blanks.contains c = isspace c := by
  have h32 : (32 : UInt8).toNat = 32 := rfl
  have h9 : (9 : UInt8).toNat = 9 := rfl
  have h10 : (10 : UInt8).toNat = 10 := rfl
  have h11 : (11 : UInt8).toNat = 11 := rfl
  have h12 : (12 : UInt8).toNat = 12 := rfl
  have h13 : (13 : UInt8).toNat = 13 := rfl
  rw [Bool.eq_iff_iff]
  simp only [blanks, isspace, List.contains_cons, List.contains_nil, Bool.or_eq_true,
    Bool.and_eq_true, beq_iff_eq, decide_eq_true_eq, UInt8.le_iff_toNat_le, ← UInt8.toNat_inj,
    Bool.or_false]
  omega

theorem removePrefix_eq {n : ℕ} (h : n ≤ sv.length) : removePrefix sv n = .ok (sv.drop n) :=
  if_pos h

theorem removeSuffix_eq {n : ℕ} (h : n ≤ sv.length) :
    removeSuffix sv n = .ok (sv.take (sv.length - n)) := if_pos h

theorem findFirstNotOf_blanks : findFirstNotOf sv blanks = sv.findIdx? (!isspace ·) := by
  have hfun : (fun c => !blanks.contains c) = fun c => !isspace c := by
    funext c
    rw [contains_blanks]
  rw [findFirstNotOf, hfun]

theorem findLastNotOf_blanks :
    findLastNotOf sv blanks =
      (sv.reverse.findIdx? (!isspace ·)).map (sv.length - 1 - ·) := by
  rw [← findFirstNotOf_blanks]
  rfl

theorem ltrim_eq : ltrim sv = .ok (sv.dropWhile isspace) := by
  rw [ltrim, findFirstNotOf_blanks]
  split_ifs with hempty
  · rw [List.isEmpty_iff.mp hempty]
    rfl
  · cases hpos : sv.findIdx? (!isspace ·) with
    | none =>
      dsimp only
      rw [removePrefix_eq sv le_rfl, dropWhile_of_findIdx?_eq_none hpos, List.drop_length]
    | some pos =>
      obtain ⟨hlt, hdrop⟩ := dropWhile_of_findIdx?_eq_some hpos
      dsimp only
      rw [removePrefix_eq sv hlt.le, hdrop]

theorem rtrim_eq : rtrim sv = .ok (sv.reverse.dropWhile isspace).reverse := by
  rw [rtrim, findLastNotOf_blanks]
  split_ifs with hempty
  · rw [List.isEmpty_iff.mp hempty]
    rfl
  · cases hpos : sv.reverse.findIdx? (!isspace ·) with
    | none =>
      dsimp only [Option.map_none]
      rw [removeSuffix_eq sv le_rfl, dropWhile_of_findIdx?_eq_none hpos, Nat.sub_self,
        List.take_zero, List.reverse_nil]
    | some pos =>
      obtain ⟨hlt, hdrop⟩ := dropWhile_of_findIdx?_eq_some hpos
      rw [List.length_reverse] at hlt
      have hcount : sv.length - (sv.length - 1 - pos) - 1 = pos := by omega
      dsimp only [Option.map_some]
      rw [hcount, removeSuffix_eq sv hlt.le, hdrop, List.reverse_drop, List.length_reverse,
        List.reverse_reverse]

/-- **Trimming a view** stays inside it, and takes the blanks off its two ends. -/
theorem trim_eq : trim sv = .ok (Scanning.trim isspace sv) := by
  rw [trim, ltrim_eq]
  exact rtrim_eq _

end StringView

end Bootpd
