import Mathlib.Algebra.Group.Nat.Defs
import Mathlib.Data.List.AList
import Mathlib.Data.List.TakeWhile

/-!
# The parts of the C++ standard library the program uses

Strings, exceptions, dictionaries and number parsing, with the behaviour the standard documents.
A `std::string` is a list of bytes: request texts come off the wire and nothing in the program
decodes them.

## Exceptions

`Exception` has the classes that handlers of the program tell apart, with the texts they are thrown
with. What the standard leaves undefined is in it too, as a constructor that no handler catches: a
computation that gets there stops, and a theorem that promises a result cannot be met by it.

## Dictionaries

`std::unordered_map` is an association list that has each key once. `emplace` keeps an entry that is
there, and the assignment through `operator[]` replaces it. The order of the list stands for the
order of the iteration, which the standard leaves open.

## Numbers

`stoul` and `stoull` take blanks, a sign, digits and anything behind them, return the number modulo
the size of their type when it is negative, and throw for no digits and for too many.
`unsigned long` has 32 bits, as on the system that the program is built for.

## Main definitions

* `StdString`, `lit`, `toString` — strings, literals of the source, and numbers as text
* `Exception`, `UnorderedMap`
* `stoul`, `stoull`, `denoted` — number parsing
* `IsDecimal` — a text of decimal digits
-/

namespace Bootpd

/-! ### Strings -/

/-- `std::string`: a sequence of bytes. -/
abbrev StdString := List UInt8

/-- A string literal of the source. -/
def lit (s : String) : StdString := s.toList.map fun c => UInt8.ofNat c.toNat

/-- `std::to_string` of an unsigned number, also what `std::format` prints for `{}`. -/
def toString (n : ℕ) : StdString := lit (Nat.repr n)

/-- What holds of the characters of a text one by one. -/
theorem forall_mem_of_all {p : UInt8 → Prop} [DecidablePred p] {s : StdString}
    (h : (s.all fun c => p c) = true) : ∀ c ∈ s, p c :=
  fun c hc => of_decide_eq_true (List.all_eq_true.mp h c hc)

/-! ### Exceptions -/

/-- Everything the modelled code can throw. The last constructor is no exception: it marks an
access outside an array, after which the program has no behaviour, and no handler catches it. -/
inductive Exception where
  | socketTimedOut (what : StdString)
  | runtimeError (what : StdString)
  | logicError (what : StdString)
  | outOfRange (what : StdString)
  | invalidArgument (what : StdString)
  | filesystemError (what : StdString)
  | badAlloc
  | badLexicalCast (what : StdString)
  | undefinedBehaviour (what : StdString)
deriving DecidableEq, Repr

/-- A sequence that returns has returned throughout. -/
theorem bind_eq_ok {α β : Type} {x : Except Exception α} {f : α → Except Exception β} {b : β}
    (h : (x >>= f) = .ok b) : ∃ a, x = .ok a ∧ f a = .ok b := by
  cases x with
  | error e => cases h
  | ok a => exact ⟨a, rfl, h⟩

theorem map_eq_ok {α β : Type} {x : Except Exception α} {f : α → β} {b : β}
    (h : f <$> x = .ok b) : ∃ a, x = .ok a ∧ f a = b := by
  cases x with
  | error e => cases h
  | ok a => exact ⟨a, rfl, Except.ok.inj h⟩

/-! ### Dictionaries -/

/-- `std::unordered_map`. The list of entries is the order of iteration, which the standard leaves
open; two maps are the same when `lookup` is. -/
abbrev UnorderedMap (κ ν : Type) := AList fun _ : κ => ν

namespace UnorderedMap

variable {κ ν : Type} [DecidableEq κ]

/-- `emplace`: an entry that is there already stays. -/
def emplace (m : UnorderedMap κ ν) (k : κ) (v : ν) : UnorderedMap κ ν :=
  if k ∈ m then m else m.insert k v

/-- The entries in iteration order. -/
def toList (m : UnorderedMap κ ν) : List (κ × ν) := m.entries.map fun e => (e.1, e.2)

theorem lookup_emplace (m : UnorderedMap κ ν) (k k' : κ) (v : ν) :
    (m.emplace k v).lookup k' =
      if k' = k then some ((m.lookup k).getD v) else m.lookup k' := by
  rw [emplace]
  split_ifs with hmem heq heq
  · subst heq
    obtain ⟨w, hw⟩ := Option.isSome_iff_exists.mp (AList.lookup_isSome.mpr hmem)
    rw [hw, Option.getD_some]
  · rfl
  · subst heq
    rw [AList.lookup_insert, AList.lookup_eq_none.mpr hmem, Option.getD_none]
  · exact AList.lookup_insert_ne heq

/-- A name is looked up among the entries in iteration order. -/
theorem lookup_toList [BEq κ] [LawfulBEq κ] (m : UnorderedMap κ ν) (k : κ) :
    m.toList.lookup k = m.lookup k := by
  rw [toList, AList.lookup]
  induction m.entries with
  | nil => rfl
  | cons e entries ih =>
    obtain ⟨k', v⟩ := e
    by_cases hk : k = k'
    · subst hk
      simp [List.dlookup_cons_eq]
    · rw [List.map_cons, List.lookup_cons, beq_false_of_ne hk, List.dlookup_cons_ne _ _ hk]
      exact ih

theorem lookup_of_mem_toList {m : UnorderedMap κ ν} {k : κ} {v : ν} (h : (k, v) ∈ m.toList) :
    m.lookup k = some v := by
  obtain ⟨⟨k', v'⟩, hmem, heq⟩ := List.mem_map.mp h
  obtain ⟨rfl, rfl⟩ := Prod.mk.inj heq
  exact AList.mem_lookup_iff.mpr hmem

end UnorderedMap

/-! ### Numbers in texts -/

/-- `isspace` in the "C" locale. -/
def isspace (c : UInt8) : Bool := c == 32 || (9 ≤ c && c ≤ 13)

/-- The value of `c` as a digit of some base up to 36. -/
def digitValue (c : UInt8) : Option ℕ :=
  if 48 ≤ c && c ≤ 57 then some (c.toNat - 48)
  else if 97 ≤ c && c ≤ 122 then some (c.toNat - 87)
  else if 65 ≤ c && c ≤ 90 then some (c.toNat - 55)
  else none

def isDigit (base : ℕ) (c : UInt8) : Bool := (digitValue c).any (· < base)

/-- The number a string of digits denotes. -/
def denoted (base : ℕ) (digits : StdString) : ℕ :=
  digits.foldl (fun n c => base * n + (digitValue c).getD 0) 0

/-- The optional sign in front of a number: whether it is `-`, and what follows it. -/
def takeSign : StdString → Bool × StdString
  | 45 :: s => (true, s)
  | 43 :: s => (false, s)
  | s => (false, s)

/-- The `0x` that base 16 allows in front of the digits, when a digit follows it. -/
def dropBasePrefix (base : ℕ) (s : StdString) : StdString :=
  match s with
  | 48 :: x :: c :: t => if base == 16 && (x == 120 || x == 88) && isDigit base c then c :: t else s
  | _ => s

/-- `std::stoull(s, &idx, base)`: blanks, a sign, digits, then anything. A negative number is
negated in 64 bits. Returns the value and `idx`, the number of characters used. -/
def stoull (base : ℕ) (s : StdString) : Except Exception (UInt64 × ℕ) :=
  let (negative, unsigned) := takeSign (s.dropWhile isspace)
  let unsigned := dropBasePrefix base unsigned
  let digits := unsigned.takeWhile (isDigit base)
  let n := denoted base digits
  if digits.isEmpty then .error (.invalidArgument (lit "invalid stoull argument"))
  else if 2 ^ 64 ≤ n then .error (.outOfRange (lit "stoull argument out of range"))
  else .ok (if negative then -UInt64.ofNat n else UInt64.ofNat n,
    s.length - (unsigned.length - digits.length))

/-- `std::stoul(s, &idx, base)`. An `unsigned long` has 32 bits. -/
def stoul (base : ℕ) (s : StdString) : Except Exception (UInt32 × ℕ) :=
  let (negative, unsigned) := takeSign (s.dropWhile isspace)
  let unsigned := dropBasePrefix base unsigned
  let digits := unsigned.takeWhile (isDigit base)
  let n := denoted base digits
  if digits.isEmpty then .error (.invalidArgument (lit "invalid stoul argument"))
  else if 2 ^ 32 ≤ n then .error (.outOfRange (lit "stoul argument out of range"))
  else .ok (if negative then -UInt32.ofNat n else UInt32.ofNat n,
    s.length - (unsigned.length - digits.length))

example : stoull 10 (lit " -1") = .ok (18446744073709551615, 3) := by decide

/-! ### Decimal texts -/

/-- A text of decimal digits and nothing else. -/
def IsDecimal (text : StdString) : Prop := text ≠ [] ∧ ∀ c ∈ text, isDigit 10 c = true

instance (text : StdString) : Decidable (IsDecimal text) := inferInstanceAs (Decidable (_ ∧ _))

/-- The decimal digits. -/
theorem digit_bounds {c : UInt8} (h : isDigit 10 c = true) : 48 ≤ c.toNat ∧ c.toNat ≤ 57 := by
  have h48 : (48 : UInt8).toNat = 48 := rfl
  have h57 : (57 : UInt8).toNat = 57 := rfl
  have h97 : (97 : UInt8).toNat = 97 := rfl
  have h65 : (65 : UInt8).toNat = 65 := rfl
  rw [isDigit, digitValue] at h
  simp only [Bool.and_eq_true, decide_eq_true_eq, UInt8.le_iff_toNat_le] at h
  split_ifs at h with hdigit hsmall hcapital
  · omega
  · simp only [Option.any_some, decide_eq_true_eq] at h
    omega
  · simp only [Option.any_some, decide_eq_true_eq] at h
    omega
  · cases h

/-- **`stoull` reads a decimal text** as the number it denotes. -/
theorem toNat_of_stoull {text : StdString} (h : IsDecimal text) {value : UInt64} {idx : ℕ}
    (hvalue : stoull 10 text = .ok (value, idx)) : value.toNat = denoted 10 text := by
  obtain ⟨hne, hdigits⟩ := h
  obtain ⟨c, rest, rfl⟩ := List.exists_cons_of_ne_nil hne
  obtain ⟨hlow, hhigh⟩ := digit_bounds (hdigits c List.mem_cons_self)
  have hspace : isspace c = false := by
    have h32 : (32 : UInt8).toNat = 32 := rfl
    have h9 : (9 : UInt8).toNat = 9 := rfl
    have h13 : (13 : UInt8).toNat = 13 := rfl
    simp only [isspace, Bool.or_eq_false_iff, beq_eq_false_iff_ne, Bool.and_eq_false_iff,
      decide_eq_false_iff_not, UInt8.le_iff_toNat_le, ne_eq, ← UInt8.toNat_inj]
    omega
  have hsign : takeSign (c :: rest) = (false, c :: rest) := by
    rw [takeSign.eq_def]
    split
    · rename_i heq
      obtain ⟨rfl, -⟩ := List.cons.inj heq
      exact absurd hlow (by decide)
    · rename_i heq
      obtain ⟨rfl, -⟩ := List.cons.inj heq
      exact absurd hlow (by decide)
    · rfl
  have hbase : dropBasePrefix 10 (c :: rest) = c :: rest := by
    rw [dropBasePrefix.eq_def]
    split
    · exact if_neg (by simp)
    · rfl
  have htake : (c :: rest).takeWhile (isDigit 10) = c :: rest := by
    exact List.takeWhile_eq_self_iff.mpr hdigits
  rw [stoull, List.dropWhile_cons_of_neg (by simp [hspace]), hsign] at hvalue
  dsimp only at hvalue
  rw [hbase, htake] at hvalue
  rw [if_neg (by simp), if_neg Bool.false_ne_true] at hvalue
  split_ifs at hvalue with hlarge
  obtain ⟨rfl, -⟩ := Prod.mk.inj (Except.ok.inj hvalue)
  exact Nat.mod_eq_of_lt (Nat.lt_of_not_le hlarge)

/-- A decimal digit as a byte. -/
theorem digitValue_ofNat {c : Char} (h : c.isDigit = true) :
    digitValue (UInt8.ofNat c.toNat) = some (c.toNat - 48) := by
  obtain ⟨hlow, hhigh⟩ := Char.isDigit_iff_toNat.mp h
  have hzero : '0'.toNat = 48 := rfl
  have hnine : '9'.toNat = 57 := rfl
  have h48 : (48 : UInt8).toNat = 48 := rfl
  have h57 : (57 : UInt8).toNat = 57 := rfl
  have hbyte : (UInt8.ofNat c.toNat).toNat = c.toNat := Nat.mod_eq_of_lt (by omega)
  have hdigit : (48 ≤ UInt8.ofNat c.toNat && UInt8.ofNat c.toNat ≤ 57) = true := by
    simp only [Bool.and_eq_true, decide_eq_true_eq, UInt8.le_iff_toNat_le]
    omega
  rw [digitValue, if_pos hdigit, hbyte]

theorem toString_eq (n : ℕ) :
    toString n = (Nat.toDigits 10 n).map fun c => UInt8.ofNat c.toNat := by
  rw [toString, lit, Nat.toList_repr]

/-- **`std::to_string`** gives a decimal text, -/
theorem isDecimal_toString (n : ℕ) : IsDecimal (toString n) := by
  rw [toString_eq]
  refine ⟨by simp [Nat.toDigits_ne_nil], fun c hc => ?_⟩
  obtain ⟨d, hd, rfl⟩ := List.mem_map.mp hc
  have hdigit := Nat.isDigit_of_mem_toDigits (by decide) (by decide) hd
  obtain ⟨hlow, hhigh⟩ := Char.isDigit_iff_toNat.mp hdigit
  have hnine : '9'.toNat = 57 := rfl
  rw [isDigit, digitValue_ofNat hdigit, Option.any_some, decide_eq_true_eq]
  omega

/-- which denotes the number. -/
theorem denoted_toString (n : ℕ) : denoted 10 (toString n) = n := by
  have hfold : ∀ (digits : List Char) (start : ℕ), (∀ c ∈ digits, c.isDigit = true) →
      (digits.map fun c => UInt8.ofNat c.toNat).foldl
        (fun n c => 10 * n + (digitValue c).getD 0) start = Nat.ofDigitChars 10 digits start := by
    intro digits
    induction digits with
    | nil => exact fun _ _ => Nat.ofDigitChars_nil.symm
    | cons c digits ih =>
      intro start h
      rw [List.forall_mem_cons] at h
      rw [List.map_cons, List.foldl_cons, ih _ h.2, digitValue_ofNat h.1, Nat.ofDigitChars_cons]
      rfl
  rw [denoted, toString_eq, hfold _ _ fun c hc =>
    Nat.isDigit_of_mem_toDigits (by decide) (by decide) hc]
  exact Nat.ofDigitChars_ten_toDigits

end Bootpd
