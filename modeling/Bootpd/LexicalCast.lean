import Bootpd.DhcpConfiguration

/-!
# `lexical_cast` to the integral types, and what `config_ini` makes of it

The cast picks one of four conversion functions of the standard library by the signedness and the
size of its type, and casts what that returns. A `long` has 32 bits.

## One description of the conversion functions

`stoul`, `stoull`, `stol` and `stoll` look at the same front of a text: blanks, a sign, digits of
the base, perhaps with a `0x`. `scan` is that front, with the number and the characters that it
takes. The functions differ in the numbers that they take, and in what they make of a negative one:
`Converts` has the four as one, over the bits of the result. The cast to the type comes behind it,
and keeps the low bits.

## Exceptions

The conversion functions throw `std::invalid_argument` and `std::out_of_range`. `lexical_cast` adds
`bad_lexical_cast` for text behind the number, and that is the only exception `value_as` catches. So
a text without a number, or with one that is too large, gets through `value_as` and `value_or`,
which are there to answer with nothing or with the alternative.

## Main definitions

* `scan`, `Scanned` — what the conversion functions find
* `IntegralType`, `IntegralType.convert`, `IntegralType.lexicalCast` — the cast
* `IntegralType.valueAs`, `IntegralType.valueOr` — with the handler
* `IntegralType.FallsBack` — both return, whatever the text

## Main results

* `IntegralType.converts_convert` — the number in a text, cast, or an exception of the library
* `IntegralType.fallsBack_iff` — the texts for which `value_as` and `value_or` return
-/

namespace Bootpd

/-! ### The conversion functions -/

/-- What a conversion function finds at the front of a text: a sign, a number, and the number of
characters it used. -/
structure Scanned where
  negative : Bool
  magnitude : ℕ
  idx : ℕ
deriving DecidableEq

/-- The number. -/
def Scanned.value (n : Scanned) : ℤ := if n.negative then -n.magnitude else n.magnitude

/-- What `strtoul`, `strtol` and their wider forms look at. -/
def scan (base : ℕ) (s : StdString) : Option Scanned :=
  let (negative, unsigned) := takeSign (s.dropWhile isspace)
  let unsigned := dropBasePrefix base unsigned
  let digits := unsigned.takeWhile (isDigit base)
  if digits.isEmpty then none
  else some ⟨negative, denoted base digits, s.length - (unsigned.length - digits.length)⟩

/-- `std::stol` and `std::stoll`, named `name`, for a type of `bits` bits. -/
def stoSigned (name : String) (bits base : ℕ) (s : StdString) : Except Exception (ℤ × ℕ) :=
  match scan base s with
  | none => .error (.invalidArgument (lit "invalid " ++ lit name ++ lit " argument"))
  | some n =>
    if n.value < -2 ^ (bits - 1) ∨ 2 ^ (bits - 1) ≤ n.value then
      .error (.outOfRange (lit name ++ lit " argument out of range"))
    else .ok (n.value, n.idx)

/-- `std::stol(s, &idx, base)`. -/
def stol : ℕ → StdString → Except Exception (ℤ × ℕ) := stoSigned "stol" 32

/-- `std::stoll(s, &idx, base)`. -/
def stoll : ℕ → StdString → Except Exception (ℤ × ℕ) := stoSigned "stoll" 64

theorem stoul_eq_scan (base : ℕ) (s : StdString) :
    stoul base s = match scan base s with
      | none => .error (.invalidArgument (lit "invalid stoul argument"))
      | some n =>
        if 2 ^ 32 ≤ n.magnitude then .error (.outOfRange (lit "stoul argument out of range"))
        else .ok (if n.negative then -UInt32.ofNat n.magnitude else UInt32.ofNat n.magnitude,
          n.idx) := by
  rw [stoul, scan]
  dsimp only
  by_cases hempty : ((dropBasePrefix base (takeSign (s.dropWhile isspace)).2).takeWhile
      (isDigit base)).isEmpty = true
  · rw [if_pos hempty, if_pos hempty]
  · rw [if_neg hempty, if_neg hempty]

theorem stoull_eq_scan (base : ℕ) (s : StdString) :
    stoull base s = match scan base s with
      | none => .error (.invalidArgument (lit "invalid stoull argument"))
      | some n =>
        if 2 ^ 64 ≤ n.magnitude then .error (.outOfRange (lit "stoull argument out of range"))
        else .ok (if n.negative then -UInt64.ofNat n.magnitude else UInt64.ofNat n.magnitude,
          n.idx) := by
  rw [stoull, scan]
  dsimp only
  by_cases hempty : ((dropBasePrefix base (takeSign (s.dropWhile isspace)).2).takeWhile
      (isDigit base)).isEmpty = true
  · rw [if_pos hempty, if_pos hempty]
  · rw [if_neg hempty, if_neg hempty]

/-! ### The types -/

/-- The sizes of the integral types. -/
inductive Width where
  | w8
  | w16
  | w32
  | w64
deriving DecidableEq

namespace Width

/-- `sizeof`. -/
def size : Width → ℕ
  | w8 => 1
  | w16 => 2
  | w32 => 4
  | w64 => 8

def bits (w : Width) : ℕ := 8 * w.size

/-- The number of bits of the conversion function's result: those of `long` if they are enough. -/
def conversionBits (w : Width) : ℕ := if w.size ≤ 4 then 32 else 64

theorem bits_le_conversionBits (w : Width) : w.bits ≤ w.conversionBits := by
  cases w <;> decide

end Width

/-- The integral types. -/
inductive IntegralType where
  | bool
  | unsigned (width : Width)
  | signed (width : Width)
deriving DecidableEq

namespace IntegralType

/-- `static_cast<T>` of an integer. -/
def staticCast : IntegralType → ℤ → ℤ
  | bool, n => if n = 0 then 0 else 1
  | unsigned w, n => n % 2 ^ w.bits
  | signed w, n => n.bmod (2 ^ w.bits)

/-- The conversion function for a type, with the cast of its result. -/
def convert (T : IntegralType) (base : ℕ) (what : StdString) : Except Exception (ℤ × ℕ) :=
  match T with
  | bool => (fun r => (bool.staticCast r.1.toNat, r.2)) <$> stoul base what
  | unsigned w =>
    if w.size ≤ 4 then (fun r => ((unsigned w).staticCast r.1.toNat, r.2)) <$> stoul base what
    else (fun r => ((unsigned w).staticCast r.1.toNat, r.2)) <$> stoull base what
  | signed w =>
    if w.size ≤ 4 then (fun r => ((signed w).staticCast r.1, r.2)) <$> stol base what
    else (fun r => ((signed w).staticCast r.1, r.2)) <$> stoll base what

/-- `lexical_cast<T>`. -/
def lexicalCast (T : IntegralType) (what : StdString) : Except Exception ℤ := do
  let (what, base) := takeBase what
  let (value, offs) ← T.convert base what
  if offs ≠ what.length then
    throw (.badLexicalCast (lit "Invalid value: " ++ what))
  return value

/-- `config_ini::value_as<T>`. -/
def valueAs (T : IntegralType) (cfg : ConfigIni) (keyname sectionName : StdString) :
    Except Exception (Option ℤ) :=
  match cfg.value keyname sectionName with
  | none => .ok none
  | some text =>
    match T.lexicalCast text with
    | .ok value => .ok (some value)
    | .error (.badLexicalCast _) => .ok none
    | .error e => .error e

/-- `config_ini::value_or<T>`. -/
def valueOr (T : IntegralType) (cfg : ConfigIni) (keyname sectionName : StdString)
    (alternative : ℤ) : Except Exception ℤ :=
  (fun value => value.getD alternative) <$> T.valueAs cfg keyname sectionName

/-! ### What a conversion returns -/

/-- The numbers a conversion function takes. An unsigned one takes a negative number by its
magnitude. -/
def InRange : IntegralType → Scanned → Prop
  | bool, n => n.magnitude < 2 ^ 32
  | unsigned w, n => n.magnitude < 2 ^ w.conversionBits
  | signed w, n => -2 ^ (w.conversionBits - 1) ≤ n.value ∧ n.value < 2 ^ (w.conversionBits - 1)

/-- **What a conversion does** with the number at the front of a text: it returns what `value`
makes of a number in `range`, and throws one of two exceptions otherwise. -/
inductive Converts {α : Type} (range : Scanned → Prop) (value : Scanned → α) :
    Option Scanned → Except Exception (α × ℕ) → Prop
  | returns (n : Scanned) : range n → Converts range value (some n) (.ok (value n, n.idx))
  | noNumber (what : StdString) : Converts range value none (.error (.invalidArgument what))
  | tooLarge (n : Scanned) (what : StdString) :
    ¬range n → Converts range value (some n) (.error (.outOfRange what))

theorem Converts.map {α β : Type} {range : Scanned → Prop} {value : Scanned → α}
    {value' : Scanned → β} {n : Option Scanned} {r : Except Exception (α × ℕ)} (cast : α → β)
    (h : Converts range value n r) (hcast : ∀ n, range n → cast (value n) = value' n) :
    Converts range value' n ((fun r => (cast r.1, r.2)) <$> r) := by
  cases h with
  | returns n hn =>
    have hreturns := @Converts.returns β range value' n hn
    rwa [← hcast n hn] at hreturns
  | noNumber what => exact .noNumber what
  | tooLarge n what hn => exact .tooLarge n what hn

theorem converts_stoul (base : ℕ) (s : StdString) :
    Converts (fun n => n.magnitude < 2 ^ 32)
      (fun n => if n.negative then -UInt32.ofNat n.magnitude else UInt32.ofNat n.magnitude)
      (scan base s) (stoul base s) := by
  rw [stoul_eq_scan]
  cases scan base s with
  | none => exact .noNumber _
  | some n =>
    dsimp only
    by_cases hlarge : 2 ^ 32 ≤ n.magnitude
    · rw [if_pos hlarge]
      exact .tooLarge n _ (Nat.not_lt.mpr hlarge)
    · rw [if_neg hlarge]
      exact .returns n (Nat.lt_of_not_le hlarge)

theorem converts_stoull (base : ℕ) (s : StdString) :
    Converts (fun n => n.magnitude < 2 ^ 64)
      (fun n => if n.negative then -UInt64.ofNat n.magnitude else UInt64.ofNat n.magnitude)
      (scan base s) (stoull base s) := by
  rw [stoull_eq_scan]
  cases scan base s with
  | none => exact .noNumber _
  | some n =>
    dsimp only
    by_cases hlarge : 2 ^ 64 ≤ n.magnitude
    · rw [if_pos hlarge]
      exact .tooLarge n _ (Nat.not_lt.mpr hlarge)
    · rw [if_neg hlarge]
      exact .returns n (Nat.lt_of_not_le hlarge)

theorem converts_stoSigned (name : String) (bits base : ℕ) (s : StdString) :
    Converts (fun n => -2 ^ (bits - 1) ≤ n.value ∧ n.value < 2 ^ (bits - 1)) Scanned.value
      (scan base s) (stoSigned name bits base s) := by
  rw [stoSigned]
  cases scan base s with
  | none => exact .noNumber _
  | some n =>
    dsimp only
    split_ifs with hlarge
    · refine .tooLarge n _ fun h => ?_
      rcases hlarge with hlarge | hlarge
      · exact absurd h.1 (not_le.mpr hlarge)
      · exact absurd h.2 (not_lt.mpr hlarge)
    · rw [not_or, not_lt, not_le] at hlarge
      exact .returns n hlarge

theorem toNat_stoul_value {n : Scanned} (h : n.magnitude < 2 ^ 32) :
    ((if n.negative then -UInt32.ofNat n.magnitude else UInt32.ofNat n.magnitude).toNat : ℤ) =
      n.value % 2 ^ 32 := by
  obtain ⟨negative, magnitude, idx⟩ := n
  dsimp only at h
  have hmod : magnitude % 2 ^ 32 = magnitude := Nat.mod_eq_of_lt h
  cases negative with
  | false => simp [Scanned.value]
  | true =>
    simp only [Scanned.value, if_true, UInt32.toNat_neg, UInt32.toNat_ofNat', hmod, UInt32.size]
    omega

theorem toNat_stoull_value {n : Scanned} (h : n.magnitude < 2 ^ 64) :
    ((if n.negative then -UInt64.ofNat n.magnitude else UInt64.ofNat n.magnitude).toNat : ℤ) =
      n.value % 2 ^ 64 := by
  obtain ⟨negative, magnitude, idx⟩ := n
  dsimp only at h
  have hmod : magnitude % 2 ^ 64 = magnitude := Nat.mod_eq_of_lt h
  cases negative with
  | false => simp [Scanned.value]
  | true =>
    simp only [Scanned.value, if_true, UInt64.toNat_neg, UInt64.toNat_ofNat', hmod, UInt64.size]
    omega

/-- A cast to a smaller unsigned type forgets that the number was negative. -/
theorem staticCast_unsigned_emod {w : Width} {k : ℕ} (h : w.bits ≤ k) (v : ℤ) :
    (unsigned w).staticCast (v % 2 ^ k) = (unsigned w).staticCast v :=
  Int.emod_emod_of_dvd v (pow_dvd_pow 2 h)

theorem staticCast_bool_emod {n : Scanned} (h : n.magnitude < 2 ^ 32) :
    bool.staticCast (n.value % 2 ^ 32) = bool.staticCast n.value := by
  have hzero : n.value % 2 ^ 32 = 0 ↔ n.value = 0 := by
    rw [Scanned.value]
    split_ifs <;> omega
  simp only [staticCast, hzero]

/-- **The conversion for a type** returns the number at the front of the text as a value of the
type. -/
theorem converts_convert (T : IntegralType) (base : ℕ) (what : StdString) :
    Converts T.InRange (fun n => T.staticCast n.value) (scan base what) (T.convert base what) := by
  cases T with
  | bool =>
    refine (converts_stoul base what).map (fun v => bool.staticCast v.toNat) fun n hn => ?_
    rw [toNat_stoul_value hn, staticCast_bool_emod hn]
  | unsigned w =>
    rw [convert]
    by_cases hsize : w.size ≤ 4
    · have hbits : w.bits ≤ 32 := Nat.mul_le_mul_left 8 hsize
      have hrange : (unsigned w).InRange = fun n => n.magnitude < 2 ^ 32 := by
        funext n
        rw [InRange, Width.conversionBits, if_pos hsize]
      rw [if_pos hsize, hrange]
      refine (converts_stoul base what).map (fun v => (unsigned w).staticCast v.toNat) ?_
      intro n hn
      rw [toNat_stoul_value hn, staticCast_unsigned_emod hbits]
    · have hbits : w.bits ≤ 64 := by cases w <;> decide
      have hrange : (unsigned w).InRange = fun n => n.magnitude < 2 ^ 64 := by
        funext n
        rw [InRange, Width.conversionBits, if_neg hsize]
      rw [if_neg hsize, hrange]
      refine (converts_stoull base what).map (fun v => (unsigned w).staticCast v.toNat) ?_
      intro n hn
      rw [toNat_stoull_value hn, staticCast_unsigned_emod hbits]
  | signed w =>
    rw [convert]
    by_cases hsize : w.size ≤ 4
    · have hrange : (signed w).InRange =
          fun n => -2 ^ (32 - 1) ≤ n.value ∧ n.value < 2 ^ (32 - 1) := by
        funext n
        rw [InRange, Width.conversionBits, if_pos hsize]
      rw [if_pos hsize, hrange]
      exact (converts_stoSigned "stol" 32 base what).map (signed w).staticCast fun n hn => rfl
    · have hrange : (signed w).InRange =
          fun n => -2 ^ (64 - 1) ≤ n.value ∧ n.value < 2 ^ (64 - 1) := by
        funext n
        rw [InRange, Width.conversionBits, if_neg hsize]
      rw [if_neg hsize, hrange]
      exact (converts_stoSigned "stoll" 64 base what).map (signed w).staticCast fun n hn => rfl

/-! ### The casts of the configuration -/

/-- The casts to the unsigned types of up to 32 bits are one cast to 32 bits and another one. -/
theorem lexicalCast_unsigned {w : Width} (hsize : w.size ≤ 4) (what : StdString) :
    (unsigned w).lexicalCast what =
      (fun n => (unsigned w).staticCast n.toNat) <$> Bootpd.lexicalCast what := by
  rw [lexicalCast, Bootpd.lexicalCast]
  dsimp only
  rw [convert, if_pos hsize]
  cases stoul (takeBase what).2 (takeBase what).1 with
  | error e => rfl
  | ok r =>
    by_cases hoffs : r.2 ≠ (takeBase what).1.length
    · simp [bind, Except.bind, hoffs, throw, throwThe, MonadExceptOf.throw]
    · simp [bind, Except.bind, not_not.mp hoffs, pure, Except.pure]

theorem valueAs_uint32 (cfg : ConfigIni) (keyname sectionName : StdString) :
    (unsigned .w32).valueAs cfg keyname sectionName =
      Option.map (fun n => (n.toNat : ℤ)) <$> cfg.valueAs keyname sectionName := by
  rw [valueAs, ConfigIni.valueAs]
  cases cfg.value keyname sectionName with
  | none => rfl
  | some text =>
    have hcast : ∀ n : UInt32, (unsigned .w32).staticCast n.toNat = n.toNat := by
      intro n
      have hlt := n.toNat_lt
      simp only [staticCast, Width.bits, Width.size]
      omega
    have hfun : (fun n : UInt32 => (unsigned .w32).staticCast n.toNat) = fun n => (n.toNat : ℤ) :=
      funext hcast
    dsimp only
    rw [lexicalCast_unsigned (by decide), hfun]
    cases Bootpd.lexicalCast text with
    | ok n => rfl
    | error e => cases e <;> rfl

/-! ### Bad numbers -/

/-- Behind its prefix the text begins with a number in the range of the conversion function. -/
def HasNumber (T : IntegralType) (text : StdString) : Prop :=
  ∃ n ∈ scan (takeBase text).2 (takeBase text).1, T.InRange n

/-- **A fallback**: `value_as` returns the number if `lexical_cast` accepts the text of the key,
and nothing in every other case, and `value_or` then returns the alternative. -/
def FallsBack (T : IntegralType) (cfg : ConfigIni) (keyname sectionName : StdString) : Prop :=
  ∃ r, T.valueAs cfg keyname sectionName = .ok r ∧
    (∀ v, r = some v ↔ ∃ text ∈ cfg.value keyname sectionName, T.lexicalCast text = .ok v) ∧
    ∀ alternative, T.valueOr cfg keyname sectionName alternative = .ok (r.getD alternative)

variable {T : IntegralType} {text : StdString}

/-- What follows the conversion. -/
theorem lexicalCast_of_convert_ok {value : ℤ} {offs : ℕ}
    (h : T.convert (takeBase text).2 (takeBase text).1 = .ok (value, offs)) :
    T.lexicalCast text = if offs ≠ (takeBase text).1.length then
      .error (.badLexicalCast (lit "Invalid value: " ++ (takeBase text).1)) else .ok value := by
  rw [lexicalCast]
  dsimp only
  rw [h]
  rfl

theorem lexicalCast_of_convert_error {e : Exception}
    (h : T.convert (takeBase text).2 (takeBase text).1 = .error e) :
    T.lexicalCast text = .error e := by
  rw [lexicalCast]
  dsimp only
  rw [h]
  rfl

theorem lexicalCast_of_hasNumber (h : T.HasNumber text) :
    (∃ v, T.lexicalCast text = .ok v) ∨
      ∃ what, T.lexicalCast text = .error (.badLexicalCast what) := by
  obtain ⟨n, hn, hrange⟩ := h
  have hconvert := converts_convert T (takeBase text).2 (takeBase text).1
  rw [Option.mem_def.mp hn] at hconvert
  generalize hr : T.convert (takeBase text).2 (takeBase text).1 = r at hconvert
  cases hconvert with
  | returns n hn =>
    rw [lexicalCast_of_convert_ok hr]
    by_cases hoffs : n.idx ≠ (takeBase text).1.length
    · exact .inr ⟨_, if_pos hoffs⟩
    · exact .inl ⟨_, if_neg hoffs⟩
  | tooLarge n what hn => exact absurd hrange hn

theorem lexicalCast_of_not_hasNumber (h : ¬T.HasNumber text) :
    ∃ e, T.lexicalCast text = .error e ∧ ∀ what, e ≠ .badLexicalCast what := by
  have hconvert := converts_convert T (takeBase text).2 (takeBase text).1
  rw [HasNumber] at h
  generalize hr : T.convert (takeBase text).2 (takeBase text).1 = r at hconvert
  generalize scan (takeBase text).2 (takeBase text).1 = n at hconvert h
  cases hconvert with
  | returns n hn => exact absurd ⟨n, rfl, hn⟩ h
  | noNumber what => exact ⟨_, lexicalCast_of_convert_error hr, by simp⟩
  | tooLarge n what hn => exact ⟨_, lexicalCast_of_convert_error hr, by simp⟩

/-- **When `value_as` and `value_or` fall back.** For every type, store and key: if and only if the
key is absent, or its text begins, behind the prefix, with a number in the range of the conversion
function. Any other text is an exception nobody catches. -/
theorem fallsBack_iff (T : IntegralType) (cfg : ConfigIni) (keyname sectionName : StdString) :
    T.FallsBack cfg keyname sectionName ↔
      ∀ text ∈ cfg.value keyname sectionName, T.HasNumber text := by
  have hvalueOr : ∀ alternative, T.valueOr cfg keyname sectionName alternative =
      (fun value => value.getD alternative) <$> T.valueAs cfg keyname sectionName := by
    intro alternative
    rfl
  rw [FallsBack]
  simp only [hvalueOr]
  rw [valueAs]
  cases cfg.value keyname sectionName with
  | none => exact iff_of_true ⟨none, rfl, by simp, fun alternative => rfl⟩ (by simp)
  | some text =>
    by_cases hnumber : T.HasNumber text
    · refine iff_of_true ?_ (by simpa using hnumber)
      rcases lexicalCast_of_hasNumber hnumber with ⟨v, hcast⟩ | ⟨what, hcast⟩
      · simp only [hcast]
        exact ⟨some v, rfl, by simp [hcast], fun alternative => rfl⟩
      · simp only [hcast]
        exact ⟨none, rfl, by simp [hcast], fun alternative => rfl⟩
    · obtain ⟨e, hcast, hbad⟩ := lexicalCast_of_not_hasNumber hnumber
      refine iff_of_false ?_ (by simpa using hnumber)
      simp only [hcast]
      rintro ⟨r, hr, -⟩
      cases hr

/-- A configured time that is no number, and one that is too large. -/
def badNumbers : ConfigIni :=
  (ConfigIni.assign ∅ [] (lit "a") (lit "two days")).assign [] (lit "b") (lit "5000000000")

/-- Neither falls back. -/
theorem not_fallsBack_badNumbers :
    (unsigned .w32).valueAs badNumbers (lit "a") [] =
        .error (.invalidArgument (lit "invalid stoul argument")) ∧
      ¬(unsigned .w32).FallsBack badNumbers (lit "a") [] ∧
      (unsigned .w32).valueAs badNumbers (lit "b") [] =
        .error (.outOfRange (lit "stoul argument out of range")) ∧
      ¬(unsigned .w32).FallsBack badNumbers (lit "b") [] := by
  have ha : (unsigned .w32).valueAs badNumbers (lit "a") [] =
      .error (.invalidArgument (lit "invalid stoul argument")) := by
    rfl
  have hb : (unsigned .w32).valueAs badNumbers (lit "b") [] =
      .error (.outOfRange (lit "stoul argument out of range")) := by
    rfl
  refine ⟨ha, ?_, hb, ?_⟩
  · rintro ⟨r, hr, -⟩
    rw [ha] at hr
    cases hr
  · rintro ⟨r, hr, -⟩
    rw [hb] at hr
    cases hr

end IntegralType

end Bootpd
