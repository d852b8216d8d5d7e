import Bootpd.LexicalCast
import Mathlib.Algebra.Order.Ring.Int

/-!
# Which number a text denotes

A number is written with an optional prefix for its base, and the conversion functions allow more
in front of the digits: blanks, a sign, and in base 16 a `0x` of their own. `NumberText` is such a
text by its parts.

## A text and its number

The parts of a text can be read off it, and the text denotes one number: this is what makes it
possible to speak of the number without the function that reads it. `0B` is among the prefixes, as
`0X` and `0O` are; `lexical_cast` knows those two, and this one only with a small letter.

## Exactness

A cast is exact if it returns the number of a text that denotes one which fits, and throws for any
other text. `lexical_cast` reads the text of an unsigned type without asking for its sign, and casts
a result of 32 bits to a smaller type without asking whether it fits. `Handles` says, for a text
with its parts, when that does no harm. The port of the server goes through a cast of this kind.

## Main definitions

* `Numeral`, `NumberText` — the texts of a number, by their parts
* `IntegralType.IsExact`, `IntegralType.Handles` — exactness, and when it holds of a text
* `DenotesSome` — a text denotes a number with some property

## Main results

* `Numeral.scan_text`, `Numeral.exists_of_scan` — what the conversion functions read to the end
* `NumberText.value_eq_of_text_eq` — a text denotes one number
* `lexicalCast_exact_iff` — when the cast is exact
-/

namespace Bootpd

/-- A number in some base as the conversion functions take it, by its parts. -/
structure Numeral (base : ℕ) where
  blanks : StdString
  sign : StdString
  inner : StdString
  digits : StdString
  isspace_of_mem : ∀ c ∈ blanks, isspace c = true
  mem_signs : sign = [] ∨ sign = [43] ∨ sign = [45]
  mem_inners : inner = [] ∨ base = 16 ∧ (inner = [48, 120] ∨ inner = [48, 88])
  digits_ne_nil : digits ≠ []
  isDigit_of_mem : ∀ c ∈ digits, isDigit base c = true

namespace Numeral

variable {base : ℕ} (t : Numeral base)

def text : StdString := t.blanks ++ (t.sign ++ (t.inner ++ t.digits))

def negative : Bool := t.sign == [45]

def magnitude : ℕ := denoted base t.digits

/-- The number. -/
def value : ℤ := if t.negative then -t.magnitude else t.magnitude

/-- Nothing but digits. -/
def IsPlain : Prop := t.blanks = [] ∧ t.sign = [] ∧ t.inner = []

end Numeral

/-! ### The parts of a text -/

/-- Digits up to base 16 are numerals or letters up to `f`. -/
theorem hexDigit_bounds {base : ℕ} (hbase : base ≤ 16) {c : UInt8} (h : isDigit base c = true) :
    48 ≤ c.toNat ∧ c.toNat ≤ 57 ∨ 65 ≤ c.toNat ∧ c.toNat ≤ 70 ∨
      97 ≤ c.toNat ∧ c.toNat ≤ 102 := by
  have h48 : (48 : UInt8).toNat = 48 := rfl
  have h57 : (57 : UInt8).toNat = 57 := rfl
  have h65 : (65 : UInt8).toNat = 65 := rfl
  have h90 : (90 : UInt8).toNat = 90 := rfl
  have h97 : (97 : UInt8).toNat = 97 := rfl
  have h122 : (122 : UInt8).toNat = 122 := rfl
  rw [isDigit, digitValue] at h
  simp only [Bool.and_eq_true, decide_eq_true_eq, UInt8.le_iff_toNat_le] at h
  split_ifs at h with hdigit hsmall hcapital
  · omega
  · simp only [Option.any_some, decide_eq_true_eq] at h
    omega
  · simp only [Option.any_some, decide_eq_true_eq] at h
    omega
  · cases h

/-- A digit up to base 16 is no blank, -/
theorem isspace_of_isDigit {base : ℕ} (hbase : base ≤ 16) {c : UInt8}
    (h : isDigit base c = true) : isspace c = false := by
  have h32 : (32 : UInt8).toNat = 32 := rfl
  have h9 : (9 : UInt8).toNat = 9 := rfl
  have h13 : (13 : UInt8).toNat = 13 := rfl
  have hbounds := hexDigit_bounds hbase h
  simp only [isspace, Bool.or_eq_false_iff, beq_eq_false_iff_ne, Bool.and_eq_false_iff,
    decide_eq_false_iff_not, UInt8.le_iff_toNat_le, ne_eq, ← UInt8.toNat_inj]
  omega

/-- no sign and no letter behind the `0` of a prefix. -/
theorem ne_of_isDigit {base : ℕ} (hbase : base ≤ 16) {c : UInt8} (h : isDigit base c = true) :
    c ≠ 43 ∧ c ≠ 45 ∧ c ≠ 120 ∧ c ≠ 88 := by
  have hbounds := hexDigit_bounds hbase h
  refine ⟨?_, ?_, ?_, ?_⟩
  all_goals
    rintro rfl
    revert hbounds
    decide

theorem takeSign_of_ne {c : UInt8} (s : StdString) (hplus : c ≠ 43) (hminus : c ≠ 45) :
    takeSign (c :: s) = (false, c :: s) := by
  rw [takeSign.eq_def]
  split
  · rename_i heq
    exact absurd (List.cons.inj heq).1 hminus
  · rename_i heq
    exact absurd (List.cons.inj heq).1 hplus
  · rfl

/-- Digits are no sign and no prefix. -/
theorem dropBasePrefix_of_isDigit {base : ℕ} (hbase : base ≤ 16) {digits : StdString}
    (h : ∀ c ∈ digits, isDigit base c = true) : dropBasePrefix base digits = digits := by
  rw [dropBasePrefix.eq_def]
  split
  · rename_i x c t
    obtain ⟨-, -, hsmall, hcapital⟩ := ne_of_isDigit hbase (h x (by simp))
    exact if_neg (by simp [hsmall, hcapital])
  · rfl

/-- What `takeSign` takes. -/
theorem exists_sign (s : StdString) : ∃ sign, s = sign ++ (takeSign s).2 ∧
    (sign = [] ∨ sign = [43] ∨ sign = [45]) ∧ (takeSign s).1 = (sign == [45]) := by
  rw [takeSign.eq_def]
  split
  · exact ⟨[45], rfl, by simp, rfl⟩
  · exact ⟨[43], rfl, by simp, rfl⟩
  · exact ⟨[], rfl, by simp, rfl⟩

/-- And what `dropBasePrefix` drops. -/
theorem exists_inner (base : ℕ) (s : StdString) : ∃ inner, s = inner ++ dropBasePrefix base s ∧
    (inner = [] ∨ base = 16 ∧ (inner = [48, 120] ∨ inner = [48, 88])) := by
  rw [dropBasePrefix.eq_def]
  split
  · rename_i x c t
    split_ifs with hstart
    · simp only [Bool.and_eq_true, Bool.or_eq_true, beq_iff_eq] at hstart
      obtain ⟨⟨rfl, rfl | rfl⟩, -⟩ := hstart
      · exact ⟨[48, 120], rfl, by simp⟩
      · exact ⟨[48, 88], rfl, by simp⟩
    · exact ⟨[], rfl, by simp⟩
  · exact ⟨[], rfl, by simp⟩

namespace Numeral

variable {base : ℕ}

/-- Behind the sign there is neither a blank nor another sign. -/
theorem exists_front (hbase : base ≤ 16) (t : Numeral base) :
    ∃ c s, t.inner ++ t.digits = c :: s ∧ isspace c = false ∧ c ≠ 43 ∧ c ≠ 45 := by
  obtain ⟨d, digits, hdigits⟩ := List.exists_cons_of_ne_nil t.digits_ne_nil
  have hd : isDigit base d = true := t.isDigit_of_mem d (by simp [hdigits])
  obtain ⟨hplus, hminus, -⟩ := ne_of_isDigit hbase hd
  rcases t.mem_inners with hinner | ⟨-, hinner | hinner⟩
  · exact ⟨d, digits, by rw [hinner, hdigits]; rfl, isspace_of_isDigit hbase hd, hplus, hminus⟩
  · exact ⟨48, 120 :: t.digits, by rw [hinner]; rfl, rfl, by decide, by decide⟩
  · exact ⟨48, 88 :: t.digits, by rw [hinner]; rfl, rfl, by decide, by decide⟩

theorem dropWhile_text (hbase : base ≤ 16) (t : Numeral base) :
    t.text.dropWhile isspace = t.sign ++ (t.inner ++ t.digits) := by
  obtain ⟨c, s, hfront, hblank, -⟩ := t.exists_front hbase
  refine Scanning.dropWhile_append_of_head t.isspace_of_mem ?_
  rcases t.mem_signs with hsign | hsign | hsign
  · rw [hsign, List.nil_append, hfront]
    rintro c ⟨⟩
    exact hblank
  · rw [hsign]
    rintro c ⟨⟩
    rfl
  · rw [hsign]
    rintro c ⟨⟩
    rfl

theorem takeSign_text (hbase : base ≤ 16) (t : Numeral base) :
    takeSign (t.sign ++ (t.inner ++ t.digits)) = (t.negative, t.inner ++ t.digits) := by
  obtain ⟨c, s, hfront, -, hplus, hminus⟩ := t.exists_front hbase
  rw [negative]
  rcases t.mem_signs with hsign | hsign | hsign
  · rw [hsign, List.nil_append, hfront]
    exact takeSign_of_ne _ hplus hminus
  · rw [hsign]
    rfl
  · rw [hsign]
    rfl

/-- In base 16 there may be another `0x`, which is dropped. -/
theorem dropBasePrefix_text (hbase : base ≤ 16) (t : Numeral base) :
    dropBasePrefix base (t.inner ++ t.digits) = t.digits := by
  obtain ⟨d, digits, hdigits⟩ := List.exists_cons_of_ne_nil t.digits_ne_nil
  have hd : isDigit base d = true := t.isDigit_of_mem d (by simp [hdigits])
  rcases t.mem_inners with hinner | ⟨rfl, hinner | hinner⟩
  · rw [hinner]
    exact dropBasePrefix_of_isDigit hbase t.isDigit_of_mem
  · rw [hinner, hdigits]
    exact if_pos (by simp [hd])
  · rw [hinner, hdigits]
    exact if_pos (by simp [hd])

/-- **A numeral is read to its end**, as the number it is. -/
theorem scan_text (hbase : base ≤ 16) (t : Numeral base) :
    scan base t.text = some ⟨t.negative, t.magnitude, t.text.length⟩ := by
  have hall : t.digits.takeWhile (isDigit base) = t.digits :=
    List.takeWhile_eq_self_iff.mpr t.isDigit_of_mem
  have hne : ¬t.digits.isEmpty = true := by simp [t.digits_ne_nil]
  rw [scan, t.dropWhile_text hbase, t.takeSign_text hbase]
  dsimp only
  rw [t.dropBasePrefix_text hbase, hall, if_neg hne, Nat.sub_self, Nat.sub_zero, magnitude]

/-- **What is read to its end** is a numeral. -/
theorem exists_of_scan {s : StdString} {n : Scanned} (h : scan base s = some n)
    (hidx : n.idx = s.length) :
    ∃ t : Numeral base, t.text = s ∧ t.negative = n.negative ∧ t.magnitude = n.magnitude := by
  obtain ⟨sign, hsign, hsigns, hnegative⟩ := exists_sign (s.dropWhile isspace)
  obtain ⟨inner, hinner, hinners⟩ := exists_inner base (takeSign (s.dropWhile isspace)).2
  rw [scan] at h
  dsimp only at h
  split_ifs at h with hempty
  obtain rfl := Option.some.inj h
  generalize hrest : dropBasePrefix base (takeSign (s.dropWhile isspace)).2 = rest at *
  have hlength : rest.length ≤ s.length := by
    rw [← List.takeWhile_append_dropWhile (p := isspace) (l := s), hsign, hinner]
    simp only [List.length_append]
    omega
  have hstart := List.takeWhile_prefix (isDigit base) (l := rest)
  have hpos : 0 < (rest.takeWhile (isDigit base)).length := by
    rw [List.isEmpty_iff] at hempty
    exact List.length_pos_iff.mpr hempty
  have hall : rest.takeWhile (isDigit base) = rest := by
    refine hstart.eq_of_length_le ?_
    have hle := hstart.length_le
    dsimp only at hidx
    omega
  refine ⟨⟨s.takeWhile isspace, sign, inner, rest, fun c hc => List.mem_takeWhile_imp hc, hsigns,
    hinners, fun hnil => ?_, fun c hc => ?_⟩, ?_, hnegative.symm, ?_⟩
  · rw [hnil] at hpos
    exact absurd hpos (by simp)
  · rw [← hall] at hc
    exact List.mem_takeWhile_imp hc
  · rw [text]
    dsimp only
    rw [← hinner, ← hsign, List.takeWhile_append_dropWhile]
  · rw [magnitude]
    dsimp only
    rw [hall]

end Numeral

/-! ### Numbers with a prefix -/

/-- The prefixes and the bases they stand for. -/
def markers : List (StdString × ℕ) :=
  [([], 10), ([48, 120], 16), ([48, 88], 16), ([48, 111], 8), ([48, 79], 8), ([48, 98], 2),
    ([48, 66], 2)]

/-- **A number**: an optional prefix, and a numeral of its base. -/
structure NumberText where
  marker : StdString
  base : ℕ
  numeral : Numeral base
  mem_markers : (marker, base) ∈ markers

namespace NumberText

def text (t : NumberText) : StdString := t.marker ++ t.numeral.text

def value (t : NumberText) : ℤ := t.numeral.value

/-- `0B`, the prefix that `lexical_cast` does not know. -/
def capitalBinary : StdString := [48, 66]

theorem base_le (t : NumberText) : t.base ≤ 16 := by
  have hall : ∀ m ∈ markers, m.2 ≤ 16 := by decide
  exact hall _ t.mem_markers

theorem isDigit_of_text_eq (t : Numeral 10) {x : UInt8} {what : StdString}
    (h : t.text = 48 :: x :: what) : isDigit 10 x = true := by
  obtain ⟨blanks, sign, inner, digits, hblanks, hsigns, hinners, hne, hdigits⟩ := t
  dsimp only [Numeral.text] at h
  cases blanks with
  | cons c blanks =>
    obtain ⟨rfl, -⟩ := List.cons.inj h
    exact absurd (hblanks 48 List.mem_cons_self) (by decide)
  | nil =>
    rcases hsigns with rfl | rfl | rfl
    · rcases hinners with rfl | ⟨hbase, -⟩
      · rw [List.nil_append, List.nil_append, List.nil_append] at h
        exact hdigits x (by simp [h])
      · exact absurd hbase (by decide)
    · exact absurd (List.cons.inj h).1 (by decide)
    · exact absurd (List.cons.inj h).1 (by decide)

/-- A decimal number does not begin with a prefix. -/
theorem takeBase_numeral (t : Numeral 10) : takeBase t.text = (t.text, 10) := by
  have hsecond : ∀ x what, t.text = 48 :: x :: what → isDigit 10 x = true :=
    fun x what => isDigit_of_text_eq t
  rw [takeBase.eq_def]
  split
  · rename_i heq
    exact absurd (hsecond _ _ heq) (by decide)
  · rename_i heq
    exact absurd (hsecond _ _ heq) (by decide)
  · rename_i heq
    exact absurd (hsecond _ _ heq) (by decide)
  · rename_i heq
    exact absurd (hsecond _ _ heq) (by decide)
  · rename_i heq
    exact absurd (hsecond _ _ heq) (by decide)
  · rfl

/-- The prefix is taken for what it is, -/
theorem takeBase_text (t : NumberText) (h : t.marker ≠ capitalBinary) :
    takeBase t.text = (t.numeral.text, t.base) := by
  obtain ⟨marker, base, numeral, hmem⟩ := t
  dsimp only at h
  rw [text]
  simp only [markers, List.mem_cons, Prod.mk.injEq, List.not_mem_nil, or_false] at hmem
  rcases hmem with ⟨rfl, rfl⟩ | ⟨rfl, rfl⟩ | ⟨rfl, rfl⟩ | ⟨rfl, rfl⟩ | ⟨rfl, rfl⟩ | ⟨rfl, rfl⟩ |
    ⟨rfl, rfl⟩
  · exact takeBase_numeral numeral
  · rfl
  · rfl
  · rfl
  · rfl
  · rfl
  · exact absurd rfl h

/-- but for `0B`, of which the conversion reads the zero. -/
theorem scan_capitalBinary (rest : StdString) :
    takeBase (capitalBinary ++ rest) = (capitalBinary ++ rest, 10) ∧
      scan 10 (capitalBinary ++ rest) = some ⟨false, 0, 1⟩ := by
  have hdrop : dropBasePrefix 10 (48 :: 66 :: rest) = 48 :: 66 :: rest := by
    cases rest with
    | nil => rfl
    | cons c rest => rfl
  have hskip : (48 :: 66 :: rest).dropWhile isspace = 48 :: 66 :: rest := rfl
  have hdigits : (48 :: 66 :: rest).takeWhile (isDigit 10) = [48] := rfl
  refine ⟨rfl, ?_⟩
  show scan 10 (48 :: 66 :: rest) = _
  rw [scan, hskip, takeSign_of_ne _ (by decide) (by decide)]
  dsimp only
  rw [hdrop, hdigits]
  simp [denoted, digitValue]

/-- The prefix with all seven spellings. -/
def takeMarker : StdString → StdString × ℕ
  | 48 :: 66 :: what => (what, 2)
  | what => takeBase what

theorem takeMarker_text (t : NumberText) : takeMarker t.text = (t.numeral.text, t.base) := by
  by_cases hcapital : t.marker = capitalBinary
  · obtain ⟨marker, base, numeral, hmem⟩ := t
    dsimp only at hcapital
    subst hcapital
    have hbase : base = 2 := by
      simpa [markers, capitalBinary] using hmem
    subst hbase
    rfl
  · rw [takeMarker.eq_def, ← takeBase_text t hcapital]
    split
    · rename_i what heq
      -- a text that begins with `0B` is read no further than its zero
      obtain ⟨htake, hread⟩ := scan_capitalBinary what
      have htext := takeBase_text t hcapital
      have hscan := congrArg (Option.map Scanned.idx) (Numeral.scan_text t.base_le t.numeral)
      rw [heq] at htext
      generalize t.numeral.text = s at htext hscan
      obtain ⟨rfl, hbase⟩ := Prod.mk.inj (htake.symm.trans htext)
      rw [Option.map_some] at hscan
      dsimp only at hscan
      rw [← hbase, hread] at hscan
      simp [capitalBinary] at hscan
    · rfl

/-- **A text denotes one number.** -/
theorem value_eq_of_text_eq {t t' : NumberText} (h : t.text = t'.text) : t.value = t'.value := by
  have htake := takeMarker_text t
  rw [h, takeMarker_text t', Prod.mk.injEq] at htake
  obtain ⟨marker, base, numeral, hmem⟩ := t
  obtain ⟨marker', base', numeral', hmem'⟩ := t'
  obtain ⟨htext, rfl⟩ := htake
  dsimp only at htext
  have hscan := Numeral.scan_text (base_le ⟨marker, base', numeral, hmem⟩) numeral
  dsimp only at hscan
  rw [← htext, Numeral.scan_text (base_le ⟨marker', base', numeral', hmem'⟩) numeral'] at hscan
  simp only [Option.some.injEq, Scanned.mk.injEq] at hscan
  rw [value, value, Numeral.value, Numeral.value]
  dsimp only
  rw [hscan.1, hscan.2.1]

end NumberText

namespace IntegralType

variable {w : Width} {T : IntegralType} {text : StdString}

/-! ### What the cast returns -/

/-- A number with a prefix the cast knows: taken modulo the size of the type, unless it is too
large for the conversion function. -/
theorem lexicalCast_text (w : Width) (t : NumberText) (h : t.marker ≠ NumberText.capitalBinary) :
    (t.numeral.magnitude < 2 ^ w.conversionBits ∧
        (unsigned w).lexicalCast t.text = .ok (t.value % 2 ^ w.bits)) ∨
      (2 ^ w.conversionBits ≤ t.numeral.magnitude ∧
        ∃ e, (unsigned w).lexicalCast t.text = .error e) := by
  have htake := NumberText.takeBase_text t h
  have hconvert := converts_convert (unsigned w) (takeBase t.text).2 (takeBase t.text).1
  generalize hr : (unsigned w).convert (takeBase t.text).2 (takeBase t.text).1 = r at hconvert
  rw [htake, Numeral.scan_text t.base_le] at hconvert
  cases hconvert with
  | returns n hn =>
    rw [lexicalCast_of_convert_ok hr, htake]
    exact .inl ⟨hn, if_neg (by simp)⟩
  | tooLarge n what hn => exact .inr ⟨Nat.not_lt.mp hn, _, lexicalCast_of_convert_error hr⟩

/-- A number with the prefix it does not know. -/
theorem lexicalCast_capitalBinary (T : IntegralType) (t : NumberText)
    (h : t.marker = NumberText.capitalBinary) : ∃ e, T.lexicalCast t.text = .error e := by
  obtain ⟨htake, hscan⟩ := NumberText.scan_capitalBinary t.numeral.text
  rw [← h] at htake hscan
  rw [← NumberText.text] at htake hscan
  have hconvert := converts_convert T (takeBase t.text).2 (takeBase t.text).1
  generalize hr : T.convert (takeBase t.text).2 (takeBase t.text).1 = r at hconvert
  rw [htake, hscan] at hconvert
  cases hconvert with
  | returns n hn =>
    rw [lexicalCast_of_convert_ok hr, htake, NumberText.text, h]
    exact ⟨_, if_pos (by simp [NumberText.capitalBinary])⟩
  | tooLarge n what hn => exact ⟨_, lexicalCast_of_convert_error hr⟩

/-- What `takeBase` takes. -/
theorem exists_marker (text : StdString) : ∃ marker, text = marker ++ (takeBase text).1 ∧
    (marker, (takeBase text).2) ∈ markers ∧ marker ≠ NumberText.capitalBinary := by
  rw [takeBase.eq_def]
  split
  · exact ⟨[48, 120], rfl, by simp [markers], by decide⟩
  · exact ⟨[48, 88], rfl, by simp [markers], by decide⟩
  · exact ⟨[48, 111], rfl, by simp [markers], by decide⟩
  · exact ⟨[48, 79], rfl, by simp [markers], by decide⟩
  · exact ⟨[48, 98], rfl, by simp [markers], by decide⟩
  · exact ⟨[], rfl, by simp [markers], by decide⟩

/-- Only numbers are accepted. -/
theorem exists_numberText {v : ℤ} (h : T.lexicalCast text = .ok v) :
    ∃ t : NumberText, t.text = text ∧ t.marker ≠ NumberText.capitalBinary := by
  obtain ⟨marker, htext, hmem, hcapital⟩ := exists_marker text
  have hconvert := converts_convert T (takeBase text).2 (takeBase text).1
  generalize hr : T.convert (takeBase text).2 (takeBase text).1 = r at hconvert
  generalize hscan : scan (takeBase text).2 (takeBase text).1 = n at hconvert
  cases hconvert with
  | returns n hn =>
    rw [lexicalCast_of_convert_ok hr] at h
    split_ifs at h with hidx
    obtain ⟨t, ht, -⟩ := Numeral.exists_of_scan hscan (not_not.mp hidx)
    refine ⟨⟨marker, _, t, hmem⟩, ?_, hcapital⟩
    rw [NumberText.text, ht]
    exact htext.symm
  | noNumber what =>
    rw [lexicalCast_of_convert_error hr] at h
    cases h
  | tooLarge n what hn =>
    rw [lexicalCast_of_convert_error hr] at h
    cases h

/-! ### Exactness -/

/-- **Exactness** of the cast of a text: digits behind a prefix are returned as the number they
denote, or refused if that does not fit, and no text is returned as anything but the number it
denotes. -/
structure IsExact (w : Width) (text : StdString) : Prop where
  returns : ∀ t : NumberText, t.text = text → t.numeral.IsPlain → t.value < 2 ^ w.bits →
    (unsigned w).lexicalCast text = .ok t.value
  throws : ∀ t : NumberText, t.text = text → t.numeral.IsPlain → 2 ^ w.bits ≤ t.value →
    ∃ e, (unsigned w).lexicalCast text = .error e
  denotes : ∀ v, (unsigned w).lexicalCast text = .ok v →
    ∃ t : NumberText, t.text = text ∧ t.value = v

/-- **The numbers that are handled exactly**: those that fit, and those that are too large for the
conversion function, by their magnitude. Behind a `0B` it is the other way round: digits must not
fit. -/
def Handles (w : Width) (t : NumberText) : Prop :=
  (t.marker ≠ NumberText.capitalBinary →
    (0 ≤ t.value ∧ t.value < 2 ^ w.bits) ∨ 2 ^ w.conversionBits ≤ t.numeral.magnitude) ∧
  (t.marker = NumberText.capitalBinary → ¬(t.numeral.IsPlain ∧ t.value < 2 ^ w.bits))

theorem pow_bits_le (w : Width) : (2 : ℤ) ^ w.bits ≤ 2 ^ w.conversionBits :=
  pow_le_pow_right₀ (by decide) w.bits_le_conversionBits

/-- Digits and nothing else are their magnitude. -/
theorem value_of_isPlain {t : NumberText} (h : t.numeral.IsPlain) :
    t.value = t.numeral.magnitude := by
  have hnegative : t.numeral.negative = false := by
    rw [Numeral.negative, h.2.1]
    rfl
  rw [NumberText.value, Numeral.value, hnegative]
  rfl

/-- What is read in the range of the type is returned, and what is returned is in that range. -/
theorem handles_of_isExact {t : NumberText} (h : IsExact w t.text) : Handles w t := by
  constructor
  · intro hmarker
    rcases lexicalCast_text w t hmarker with ⟨-, hcast⟩ | ⟨hlarge, -⟩
    · obtain ⟨t', htext, hvalue⟩ := h.denotes _ hcast
      rw [NumberText.value_eq_of_text_eq htext] at hvalue
      have hpos : (0 : ℤ) < 2 ^ w.bits := pow_pos (by decide) _
      rw [hvalue]
      exact .inl ⟨Int.emod_nonneg _ hpos.ne', Int.emod_lt_of_pos _ hpos⟩
    · exact .inr hlarge
  · rintro hmarker ⟨hplain, hfits⟩
    obtain ⟨e, hcast⟩ := lexicalCast_capitalBinary (unsigned w) t hmarker
    rw [h.returns t rfl hplain hfits] at hcast
    cases hcast

theorem isExact_of_handles (h : ∀ t : NumberText, t.text = text → Handles w t) :
    IsExact w text := by
  constructor
  · rintro t rfl hplain hfits
    have hvalue := value_of_isPlain hplain
    have hmarker : t.marker ≠ NumberText.capitalBinary :=
      fun hmarker => (h t rfl).2 hmarker ⟨hplain, hfits⟩
    rcases lexicalCast_text w t hmarker with ⟨-, hcast⟩ | ⟨hlarge, -⟩
    · rw [hcast, Int.emod_eq_of_lt (by omega) hfits]
    · have hle := pow_bits_le w
      rw [hvalue] at hfits
      exact absurd (hfits.trans_le hle) (not_lt.mpr (by exact_mod_cast hlarge))
  · rintro t rfl hplain hlarge
    by_cases hmarker : t.marker = NumberText.capitalBinary
    · exact lexicalCast_capitalBinary (unsigned w) t hmarker
    · rcases lexicalCast_text w t hmarker with ⟨hsmall, -⟩ | ⟨-, hthrows⟩
      · rcases (h t rfl).1 hmarker with hfits | hlarge'
        · exact absurd hfits.2 (not_lt.mpr hlarge)
        · exact absurd hsmall (Nat.not_lt.mpr hlarge')
      · exact hthrows
  · intro v hcast
    obtain ⟨t, rfl, hmarker⟩ := exists_numberText hcast
    refine ⟨t, rfl, ?_⟩
    rcases lexicalCast_text w t hmarker with ⟨hsmall, hcast'⟩ | ⟨-, e, hthrows⟩
    · rcases (h t rfl).1 hmarker with hfits | hlarge
      · rw [Int.emod_eq_of_lt hfits.1 hfits.2, hcast] at hcast'
        exact (Except.ok.inj hcast').symm
      · exact absurd hsmall (Nat.not_lt.mpr hlarge)
    · rw [hcast] at hthrows
      cases hthrows

end IntegralType

/-! ### The configured port -/

/-- The text of `dhcp_listen_port`, or what stands in for it. -/
def portText (cfg : ConfigIni) : StdString :=
  cfg.valueOr (lit "dhcp_listen_port") [] (lit "67")

/-- The text denotes a number of which `holds` is true. -/
def DenotesSome (text : StdString) (holds : ℤ → Prop) : Prop :=
  ∃ t : NumberText, t.text = text ∧ holds t.value

/-- The port is the text cast to 16 bits. -/
theorem lexicalCast_portText {platform : Platform} {cfg : ConfigIni} {address : AddressV4}
    {clients : ClientMapType}
    (h : DhcpServerV4.initializeClients platform cfg = .ok (address, clients)) :
    (IntegralType.unsigned .w16).lexicalCast (portText cfg) = .ok address.port.toNat := by
  obtain ⟨port, hport, h⟩ := bind_eq_ok h
  obtain ⟨addr, -, h⟩ := bind_eq_ok h
  obtain ⟨table, -, h⟩ := bind_eq_ok h
  obtain ⟨rfl, -⟩ := Prod.mk.inj (Except.ok.inj h)
  rw [IntegralType.lexicalCast_unsigned (by decide), portText, hport]
  refine congrArg Except.ok ?_
  rw [UInt32.toNat_toUInt16]
  simp [IntegralType.staticCast, Width.bits, Width.size]

/-- **The port that the server listens on** is the one in the configuration if and only if that is
a port. -/
theorem port_asWritten_iff {platform : Platform} {cfg : ConfigIni} {address : AddressV4}
    {clients : ClientMapType}
    (h : DhcpServerV4.initializeClients platform cfg = .ok (address, clients)) :
    DenotesSome (portText cfg) (· = address.port.toNat) ↔
      DenotesSome (portText cfg) fun n => 0 ≤ n ∧ n < 2 ^ 16 := by
  have hcast := lexicalCast_portText h
  constructor
  · rintro ⟨t, htext, hvalue⟩
    have hlt := address.port.toNat_lt
    refine ⟨t, htext, ?_⟩
    rw [hvalue]
    omega
  · rintro ⟨t, htext, hfits⟩
    obtain ⟨t', htext', hmarker⟩ := IntegralType.exists_numberText hcast
    have hvalue := NumberText.value_eq_of_text_eq (htext'.trans htext.symm)
    refine ⟨t, htext, ?_⟩
    rw [← htext'] at hcast
    rcases IntegralType.lexicalCast_text .w16 t' hmarker with ⟨-, hread⟩ | ⟨-, e, hthrows⟩
    · have hbits : Width.bits .w16 = 16 := rfl
      rw [hcast, hvalue, hbits, Int.emod_eq_of_lt hfits.1 hfits.2] at hread
      exact (Except.ok.inj hread).symm
    · rw [hcast] at hthrows
      cases hthrows

/-- **When the cast is exact.** For every unsigned type and text: if and only if the number in the
text is one that is handled exactly. And the port that the server takes from its configuration is
the one written there if and only if that is a port. -/
theorem lexicalCast_exact_iff (w : Width) (text : StdString) (platform : Platform)
    (cfg : ConfigIni) (address : AddressV4) (clients : ClientMapType) :
    (IntegralType.IsExact w text ↔
      ∀ t : NumberText, t.text = text → IntegralType.Handles w t) ∧
    (DhcpServerV4.initializeClients platform cfg = .ok (address, clients) →
      (DenotesSome (portText cfg) (· = address.port.toNat) ↔
        DenotesSome (portText cfg) fun n => 0 ≤ n ∧ n < 2 ^ 16)) := by
  refine ⟨⟨?_, IntegralType.isExact_of_handles⟩, port_asWritten_iff⟩
  rintro hexact t rfl
  exact IntegralType.handles_of_isExact hexact

/-- Digits behind a prefix, and perhaps a sign in front of them. -/
def NumberText.ofDigits (marker : StdString) (base : ℕ) (sign digits : StdString)
    (hmarker : (marker, base) ∈ markers) (hsign : sign = [] ∨ sign = [43] ∨ sign = [45])
    (hne : digits ≠ []) (hdigits : ∀ c ∈ digits, isDigit base c = true) : NumberText :=
  ⟨marker, base, ⟨[], sign, [], digits, by simp, hsign, .inl rfl, hne, hdigits⟩, hmarker⟩

/-- A configuration with a port for the DHCP server. -/
def withListenPort : ConfigIni := ConfigIni.assign ∅ [] (lit "dhcp_listen_port") (lit "0x1A0B")

/-- The port 6667, written as a hexadecimal number. -/
theorem lexicalCast_exact_listenPort : ∃ address clients,
    DhcpServerV4.initializeClients DhcpServerV4.samplePlatform withListenPort =
      .ok (address, clients) ∧ address.port = 6667 ∧
      DenotesSome (portText withListenPort) (· = address.port.toNat) := by
  have hport : (DhcpServerV4.initializeClients DhcpServerV4.samplePlatform withListenPort).map
      (fun r => r.1.port) = .ok 6667 := by decide +kernel
  obtain ⟨⟨address, clients⟩, h, hport⟩ := map_eq_ok hport
  refine ⟨address, clients, h, hport, ((lexicalCast_exact_iff .w16 [] _ _ _ _).2 h).mpr ?_⟩
  exact ⟨.ofDigits (lit "0x") 16 [] (lit "1A0B") (by decide) (by decide) (by decide)
    (forall_mem_of_all (by decide)), by decide +kernel, by decide⟩

/-- A port beyond 65535 becomes another one, minus one the largest number, and a binary number
with a capital prefix is none. -/
theorem not_isExact_texts :
    (IntegralType.unsigned .w16).lexicalCast (lit "70000") = .ok 4464 ∧
      ¬IntegralType.IsExact .w16 (lit "70000") ∧
      (IntegralType.unsigned .w32).lexicalCast (lit "-1") = .ok 4294967295 ∧
      ¬IntegralType.IsExact .w32 (lit "-1") ∧
      (IntegralType.unsigned .w8).lexicalCast (lit "0B101") =
        .error (.badLexicalCast (lit "Invalid value: 0B101")) ∧
      ¬IntegralType.IsExact .w8 (lit "0B101") := by
  refine ⟨rfl, fun h => ?_, rfl, fun h => ?_, rfl, fun h => ?_⟩
  · let t := NumberText.ofDigits [] 10 [] (lit "70000") (by decide) (by decide) (by decide)
      (forall_mem_of_all (by decide))
    have hhandles : IntegralType.Handles .w16 t := IntegralType.handles_of_isExact h
    rcases hhandles.1 (by decide) with hfits | hlarge
    · exact absurd hfits.2 (by decide)
    · exact absurd hlarge (by decide)
  · let t := NumberText.ofDigits [] 10 [45] (lit "1") (by decide) (by decide) (by decide)
      (forall_mem_of_all (by decide))
    have hhandles : IntegralType.Handles .w32 t := IntegralType.handles_of_isExact h
    rcases hhandles.1 (by decide) with hfits | hlarge
    · exact absurd hfits.1 (by decide)
    · exact absurd hlarge (by decide)
  · let t := NumberText.ofDigits [48, 66] 2 [] (lit "101") (by decide) (by decide) (by decide)
      (forall_mem_of_all (by decide))
    have hhandles : IntegralType.Handles .w8 t := IntegralType.handles_of_isExact h
    exact hhandles.2 rfl ⟨⟨rfl, rfl, rfl⟩, by decide⟩

end Bootpd
