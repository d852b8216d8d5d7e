import Bootpd.DhcpOptionsV4
import Bootpd.SerdesGrammar

/-!
# The grammar of the option area

What the decoder of `bootpd/dhcp_options_v4.hpp` accepts behind the fixed header of a packet. The
loop is a `while (true)`: it ends because every pass takes a byte, at the end marker or at the end
of the data.

## The grammar

An option area is the cookie and then items: pad bytes, and options with a code from 1 to 254, a
length and that many bytes. It ends with the end marker, behind which anything may stand. Without
the marker, or with an option that is cut off, the decoder throws. An area that is too short for a
cookie or has another one has no options, and is no error.

The table that an area stands for has under each code the bytes of its last item. Since the decoder
stores the items as they come, this is a fact about the last of several stores to one entry, and no
other.

`AfterCode` is the format of what follows a code byte, in its three cases; `accepts_readOption` is
assembled from them.

## Main definitions

* `OptionItem` — a pad byte or an option, with its bytes and what it stores
* `OptionItem.lastValue` — what some items leave under a code

## Main results

* `DhcpOptionsV4.accepts_readOption` — one pass: a pad byte, an option or the end marker
* `DhcpOptionsV4.read_empty_decides` — the option area and its grammar
-/

namespace Bootpd

open Imperative SerdesReader

/-- An element of the option area: a pad byte, or the option of an entry with its value. -/
inductive OptionItem where
  | pad
  | option (i : Fin 254) (buffer : OptionBuffer)

namespace OptionItem

/-- An element on the wire: a zero, or the code, the length and as many bytes. -/
def bits : OptionItem → List UInt8
  | pad => [0]
  | option i buffer => codeOf i :: UInt8.ofNat buffer.bytes.length :: buffer.bytes

/-- What an element says about the option of an entry. -/
def valueAt (i : Fin 254) : OptionItem → Option OptionBuffer
  | pad => none
  | option j buffer => if j = i then some buffer else none

/-- The value of the last element with the code of an entry. -/
def lastValue (items : List OptionItem) (i : Fin 254) : Option OptionBuffer :=
  (items.filterMap (valueAt i)).getLast?

/-- What the decoder does with an element. -/
def store (options : DhcpOptionsV4) : OptionItem → DhcpOptionsV4
  | pad => options
  | option i buffer => options.put i buffer

theorem values_store (options : DhcpOptionsV4) (item : OptionItem) (i : Fin 254) :
    (item.store options).values i = (item.valueAt i).or (options.values i) := by
  cases item with
  | pad => rfl
  | option j buffer =>
    by_cases h : j = i
    · subst h
      simp [store, valueAt]
    · simp [store, valueAt, h, options.values_put_of_ne (Ne.symm h)]

theorem lastValue_cons (item : OptionItem) (items : List OptionItem) (i : Fin 254) :
    lastValue (item :: items) i = (lastValue items i).or (item.valueAt i) := by
  rw [lastValue, lastValue, List.filterMap_cons]
  cases item.valueAt i with
  | none => rw [Option.or_none]
  | some buffer =>
    rw [List.getLast?_cons]
    cases (items.filterMap (valueAt i)).getLast? <;> rfl

/-- **The last element wins**, over whatever the table held. -/
theorem values_foldl_store (items : List OptionItem) (options : DhcpOptionsV4) (i : Fin 254) :
    (items.foldl store options).values i = (lastValue items i).or (options.values i) := by
  induction items generalizing options with
  | nil => rfl
  | cons item items ih => rw [List.foldl_cons, ih, values_store, lastValue_cons, Option.or_assoc]

theorem cookie_foldl_store (items : List OptionItem) (options : DhcpOptionsV4) :
    (items.foldl store options).cookie = options.cookie := by
  induction items generalizing options with
  | nil => rfl
  | cons item items ih =>
    rw [List.foldl_cons, ih]
    cases item <;> rfl

end OptionItem

namespace DhcpOptionsV4

/-! ### One pass of the loop -/

/-- The part of a pass behind the code of an option. -/
theorem accepts_readValue {code : UInt8} {i : Fin 254} (hi : slot code = .ok i)
    (options : DhcpOptionsV4) :
    Accepts (do
      let size ← scalar UInt8
      let data ← array UInt8 size.toNat
      let i ← liftExcept (slot code)
      return ForInStep.yield (options.put i ⟨data.toList, by
        rw [List.Vector.toList_length]
        exact Nat.le_of_lt_succ size.toNat_lt⟩) : Reader .network (ForInStep DhcpOptionsV4))
      fun input r rest => ∃ buffer : OptionBuffer,
        input = UInt8.ofNat buffer.bytes.length :: (buffer.bytes ++ rest) ∧
          r = .yield (options.put i buffer) := by
  rw [hi]
  refine (accepts_byte.bind fun size => (accepts_array size.toNat).map).congr
    fun input r rest => ?_
  constructor
  · rintro ⟨size, mid, rfl, data, rfl, rfl⟩
    refine ⟨⟨data.toList, ?_⟩, ?_, rfl⟩
    · rw [List.Vector.toList_length]
      exact Nat.le_of_lt_succ size.toNat_lt
    · have hsize : UInt8.ofNat data.toList.length = size := by
        rw [List.Vector.toList_length, UInt8.ofNat_toNat]
      exact congrArg (· :: _) hsize.symm
  · rintro ⟨⟨bytes, hle⟩, rfl, rfl⟩
    have hsize : (UInt8.ofNat bytes.length).toNat = bytes.length :=
      Nat.mod_eq_of_lt (Nat.lt_succ_of_le hle)
    exact ⟨_, _, rfl, ⟨bytes, hsize.symm⟩, rfl, rfl⟩

/-- What a pass makes of the bytes behind a code. -/
def AfterCode (options : DhcpOptionsV4) (code : UInt8) (input : List UInt8)
    (r : ForInStep DhcpOptionsV4) (rest : List UInt8) : Prop :=
  (code = 0x00 ∧ rest = input ∧ r = .yield options) ∨
    (code = 0xff ∧ rest = input ∧ r = .done options) ∨
      ∃ i, ∃ buffer : OptionBuffer, codeOf i = code ∧
        input = UInt8.ofNat buffer.bytes.length :: (buffer.bytes ++ rest) ∧
          r = .yield (options.put i buffer)

theorem afterCode_zero (options : DhcpOptionsV4) (input : List UInt8) (r rest) :
    AfterCode options 0x00 input r rest ↔ r = .yield options ∧ rest = input := by
  constructor
  · rintro (⟨-, hrest, hr⟩ | ⟨h, -⟩ | ⟨i, _, h, -⟩)
    · exact ⟨hr, hrest⟩
    · cases h
    · exact absurd h (hasSlot_codeOf i).1
  · rintro ⟨hr, hrest⟩
    exact Or.inl ⟨rfl, hrest, hr⟩

theorem afterCode_end (options : DhcpOptionsV4) (input : List UInt8) (r rest) :
    AfterCode options 0xff input r rest ↔ r = .done options ∧ rest = input := by
  constructor
  · rintro (⟨h, -⟩ | ⟨-, hrest, hr⟩ | ⟨i, _, h, -⟩)
    · cases h
    · exact ⟨hr, hrest⟩
    · exact absurd h (hasSlot_codeOf i).2
  · rintro ⟨hr, hrest⟩
    exact Or.inr (Or.inl ⟨rfl, hrest, hr⟩)

theorem afterCode_slot {code : UInt8} (hcode : HasSlot code) {i : Fin 254} (hi : codeOf i = code)
    (options : DhcpOptionsV4) (input : List UInt8) (r rest) :
    AfterCode options code input r rest ↔ ∃ buffer : OptionBuffer,
      input = UInt8.ofNat buffer.bytes.length :: (buffer.bytes ++ rest) ∧
        r = .yield (options.put i buffer) := by
  constructor
  · rintro (⟨h, -⟩ | ⟨h, -⟩ | ⟨j, buffer, hj, h⟩)
    · exact absurd h hcode.1
    · exact absurd h hcode.2
    · obtain rfl := codeOf_injective (hj.trans hi.symm)
      exact ⟨buffer, h⟩
  · rintro ⟨buffer, h⟩
    exact Or.inr (Or.inr ⟨i, buffer, hi, h⟩)

/-- **One pass** takes a pad byte or an option and goes round again, or takes the end marker. -/
theorem accepts_readOption (options : DhcpOptionsV4) :
    Accepts (readOption options) fun input r rest =>
      (∃ item : OptionItem, True ∧ input = item.bits ++ rest ∧ r = .yield (item.store options)) ∨
        input = 0xff :: rest ∧ r = .done options := by
  refine (accepts_byte.bind (S := AfterCode options) fun code => ?_).congr
    fun input r rest => ?_
  · by_cases hzero : code = 0
    · rw [if_pos hzero, hzero]
      exact (Accepts.pure _).congr fun input r rest => (afterCode_zero options input r rest).symm
    · by_cases hend : code = 0xff
      · rw [if_neg hzero, if_pos hend, hend]
        exact (Accepts.pure _).congr fun input r rest => (afterCode_end options input r rest).symm
      · obtain ⟨i, hi, hcode⟩ := slot_eq_ok ⟨hzero, hend⟩
        rw [if_neg hzero, if_neg hend]
        exact (accepts_readValue hi options).congr fun input r rest =>
          (afterCode_slot ⟨hzero, hend⟩ hcode options input r rest).symm
  · constructor
    · rintro ⟨code, mid, rfl, ⟨rfl, rfl, rfl⟩ | ⟨rfl, rfl, rfl⟩ | ⟨i, buffer, rfl, rfl, rfl⟩⟩
      · exact Or.inl ⟨.pad, trivial, rfl, rfl⟩
      · exact Or.inr ⟨rfl, rfl⟩
      · exact Or.inl ⟨.option i buffer, trivial, rfl, rfl⟩
    · rintro (⟨_ | ⟨i, buffer⟩, -, rfl, rfl⟩ | ⟨rfl, rfl⟩)
      · exact ⟨0, rest, rfl, Or.inl ⟨rfl, rfl, rfl⟩⟩
      · exact ⟨codeOf i, _, rfl, Or.inr (Or.inr ⟨i, buffer, rfl, rfl, rfl⟩)⟩
      · exact ⟨0xff, rest, rfl, Or.inr (Or.inl ⟨rfl, rfl, rfl⟩)⟩

/-- The loop reads elements up to the end marker. -/
theorem accepts_readItems (options : DhcpOptionsV4) :
    Accepts (loop remainingBytes readOption options) fun input options' rest =>
      ∃ items : List OptionItem, input = items.flatMap OptionItem.bits ++ 0xff :: rest ∧
        options' = items.foldl OptionItem.store options := by
  refine (Accepts.items decreases_readOption accepts_readOption options).congr
    fun input options' rest => ?_
  constructor
  · rintro ⟨items, _, -, rfl, rfl, rfl⟩
    exact ⟨items, rfl, rfl⟩
  · rintro ⟨items, rfl, rfl⟩
    exact ⟨items, _, fun _ _ => trivial, rfl, rfl, rfl⟩

/-! ### The option area -/

/-- Reading behind the magic cookie. -/
theorem exec_read_cookie (d rest : List UInt8) (options : DhcpOptionsV4) (cookie : UInt32) :
    exec (read options) ⟨d, Scalar.encode .network cookie ++ rest⟩ =
      if cookie = dhcpMagicCookie then
        exec (loop remainingBytes readOption { options with cookie }) ⟨d, rest⟩
      else (.ok { options with cookie }, ⟨d, rest⟩) := by
  have hsize : ¬(⟨d, Scalar.encode .network cookie ++ rest⟩ :
      SerdesReader .network).remainingBytes < 4 := by
    rw [remainingBytes, List.length_append, Scalar.length_encode]
    exact Nat.not_lt.mpr (Nat.le_add_right 4 _)
  rw [read, exec_bind_ok (exec_get _), if_neg hsize, exec_bind_ok (exec_scalar_append ..)]
  by_cases h : cookie = dhcpMagicCookie
  · rw [if_pos h, if_neg (not_not.mpr h)]
  · rw [if_neg h, if_pos h]
    rfl

/-- **The option area and its grammar**, read into a fresh table. Too few bytes and a foreign
cookie leave no options. Behind the cookie the loop ends from wherever it is, and it succeeds
exactly on elements, the end marker and anything: every code then has its last value, and what is
behind the end marker stays unread. Otherwise it throws. -/
theorem read_empty_decides (d input : List UInt8) :
    (input.length < 4 → exec (read empty) ⟨d, input⟩ = (.ok empty, ⟨d, input⟩)) ∧
      (4 ≤ input.length → input.take 4 ≠ Scalar.encode .network dhcpMagicCookie →
        ∃ options, exec (read empty) ⟨d, input⟩ = (.ok options, ⟨d, input.drop 4⟩) ∧
          ∀ i, options.values i = none) ∧
      (∀ options s, Halts readOption options s) ∧
      ∀ rest, input = Scalar.encode .network dhcpMagicCookie ++ rest →
        (∀ options unread, exec (read empty) ⟨d, input⟩ = (.ok options, ⟨d, unread⟩) ↔
          options.cookie = dhcpMagicCookie ∧ ∃ items : List OptionItem,
            rest = items.flatMap OptionItem.bits ++ 0xff :: unread ∧
              ∀ i, options.values i = OptionItem.lastValue items i) ∧
        ((¬∃ (items : List OptionItem) (unread : List UInt8),
            rest = items.flatMap OptionItem.bits ++ 0xff :: unread) →
          ∃ s', exec (read empty) ⟨d, input⟩ = (.error notEnoughData, s')) := by
  refine ⟨fun hlen => ?_, fun hlen hcookie => ?_,
    fun options s => Halts.of_decreases decreases_readOption options s, ?_⟩
  · rw [read, exec_bind_ok (exec_get _)]
    exact congrFun (congrArg exec (if_pos hlen)) _
  · -- any four bytes are a cookie
    have htake : (input.take 4).length = 4 := by
      rw [List.length_take]
      omega
    have hbits : Scalar.encode .network (Scalar.decode .network (input.take 4) : UInt32) =
        input.take 4 := Scalar.encode_decode Scalar.onto_uint32 .network htake
    have hread := exec_read_cookie d (input.drop 4) empty
      (Scalar.decode .network (input.take 4))
    rw [hbits, List.take_append_drop, if_neg fun h => hcookie (by rw [← hbits, h])] at hread
    exact ⟨_, hread, fun i => rfl⟩
  · rintro rest rfl
    rw [exec_read_cookie, if_pos rfl]
    refine ⟨fun options unread => (accepts_readItems _).ok_iff.trans ?_, fun hnone => ?_⟩
    · constructor
      · rintro ⟨items, hrest, rfl⟩
        refine ⟨OptionItem.cookie_foldl_store items _, items, hrest, fun i => ?_⟩
        exact (OptionItem.values_foldl_store items _ i).trans (Option.or_none ..)
      · rintro ⟨hcookie, items, hrest, hvalues⟩
        refine ⟨items, hrest, ?_⟩
        obtain ⟨cookie, values⟩ := options
        have hput := OptionItem.values_foldl_store items { empty with cookie := dhcpMagicCookie }
        have hcookie' := OptionItem.cookie_foldl_store items
          { empty with cookie := dhcpMagicCookie }
        generalize items.foldl OptionItem.store _ = table at hput hcookie'
        obtain ⟨cookie', values'⟩ := table
        rw [DhcpOptionsV4.mk.injEq]
        refine ⟨hcookie.trans hcookie'.symm, funext fun i => ?_⟩
        exact (hvalues i).trans ((hput i).trans (Option.or_none ..)).symm
    · refine (accepts_readItems _).error fun options unread h => hnone ?_
      obtain ⟨items, hrest, -⟩ := h
      exact ⟨items, unread, hrest⟩

end DhcpOptionsV4

end Bootpd
