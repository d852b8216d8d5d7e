import Bootpd.Lib.Acceptance
import Bootpd.Serdes

/-!
# What the byte reader accepts

The grammars of the reads of `common/serdes.hpp`: a format relates the bytes in front of the
cursor, the value that is read and the bytes that stay unread. `Accepts x R` says that the read `x`
succeeds exactly along the format `R` and throws "not enough data" on every other input.

## Composing formats

Two reads in sequence accept the composition of their formats, with the bytes in between
existentially bound; a loop accepts the closure of the format of its body. These are the rules of
`Lib.Acceptance`, with the cursor for the state. A decoder is written as reads in sequence and
loops, so its format comes out of the rules, and what is left is to see that it is the grammar one
wants.

The format of a number needs a type in which every number of its bytes is a value, as the types of
the packets are; `Onto` says so. For `bool` it does not hold.

## Main definitions

* `SerdesReader.Accepts` — a read and its format
* `Scalar.Onto` — every number of `sizeof(T)` bytes is a value

## Main results

* `SerdesReader.Accepts.bind`, `Accepts.items`, `Accepts.whileNotEmpty` — composing reads
* `SerdesReader.accepts_scalar`, `accepts_array`, `accepts_asciiz` — the reads themselves
-/

namespace Bootpd

open Imperative ByteDigits

/-! ### Integers that use all their bytes -/

namespace Scalar

variable {T : Type} [Scalar T]

/-- Every number of `sizeof(T)` bytes is a value of `T`. -/
def Onto (T : Type) [Scalar T] : Prop := ∀ n, n < 256 ^ size T → toNat (ofNat n : T) = n

theorem onto_uint8 : Onto UInt8 := fun _ h => UInt8.toNat_ofNat_of_lt' h

theorem onto_uint16 : Onto UInt16 := fun _ h => UInt16.toNat_ofNat_of_lt' h

theorem onto_uint32 : Onto UInt32 := fun _ h => UInt32.toNat_ofNat_of_lt' h

/-- Any bytes of the right number are the bytes of a value. -/
theorem encode_decode (hT : Onto T) (o : ByteOrder) {bytes : List UInt8}
    (h : bytes.length = size T) : encode o (decode o bytes : T) = bytes := by
  have hvalue : ∀ raw : List UInt8, raw.length = size T →
      toBytes (size T) (toNat (ofNat (ofBytes raw) : T)) = raw := by
    intro raw hraw
    rw [hT _ (hraw ▸ ofBytes_lt raw), ← hraw, toBytes_ofBytes]
  cases o
  · show (toBytes (size T) (toNat (ofNat (ofBytes bytes.reverse) : T))).reverse = bytes
    rw [hvalue _ (by simpa using h), List.reverse_reverse]
  · exact hvalue bytes h

end Scalar

namespace SerdesReader

variable {o : ByteOrder} {α β : Type}

/-! ### Formats -/

/-- The read `x` succeeds exactly along the format `R`: from the bytes in front of the cursor to
the value and the bytes behind. Otherwise it throws the exception for too little data. -/
def Accepts (x : Reader o α) (R : List UInt8 → α → List UInt8 → Prop) : Prop :=
  Decides x (fun s a s' => s'.data = s.data ∧ R s.curr a s'.curr) notEnoughData

variable {x : Reader o α} {R R' : List UInt8 → α → List UInt8 → Prop}
  {S : α → List UInt8 → β → List UInt8 → Prop}

/-- A read that succeeds is a derivation, and conversely. -/
theorem Accepts.ok_iff (h : Accepts x R) {d input rest : List UInt8} {a : α} :
    exec x ⟨d, input⟩ = (.ok a, ⟨d, rest⟩) ↔ R input a rest := by
  refine (Decides.ok_iff h).trans ?_
  exact and_iff_right rfl

/-- What a read returns is derived, whatever cursor it leaves. -/
theorem Accepts.derives (h : Accepts x R) {d input : List UInt8} {a : α} {s' : SerdesReader o}
    (hrun : exec x ⟨d, input⟩ = (.ok a, s')) : R input a s'.curr :=
  ((Decides.ok_iff h).mp hrun).2

/-- A read that has a derivation succeeds, and one that has none throws. -/
theorem Accepts.error (h : Accepts x R) {d input : List UInt8} (hnone : ∀ a rest, ¬R input a rest) :
    ∃ s', exec x ⟨d, input⟩ = (.error notEnoughData, s') :=
  Decides.error h fun a s' hs => hnone a s'.curr hs.2

theorem Accepts.congr (h : Accepts x R) (hR : ∀ input a rest, R input a rest ↔ R' input a rest) :
    Accepts x R' :=
  Decides.congr h fun s a s' => and_congr_right fun _ => hR s.curr a s'.curr

theorem Accepts.pure (a : α) :
    Accepts (pure a : Reader o α) fun input b rest => b = a ∧ rest = input := by
  refine (Decides.pure a).congr fun s b s' => ?_
  constructor
  · rintro ⟨rfl, rfl⟩
    exact ⟨rfl, rfl, rfl⟩
  · rintro ⟨hdata, rfl, hcurr⟩
    obtain ⟨d, c⟩ := s
    obtain ⟨d', c'⟩ := s'
    exact ⟨rfl, by rw [mk.injEq]; exact ⟨hdata, hcurr⟩⟩

/-- **Reads in sequence.** -/
theorem Accepts.bind {f : α → Reader o β} (hx : Accepts x R) (hf : ∀ a, Accepts (f a) (S a)) :
    Accepts (x >>= f) fun input b rest => ∃ a mid, R input a mid ∧ S a mid b rest := by
  refine (Decides.bind hx hf).congr fun s b s' => ?_
  constructor
  · rintro ⟨a, mid, ⟨hdata, hr⟩, hdata', hs⟩
    exact ⟨hdata'.trans hdata, a, mid.curr, hr, hs⟩
  · rintro ⟨hdata, a, mid, hr, hs⟩
    exact ⟨a, ⟨s.data, mid⟩, ⟨rfl, hr⟩, hdata, hs⟩

/-- A read followed by a computation on its value. -/
theorem Accepts.map {f : α → β} (hx : Accepts x R) :
    Accepts (x >>= fun a => Pure.pure (f a)) fun input b rest => ∃ a, R input a rest ∧ b = f a := by
  refine (hx.bind fun a => Accepts.pure (f a)).congr fun input b rest => ?_
  constructor
  · rintro ⟨a, _, hr, rfl, rfl⟩
    exact ⟨a, hr, rfl⟩
  · rintro ⟨a, hr, rfl⟩
    exact ⟨a, rest, hr, rfl, rfl⟩

/-! ### Loops -/

theorem Accepts.loop {body : β → Reader o (ForInStep β)}
    {B : β → List UInt8 → ForInStep β → List UInt8 → Prop}
    (hμ : Decreases remainingBytes body) (hbody : ∀ b, Accepts (body b) (B b)) (b : β) :
    Accepts (loop remainingBytes body b) (Loops B b) := by
  refine (Decides.loop hμ hbody b).congr fun s b' s' => ?_
  constructor
  · intro h
    induction h with
    | done h => exact ⟨h.1, Loops.done h.2⟩
    | yield h _ ih => exact ⟨ih.1.trans h.1, Loops.yield h.2 ih.2⟩
  · rintro ⟨hdata, h⟩
    obtain ⟨d, c⟩ := s
    obtain ⟨d', c'⟩ := s'
    obtain rfl : d' = d := hdata
    dsimp only at h
    induction h with
    | done h => exact Loops.done ⟨rfl, h⟩
    | yield h _ ih =>
      refine Loops.yield ?_ ih
      exact ⟨rfl, h⟩

/-- **A loop over items with a terminator** reads a list of items. -/
theorem Accepts.items {ι : Type} {body : β → Reader o (ForInStep β)}
    {ok : ι → Prop} {bits : ι → List UInt8} {f : β → ι → β}
    {stop : List UInt8 → List UInt8 → Prop} (hμ : Decreases remainingBytes body)
    (hbody : ∀ b, Accepts (body b) fun input r rest =>
      (∃ item, ok item ∧ input = bits item ++ rest ∧ r = .yield (f b item)) ∨
        stop input rest ∧ r = .done b) (b : β) :
    Accepts (Imperative.loop remainingBytes body b) fun input b' rest =>
      ∃ (items : List ι) (mid : List UInt8), (∀ item ∈ items, ok item) ∧
        input = items.flatMap bits ++ mid ∧ stop mid rest ∧ b' = items.foldl f b :=
  (Accepts.loop hμ hbody b).congr fun input b' rest =>
    loops_items_iff (fun _ _ _ _ => Iff.rfl) b b' input rest

/-- **`while (!_serdes.empty())`** over a body that reads one item: the items fill the input. -/
theorem Accepts.whileNotEmpty {ι : Type} {body : β → Reader o β} {ok : ι → Prop}
    {bits : ι → List UInt8} {f : β → ι → β} (hμ : ∀ b, Consumes 1 (body b))
    (hpos : ∀ item, bits item ≠ [])
    (hbody : ∀ b, Accepts (body b) fun input b' rest =>
      ∃ item, ok item ∧ input = bits item ++ rest ∧ b' = f b item) (b : β) :
    Accepts (SerdesReader.whileNotEmpty body b) fun input b' rest => rest = [] ∧
      ∃ items : List ι, (∀ item ∈ items, ok item) ∧ input = items.flatMap bits ∧
        b' = items.foldl f b := by
  have hpass : ∀ b, Accepts (notEmptyBody body b) fun input r rest =>
      (∃ item, ok item ∧ input = bits item ++ rest ∧ r = .yield (f b item)) ∨
        (input = [] ∧ rest = []) ∧ r = .done b := by
    intro b
    constructor
    · rintro ⟨d, input⟩ r ⟨d', rest⟩ ⟨hdata, h⟩
      obtain rfl : d' = d := hdata
      rw [exec_notEmptyBody]
      rcases h with ⟨item, hok, rfl, rfl⟩ | ⟨⟨rfl, rfl⟩, rfl⟩
      · rw [if_neg fun h => hpos item (List.append_eq_nil_iff.mp h).1,
          (hbody b).ok_iff.mpr ⟨item, hok, rfl, rfl⟩, andThen_ok]
      · exact if_pos rfl
    · rintro ⟨d, input⟩ hnone
      rw [exec_notEmptyBody]
      have hne : input ≠ [] := by
        rintro rfl
        exact hnone (.done b) ⟨d, []⟩ ⟨rfl, Or.inr ⟨⟨rfl, rfl⟩, rfl⟩⟩
      have hfails : ∃ s', exec (body b) ⟨d, input⟩ = (.error notEnoughData, s') := by
        refine (hbody b).error ?_
        rintro b' rest ⟨item, hok, hbits, rfl⟩
        exact hnone (.yield (f b item)) ⟨d, rest⟩ ⟨rfl, Or.inl ⟨item, hok, hbits, rfl⟩⟩
      obtain ⟨s', hs'⟩ := hfails
      rw [if_neg hne, hs', andThen_error]
      exact ⟨s', rfl⟩
  refine (Accepts.items (decreases_notEmptyBody hμ) hpass b).congr fun input b' rest => ?_
  constructor
  · rintro ⟨items, mid, hok, rfl, ⟨rfl, rfl⟩, rfl⟩
    exact ⟨rfl, items, hok, by rw [List.append_nil], rfl⟩
  · rintro ⟨rfl, items, hok, rfl, rfl⟩
    exact ⟨items, [], hok, by rw [List.append_nil], ⟨rfl, rfl⟩, rfl⟩

/-! ### The reads -/

/-- A scalar is read from its bytes. -/
theorem accepts_scalar {T : Type} [Scalar T] (hT : Scalar.Onto T) :
    Accepts (scalar T : Reader o T) fun input v rest => input = Scalar.encode o v ++ rest := by
  constructor
  · rintro ⟨d, input⟩ v ⟨d', rest⟩ ⟨hdata, h⟩
    obtain rfl : d' = d := hdata
    obtain rfl : input = Scalar.encode o v ++ rest := h
    exact exec_scalar_append d' rest v
  · rintro ⟨d, input⟩ hnone
    rw [exec_scalar]
    by_cases hlen : input.length < Scalar.size T
    · exact ⟨_, if_pos hlen⟩
    · have htake : (input.take (Scalar.size T)).length = Scalar.size T := by
        rw [List.length_take]
        omega
      refine absurd ⟨rfl, ?_⟩ (hnone (Scalar.decode o (input.take (Scalar.size T)))
        ⟨d, input.drop (Scalar.size T)⟩)
      show input = Scalar.encode o (Scalar.decode o _ : T) ++ _
      rw [Scalar.encode_decode hT o htake, List.take_append_drop]

theorem accepts_byte :
    Accepts (scalar UInt8 : Reader o UInt8) fun input c rest => input = c :: rest :=
  (accepts_scalar Scalar.onto_uint8).congr fun input c rest => by
    rw [Scalar.encode_uint8, List.singleton_append]

/-- A span of bytes is read from that many bytes. -/
theorem accepts_array (n : ℕ) :
    Accepts (array UInt8 n : Reader o (List.Vector UInt8 n)) fun input v rest =>
      input = v.toList ++ rest := by
  induction n with
  | zero =>
    refine (Accepts.pure List.Vector.nil).congr fun input v rest => ?_
    rw [v.eq_nil]
    exact ⟨fun h => h.2.symm, fun h => ⟨rfl, h.symm⟩⟩
  | succ n ih =>
    refine (accepts_byte.bind fun c => ih.map (f := fun w => c ::ᵥ w)).congr fun input v rest => ?_
    constructor
    · rintro ⟨c, mid, rfl, w, rfl, rfl⟩
      rfl
    · intro h
      obtain ⟨c, w, rfl⟩ := v.exists_eq_cons
      exact ⟨c, w.toList ++ rest, h, w, rfl, rfl⟩

/-- Pushing bytes one by one appends them. -/
theorem foldl_push (items s : List UInt8) : items.foldl (fun s c => s ++ [c]) s = s ++ items := by
  induction items generalizing s with
  | nil => simp
  | cons c items ih => simp [ih]

/-- **A string** is read up to the first NUL, and there must be one. -/
theorem accepts_asciiz :
    Accepts (asciiz : Reader o StdString) fun input s rest => 0 ∉ s ∧ input = s ++ 0 :: rest := by
  have hpass : ∀ s : StdString, Accepts (asciizBody s : Reader o (ForInStep StdString))
      fun input r rest => (∃ c : UInt8, c ≠ 0 ∧ input = [c] ++ rest ∧ r = .yield (s ++ [c])) ∨
        input = 0 :: rest ∧ r = .done s := by
    intro s
    have h := accepts_byte.map (o := o)
      (f := fun c => if c = 0 then ForInStep.done s else .yield (s ++ [c]))
    have hbody : asciizBody s = (do
        let c ← scalar UInt8
        return if c = 0 then .done s else .yield (s ++ [c]) : Reader o (ForInStep StdString)) := by
      rw [asciizBody]
      congr 1
      funext c
      split <;> rfl
    rw [hbody]
    refine h.congr fun input r rest => ?_
    constructor
    · rintro ⟨c, rfl, rfl⟩
      by_cases hc : c = 0
      · exact Or.inr ⟨by rw [hc], if_pos hc⟩
      · exact Or.inl ⟨c, hc, rfl, if_neg hc⟩
    · rintro (⟨c, hc, rfl, rfl⟩ | ⟨rfl, rfl⟩)
      · exact ⟨c, rfl, (if_neg hc).symm⟩
      · exact ⟨0, rfl, (if_pos rfl).symm⟩
  refine (Accepts.items decreases_asciizBody hpass []).congr fun input s rest => ?_
  constructor
  · rintro ⟨items, mid, hok, rfl, rfl, rfl⟩
    rw [foldl_push, List.nil_append, List.flatMap_singleton']
    exact ⟨fun h => hok 0 h rfl, rfl⟩
  · rintro ⟨hs, rfl⟩
    refine ⟨s, 0 :: rest, fun c hc h => hs (h ▸ hc), ?_, rfl, ?_⟩
    · rw [List.flatMap_singleton']
    · rw [foldl_push, List.nil_append]

end SerdesReader

end Bootpd
