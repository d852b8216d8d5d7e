import Bootpd.Lib.ByteDigits
import Bootpd.Lib.Imperative
import Bootpd.Std
import Mathlib.Data.Vector.Basic

/-!
# `common/serdes.hpp`: the byte reader and the byte writer

The two specialisations of `serdes` are a cursor over a fixed buffer. The reader keeps both of its
spans. The writer's buffer changes under it, so it is kept as the bytes in front of the cursor and
the bytes from the cursor on; `m_data` is the two in sequence.

The byte order is a template parameter in the source and a parameter of the cursor types here.
Every packet of the program uses `network`.

## Numbers and bytes

`Scalar` is what the codecs need of an integer type: how many bytes it has, and that its values are
the numbers of that many bytes. `encode` and `decode` are the bytes of a value in the order that is
asked for. That the source copies the bytes of the object and swaps them in place is in `ByteOrder`
and `SerdesCursor`.

## How codecs are put together

A loop of a reader uses up bytes or throws, so it ends; `Consumes` says how many a read uses at
least. `Truncates` says that a read has no exception but the reader's own. `Emits` says of a writer
which bytes it puts where there is room, and composes, so that the size of a packet and its bytes
are read off the calls.

## Main definitions

* `SerdesReader`, `SerdesWriter` — the cursors
* `SerdesReader.scalar`, `SerdesReader.array`, `SerdesReader.asciiz` and those of the writer — the
  calls
* `serializeToVector` — a buffer of the size asked for and 128 bytes more, cut to what was written

## Main results

* `Scalar.decode_encode` — the byte swap is undone by the byte swap
* `exec_scalar_append`, `exec_array_append` — reading what was written
* `Emits.bind`, `serializeToVector_eq` — what a sequence of writes puts into the vector
-/

namespace Bootpd

open Imperative ByteDigits

/-- `byte_order_type`. -/
inductive ByteOrder where
  | network
  | host
deriving DecidableEq, Repr

/-! ### Scalars -/

/-- An integer type with its `sizeof`. The laws say that it is the unsigned numbers of that many
bytes, up to renaming. -/
class Scalar (T : Type) where
  /-- `sizeof(T)`. -/
  size : ℕ
  toNat : T → ℕ
  ofNat : ℕ → T
  size_pos : 0 < size
  toNat_lt : ∀ v, toNat v < 256 ^ size
  ofNat_toNat : ∀ v, ofNat (toNat v) = v

instance : Scalar UInt8 where
  size := 1
  toNat := UInt8.toNat
  ofNat := UInt8.ofNat
  size_pos := by decide
  toNat_lt v := v.toNat_lt
  ofNat_toNat _ := UInt8.ofNat_toNat

instance : Scalar UInt16 where
  size := 2
  toNat := UInt16.toNat
  ofNat := UInt16.ofNat
  size_pos := by decide
  toNat_lt v := v.toNat_lt
  ofNat_toNat _ := UInt16.ofNat_toNat

instance : Scalar UInt32 where
  size := 4
  toNat := UInt32.toNat
  ofNat := UInt32.ofNat
  size_pos := by decide
  toNat_lt v := v.toNat_lt
  ofNat_toNat _ := UInt32.ofNat_toNat

instance : Scalar UInt64 where
  size := 8
  toNat := UInt64.toNat
  ofNat := UInt64.ofNat
  size_pos := by decide
  toNat_lt v := v.toNat_lt
  ofNat_toNat _ := UInt64.ofNat_toNat

/-! The signed types are stored in two's complement. -/

instance : Scalar Int8 where
  size := 1
  toNat v := v.toUInt8.toNat
  ofNat n := (UInt8.ofNat n).toInt8
  size_pos := by decide
  toNat_lt v := v.toUInt8.toNat_lt
  ofNat_toNat v := by rw [UInt8.ofNat_toNat, Int8.toInt8_toUInt8]

instance : Scalar Int16 where
  size := 2
  toNat v := v.toUInt16.toNat
  ofNat n := (UInt16.ofNat n).toInt16
  size_pos := by decide
  toNat_lt v := v.toUInt16.toNat_lt
  ofNat_toNat v := by rw [UInt16.ofNat_toNat, Int16.toInt16_toUInt16]

instance : Scalar Int32 where
  size := 4
  toNat v := v.toUInt32.toNat
  ofNat n := (UInt32.ofNat n).toInt32
  size_pos := by decide
  toNat_lt v := v.toUInt32.toNat_lt
  ofNat_toNat v := by rw [UInt32.ofNat_toNat, Int32.toInt32_toUInt32]

instance : Scalar Int64 where
  size := 8
  toNat v := v.toUInt64.toNat
  ofNat n := (UInt64.ofNat n).toInt64
  size_pos := by decide
  toNat_lt v := v.toUInt64.toNat_lt
  ofNat_toNat v := by rw [UInt64.ofNat_toNat, Int64.toInt64_toUInt64]

/-- An integer type of the source. -/
structure IntegerType where
  Carrier : Type
  [scalar : Scalar Carrier]

attribute [instance] IntegerType.scalar

namespace Scalar

variable {T : Type} [Scalar T]

/-- The bytes of `v` in memory: little-endian on the target, then `host_to_net_inplace`. -/
def encode (o : ByteOrder) (v : T) : List UInt8 :=
  let raw := toBytes (size T) (toNat v)
  match o with
  | .network => raw.reverse
  | .host => raw

/-- The value of some bytes: `net_to_host_inplace`, then little-endian on the target. -/
def decode (o : ByteOrder) (bytes : List UInt8) : T :=
  ofNat (ofBytes (match o with
    | .network => bytes.reverse
    | .host => bytes))

@[simp] theorem length_encode (o : ByteOrder) (v : T) : (encode o v).length = size T := by
  cases o <;> simp [encode]

/-- In network order the bytes are the big-endian ones. -/
theorem encode_network (v : T) : encode .network v = bigEndian (size T) (toNat v) :=
  reverse_toBytes _ _

@[simp] theorem decode_encode (o : ByteOrder) (v : T) : decode o (encode o v) = v := by
  have hv : ofBytes (toBytes (size T) (toNat v)) = toNat v := by
    rw [ofBytes_toBytes, Nat.mod_eq_of_lt (toNat_lt v)]
  cases o <;> simp [encode, decode, hv, ofNat_toNat]

@[simp] theorem encode_uint8 (o : ByteOrder) (v : UInt8) : encode o v = [v] := by
  have hv : toBytes (size UInt8) (toNat v) = [v] := congrArg (· :: []) UInt8.ofNat_toNat
  cases o <;> simp [encode, hv]

@[simp] theorem flatMap_encode_uint8 (o : ByteOrder) (bytes : List UInt8) :
    bytes.flatMap (encode o) = bytes := by
  have h : encode o = fun v : UInt8 => [v] := funext (encode_uint8 o)
  rw [h, List.flatMap_singleton']

end Scalar

/-! ### The reader -/

/-- `serdes<serdes_reader, o>`. -/
structure SerdesReader (o : ByteOrder) where
  /-- `m_data`, the whole buffer. -/
  data : List UInt8
  /-- `m_curr`, what is still to be read. -/
  curr : List UInt8
deriving DecidableEq, Repr

/-- A computation that reads through a `serdes<serdes_reader, o>`. -/
abbrev Reader (o : ByteOrder) := Imp (SerdesReader o) Exception

namespace SerdesReader

variable {o : ByteOrder} {T β : Type} [Scalar T]

/-- The constructors: the cursor is at the start. -/
def ofBits (bits : List UInt8) : SerdesReader o := ⟨bits, bits⟩

def remainingBytes (s : SerdesReader o) : ℕ := s.curr.length

/-- What a read past the end throws. -/
def notEnoughData : Exception := .runtimeError (lit "deserialize: not enough data")

/-- `operator()(T&)` for a trivial `T`. -/
def scalar (T : Type) [Scalar T] : Reader o T := do
  let s ← get
  if s.curr.length < Scalar.size T then
    throw notEnoughData
  set (⟨s.data, s.curr.drop (Scalar.size T)⟩ : SerdesReader o)
  return Scalar.decode o (s.curr.take (Scalar.size T))

/-- `operator()(T (&)[N])`. -/
def array (T : Type) [Scalar T] : (n : ℕ) → Reader o (List.Vector T n)
  | 0 => return List.Vector.nil
  | n + 1 => do
    let value ← scalar T
    let rest ← array T n
    return value ::ᵥ rest

/-- One pass of the loop of `asciiz`. -/
def asciizBody (value : StdString) : Reader o (ForInStep StdString) := do
  let char ← scalar UInt8
  if char = 0 then return .done value
  return .yield (value ++ [char])

/-- `operator()(std::basic_string&, serdes_asciiz_flag_t)`. -/
def asciiz : Reader o StdString := loop remainingBytes asciizBody []

/-- One pass of `while (!_serdes.empty()) body`. -/
def notEmptyBody (body : β → Reader o β) (b : β) : Reader o (ForInStep β) := do
  let s ← get
  if s.curr.isEmpty then return .done b
  return .yield (← body b)

/-- `while (!_serdes.empty()) body`. -/
def whileNotEmpty (body : β → Reader o β) : β → Reader o β :=
  loop remainingBytes (notEmptyBody body)

/-! ### What a read consumes -/

/-- A successful run of `x` uses up at least `n` bytes. -/
def Consumes {α : Type} (n : ℕ) (x : Reader o α) : Prop :=
  ∀ ⦃s a s'⦄, exec x s = (.ok a, s') → s'.remainingBytes + n ≤ s.remainingBytes

theorem Consumes.bind {α : Type} {n m : ℕ} {x : Reader o α} {f : α → Reader o β}
    (hx : Consumes n x) (hf : ∀ a, Consumes m (f a)) : Consumes (n + m) (x >>= f) := by
  intro s b s'' h
  rw [exec_bind] at h
  rcases hs : exec x s with ⟨e | a, s'⟩ <;> rw [hs] at h
  · cases h
  · have := hx hs
    have := hf a h
    omega

theorem Consumes.pure {α : Type} (a : α) : Consumes 0 (pure a : Reader o α) := by
  intro s b s' h
  obtain ⟨-, rfl⟩ := Prod.mk.inj h
  exact le_rfl

theorem exec_scalar (s : SerdesReader o) :
    exec (scalar T) s =
      if s.curr.length < Scalar.size T then (.error notEnoughData, s)
      else (.ok (Scalar.decode o (s.curr.take (Scalar.size T))),
        ⟨s.data, s.curr.drop (Scalar.size T)⟩) := by
  by_cases h : s.curr.length < Scalar.size T <;> simp [scalar, exec_bind, h]

theorem consumes_scalar : Consumes (Scalar.size T) (scalar T : Reader o T) := by
  intro s a s' h
  rw [exec_scalar] at h
  split at h
  · cases h
  · obtain ⟨-, rfl⟩ := Prod.mk.inj h
    simp only [remainingBytes, List.length_drop]
    omega

theorem Consumes.liftExcept {α : Type} (r : Except Exception α) :
    Consumes 0 (liftExcept r : Reader o α) := by
  intro s a s' h
  rw [exec_liftExcept] at h
  obtain ⟨-, rfl⟩ := Prod.mk.inj h
  exact le_rfl

theorem Consumes.mono {α : Type} {n m : ℕ} {x : Reader o α} (h : Consumes n x) (hm : m ≤ n) :
    Consumes m x := by
  intro s a s' hx
  have := h hx
  omega

theorem consumes_array (n : ℕ) : Consumes 0 (array T n : Reader o (List.Vector T n)) := by
  induction n with
  | zero => exact Consumes.pure _
  | succ n ih =>
    exact Consumes.bind (n := 0) (m := 0) (consumes_scalar.mono (Nat.zero_le _)) fun _ =>
      Consumes.bind (n := 0) (m := 0) ih fun _ => Consumes.pure _

theorem decreases_of_consumes {body : β → Reader o (ForInStep β)}
    (h : ∀ b, Consumes 1 (body b)) : Decreases remainingBytes body :=
  fun b _ _ _ hb => h b hb

theorem consumes_asciizBody (value : StdString) : Consumes 1 (asciizBody value : Reader o _) := by
  refine Consumes.bind (n := 1) (m := 0) consumes_scalar fun char => ?_
  by_cases hc : char = 0
  · simpa [hc] using Consumes.pure _
  · simpa [hc] using Consumes.pure _

theorem decreases_asciizBody : Decreases remainingBytes (asciizBody (o := o)) :=
  decreases_of_consumes consumes_asciizBody

theorem consumes_asciiz : Consumes 1 (asciiz : Reader o StdString) := by
  intro s a s' h
  -- the invariant: no pass adds bytes, and the pass that breaks has taken one
  have hloop : Triple (fun t => t.remainingBytes ≤ s.remainingBytes)
      (asciiz : Reader o StdString)
      (fun _ t => t.remainingBytes + 1 ≤ s.remainingBytes) fun _ _ => True := by
    refine Triple.loop (I := fun _ t => t.remainingBytes ≤ s.remainingBytes)
      decreases_asciizBody (fun value => ⟨fun {t r t'} ht hr => ?_, fun _ _ => trivial⟩) []
    have hc := consumes_asciizBody value hr
    cases r with
    | done _ => exact hc.trans ht
    | yield _ => exact (Nat.le_add_right _ 1).trans (hc.trans ht)
  exact hloop.ok le_rfl h

theorem exec_notEmptyBody (body : β → Reader o β) (b : β) (s : SerdesReader o) :
    exec (notEmptyBody body b) s =
      if s.curr = [] then (.ok (.done b), s)
      else andThen (exec (body b) s) fun b' s' => (.ok (.yield b'), s') := by
  by_cases hs : s.curr = [] <;> simp [notEmptyBody, exec_bind, hs]

theorem decreases_notEmptyBody {body : β → Reader o β} (hbody : ∀ b, Consumes 1 (body b)) :
    Decreases remainingBytes (notEmptyBody body) := by
  intro b s b' s' h
  rw [exec_notEmptyBody] at h
  split at h
  · cases h
  · rcases hb : exec (body b) s with ⟨e | a, t⟩ <;> rw [hb] at h <;> cases h
    exact hbody b hb

/-- **The loop of the packet readers.** -/
theorem exec_whileNotEmpty {body : β → Reader o β} (hbody : ∀ b, Consumes 1 (body b)) (b : β)
    (s : SerdesReader o) :
    exec (whileNotEmpty body b) s =
      if s.curr = [] then (.ok b, s)
      else andThen (exec (body b) s) fun b' s' => exec (whileNotEmpty body b') s' := by
  rw [whileNotEmpty, exec_loop (decreases_notEmptyBody hbody), exec_notEmptyBody]
  by_cases hs : s.curr = []
  · rw [if_pos hs, if_pos hs, andThen_ok]
  · rw [if_neg hs, if_neg hs]
    rcases exec (body b) s with ⟨e | b', s'⟩ <;> rfl

/-! ### What a read throws -/

/-- The only exception of `x` is the one for too little data. -/
def Truncates {α : Type} (x : Reader o α) : Prop :=
  Triple (fun _ => True) x (fun _ _ => True) fun e _ => e = notEnoughData

theorem Truncates.pure {α : Type} (a : α) : Truncates (pure a : Reader o α) :=
  Triple.pure a fun _ _ => trivial

theorem Truncates.bind {α : Type} {x : Reader o α} {f : α → Reader o β} (hx : Truncates x)
    (hf : ∀ a, Truncates (f a)) : Truncates (x >>= f) :=
  Triple.bind hx hf

theorem truncates_scalar : Truncates (scalar T : Reader o T) where
  ok _ _ := trivial
  error := by
    intro s e s' _ h
    rw [exec_scalar] at h
    split at h <;> cases h
    rfl

theorem truncates_asciiz : Truncates (asciiz : Reader o StdString) := by
  refine Triple.loop (I := fun _ _ => True) decreases_asciizBody (fun value => ?_) []
  refine Triple.bind (Q := fun _ _ => True) truncates_scalar fun char => ?_
  by_cases hc : char = 0
  · simpa [hc] using Triple.pure _ fun _ _ => trivial
  · simpa [hc] using Triple.pure _ fun _ _ => trivial

theorem truncates_whileNotEmpty {body : β → Reader o β} (hbody : ∀ b, Consumes 1 (body b))
    (ht : ∀ b, Truncates (body b)) (b : β) : Truncates (whileNotEmpty body b) := by
  refine Triple.loop (I := fun _ _ => True) (decreases_notEmptyBody hbody) (fun b => ?_) b
  constructor
  · intro s r s' _ _
    cases r <;> trivial
  · intro s e s' _ h
    rw [exec_notEmptyBody] at h
    split at h
    · cases h
    · rcases hb : exec (body b) s with ⟨e' | b', t⟩ <;> rw [hb] at h <;> cases h
      exact (ht b).error trivial hb

/-! ### Reading what was written -/

@[simp] theorem exec_scalar_append (d rest : List UInt8) (v : T) :
    exec (scalar T) (⟨d, Scalar.encode o v ++ rest⟩ : SerdesReader o) = (.ok v, ⟨d, rest⟩) := by
  simp [exec_scalar, List.take_left', List.drop_left']

@[simp] theorem exec_byte_cons (d rest : List UInt8) (b : UInt8) :
    exec (scalar UInt8) (⟨d, b :: rest⟩ : SerdesReader o) = (.ok b, ⟨d, rest⟩) := by
  simpa using exec_scalar_append (o := o) d rest b

theorem exec_scalar_nil (d : List UInt8) :
    exec (scalar T) (⟨d, []⟩ : SerdesReader o) = (.error notEnoughData, ⟨d, []⟩) := by
  rw [exec_scalar]
  exact if_pos Scalar.size_pos

/-- The bytes of an array: its elements' bytes in sequence. -/
def arrayBytes (o : ByteOrder) {n : ℕ} (v : List.Vector T n) : List UInt8 :=
  v.toList.flatMap (Scalar.encode o)

@[simp] theorem exec_array_append (d rest : List UInt8) {n : ℕ} (v : List.Vector T n) :
    exec (array T n) (⟨d, arrayBytes o v ++ rest⟩ : SerdesReader o) = (.ok v, ⟨d, rest⟩) := by
  induction n with
  | zero => simp [array, arrayBytes, v.eq_nil]
  | succ n ih =>
    obtain ⟨x, w, rfl⟩ := v.exists_eq_cons
    have hb : arrayBytes o (x ::ᵥ w) = Scalar.encode o x ++ arrayBytes o w := by
      simp [arrayBytes]
    rw [array, hb, List.append_assoc, exec_bind_ok (exec_scalar_append ..),
      exec_bind_ok (ih w)]
    rfl

/-- The bytes of a byte array are its elements. -/
@[simp] theorem arrayBytes_uint8 {n : ℕ} (v : List.Vector UInt8 n) :
    arrayBytes o v = v.toList := Scalar.flatMap_encode_uint8 o v.toList

end SerdesReader

/-! ### The writer -/

/-- `serdes<serdes_writer, o>`. -/
structure SerdesWriter (o : ByteOrder) where
  /-- The bytes of `m_data` in front of the cursor. -/
  written : List UInt8
  /-- `m_curr`, the bytes from the cursor to the end of the buffer. -/
  curr : List UInt8
deriving DecidableEq, Repr

/-- A computation that writes through a `serdes<serdes_writer, o>`. -/
abbrev Writer (o : ByteOrder) := Imp (SerdesWriter o) Exception

namespace SerdesWriter

variable {o : ByteOrder} {T : Type} [Scalar T]

/-- What a write past the end throws. -/
def notEnoughSpace : Exception := .runtimeError (lit "serialize: not enough space")

/-- `consumed_bytes()`: `m_data.size() - m_curr.size()`. -/
def consumedBytes (s : SerdesWriter o) : ℕ := (s.written ++ s.curr).length - s.curr.length

/-- `operator()(T const&)` for a trivial `T`. -/
def scalar (value : T) : Writer o Unit := do
  let s ← get
  if s.curr.length < Scalar.size T then
    throw notEnoughSpace
  set (⟨s.written ++ Scalar.encode o value, s.curr.drop (Scalar.size T)⟩ : SerdesWriter o)

/-- `operator()(std::span<T>)`, and every other overload that loops over scalars. -/
def span (values : List T) : Writer o Unit := values.forM scalar

/-- `operator()(std::basic_string const&, serdes_asciiz_flag_t)`. -/
def asciiz (value : StdString) : Writer o Unit := do
  value.forM scalar
  scalar (0 : UInt8)

/-- Where there is room for `bytes`, `x` puts exactly them at the cursor and succeeds. -/
def Emits (x : Writer o Unit) (bytes : List UInt8) : Prop :=
  ∀ s : SerdesWriter o, bytes.length ≤ s.curr.length →
    exec x s = (.ok (), ⟨s.written ++ bytes, s.curr.drop bytes.length⟩)

theorem Emits.pure : Emits (pure () : Writer o Unit) [] := by
  intro s _
  simp

/-- **Writes in sequence.** -/
theorem Emits.bind {x : Writer o Unit} {f : Unit → Writer o Unit} {a b : List UInt8}
    (hx : Emits x a) (hf : Emits (f ()) b) : Emits (x >>= f) (a ++ b) := by
  intro s hs
  rw [List.length_append] at hs
  rw [exec_bind_ok (hx s (by omega)), hf _ (by rw [List.length_drop]; omega)]
  simp [List.drop_drop]

theorem emits_scalar (value : T) :
    Emits (scalar value : Writer o Unit) (Scalar.encode o value) := by
  intro s hs
  rw [Scalar.length_encode] at hs
  have hn : ¬s.curr.length < Scalar.size T := by omega
  simp [scalar, exec_bind, hn]

theorem emits_forM {ι : Type} {f : ι → Writer o Unit} {b : ι → List UInt8}
    (h : ∀ i, Emits (f i) (b i)) (l : List ι) : Emits (l.forM f) (l.flatMap b) := by
  induction l with
  | nil => exact Emits.pure
  | cons i l ih => exact Emits.bind (h i) ih

theorem emits_span (values : List T) :
    Emits (span values : Writer o Unit) (values.flatMap (Scalar.encode o)) :=
  emits_forM emits_scalar values

theorem emits_bytes (bytes : List UInt8) : Emits (span bytes : Writer o Unit) bytes := by
  have h := emits_span (o := o) bytes
  rwa [Scalar.flatMap_encode_uint8] at h

theorem emits_asciiz (value : StdString) :
    Emits (asciiz value : Writer o Unit) (value ++ [0]) := by
  have h := (emits_bytes (o := o) value).bind (f := fun _ => scalar (0 : UInt8))
    (emits_scalar (0 : UInt8))
  rwa [Scalar.encode_uint8] at h

/-! ### Where there is no room -/

theorem exec_scalar (value : T) (s : SerdesWriter o) :
    exec (scalar value) s =
      if s.curr.length < Scalar.size T then (.error notEnoughSpace, s)
      else (.ok (), ⟨s.written ++ Scalar.encode o value, s.curr.drop (Scalar.size T)⟩) := by
  by_cases h : s.curr.length < Scalar.size T <;> simp [scalar, exec_bind, h]

/-- **Too little room for a text**: what fits is written, and then the writer throws. -/
theorem exec_bytes_of_lt (bytes : List UInt8) (s : SerdesWriter o)
    (h : s.curr.length < bytes.length) :
    exec (span bytes) s =
      (.error notEnoughSpace, ⟨s.written ++ bytes.take s.curr.length, []⟩) := by
  induction bytes generalizing s with
  | nil => cases h
  | cons byte bytes ih =>
    have hspan : exec (span (byte :: bytes)) s =
        exec (scalar byte >>= fun _ => span bytes) s := rfl
    obtain ⟨written, _ | ⟨old, curr⟩⟩ := s
    · have hbyte : exec (scalar byte : Writer o Unit) ⟨written, []⟩ =
          (.error notEnoughSpace, ⟨written, []⟩) := by
        simp [exec_scalar, Scalar.size]
      rw [hspan, exec_bind_error hbyte]
      simp
    · have hbyte : exec (scalar byte : Writer o Unit) ⟨written, old :: curr⟩ =
          (.ok (), ⟨written ++ [byte], curr⟩) := by
        simp [exec_scalar, Scalar.size]
      rw [hspan, exec_bind_ok hbyte, ih _ (Nat.lt_of_succ_lt_succ h)]
      simp

/-- `x` stays inside its buffer: it only moves the cursor. -/
def InBuffer {α : Type} (x : Writer o α) : Prop :=
  ∀ s, (exec x s).2.written.length + (exec x s).2.curr.length =
    s.written.length + s.curr.length

theorem InBuffer.bind {α β : Type} {x : Writer o α} {f : α → Writer o β} (hx : InBuffer x)
    (hf : ∀ a, InBuffer (f a)) : InBuffer (x >>= f) := by
  intro s
  rw [exec_bind]
  have hs := hx s
  rcases hrun : exec x s with ⟨e | a, s'⟩ <;> rw [hrun] at hs
  · exact hs
  · exact (hf a s').trans hs

theorem inBuffer_scalar (value : T) : InBuffer (scalar value : Writer o Unit) := by
  intro s
  rw [exec_scalar]
  split_ifs with h
  · rfl
  · simp only [List.length_append, Scalar.length_encode, List.length_drop]
    omega

theorem inBuffer_forM {ι : Type} {f : ι → Writer o Unit} (h : ∀ i, InBuffer (f i))
    (l : List ι) : InBuffer (l.forM f) := by
  induction l with
  | nil => exact fun _ => rfl
  | cons i l ih => exact (h i).bind fun _ => ih

end SerdesWriter

/-! ### Serialising a packet -/

/-- What `serialize_to_vector` asks of a type. -/
class Serializable (T : Type) where
  serdesSizeHint : T → Except Exception ℕ
  serdes : T → Writer .network Unit

/-- `serialize_to_vector<network_byte_order>`. -/
def serializeToVector {T : Type} [Serializable T] (t : T) : Except Exception (List UInt8) := do
  let size ← Serializable.serdesSizeHint t
  let temp : SerdesWriter .network := ⟨[], List.replicate (size + 128) 0⟩
  let run := exec (Serializable.serdes t) temp
  run.1
  return (run.2.written ++ run.2.curr).take run.2.consumedBytes

/-- **Serialisation.** A packet whose bytes fit its size hint and the 128 spare bytes is
serialised to these bytes. -/
theorem serializeToVector_eq {T : Type} [Serializable T] {t : T} {size : ℕ} {bytes : List UInt8}
    (hsize : Serializable.serdesSizeHint t = .ok size)
    (hbytes : SerdesWriter.Emits (Serializable.serdes t) bytes) (hle : bytes.length ≤ size + 128) :
    serializeToVector t = .ok bytes := by
  have hrun := hbytes ⟨[], List.replicate (size + 128) 0⟩ (by simpa using hle)
  simp only [serializeToVector, hsize, bind, Except.bind, hrun]
  simp [pure, Except.pure, SerdesWriter.consumedBytes]

end Bootpd
