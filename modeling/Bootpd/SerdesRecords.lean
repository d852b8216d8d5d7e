import Bootpd.ByteOrder

/-!
# `common/serdes.hpp`: records of any shape

A packet is serialised by a sequence of calls on the writer and read by the same sequence of calls
on the reader; which overload a call selects is decided by the type of its argument. Here the
sequence is data. A shape is a list of fields, one kind for each overload that the two
specialisations share, and a record has a value for every field.

## What is asked of a shape

Nothing, but that its strings can be told from what is behind them: no string has the terminator in
it. The length of an array or a span is part of the shape, since the source has it in the type or in
the span that is passed, and does not write it. The byte order is any.

`Writes` strengthens `Emits` by the other half: without room for its bytes the writer throws. A
sequence throws exactly when the sum of its bytes is too large, though it has written the fields in
front of the one that does not fit.

## Main definitions

* `Field`, `Record` — the shapes and their records
* `Record.write`, `Record.read`, `Record.bytes` — the calls, and the bytes of a record
* `SerdesReader.Reads`, `SerdesWriter.Writes` — one read and one write, against the bytes

## Main results

* `SerdesWriter.Writes.bind`, `SerdesReader.Reads.bind` — calls in sequence
* `SerdesReader.reads_basicAsciiz` — strings up to their NUL
* `Record.writes`, `Record.reads` — a whole record
* `Record.read_write` — the reader undoes the writer, which throws exactly when there is no room
-/

namespace Bootpd

open Imperative ByteDigits

/-! ### Strings of any character type -/

/-- A character type of the source: the terminator is the character zero. -/
structure CharacterType extends IntegerType where
  toNat_ofNat_zero : Scalar.toNat (Scalar.ofNat 0 : Carrier) = 0

/-- `char`. -/
def CharacterType.char : CharacterType := { Carrier := UInt8, toNat_ofNat_zero := rfl }

namespace SerdesReader

variable {o : ByteOrder} {T : Type} [Scalar T]

/-- One pass of the loop of `basicAsciiz`. -/
def basicAsciizBody (value : List T) : Reader o (ForInStep (List T)) := do
  let char ← scalar T
  if Scalar.toNat char = 0 then return .done value
  return .yield (value ++ [char])

/-- `operator()(std::basic_string<T>&, serdes_asciiz_flag_t)`. -/
def basicAsciiz (T : Type) [Scalar T] : Reader o (List T) := loop remainingBytes basicAsciizBody []

/-- `operator()(std::span<T>)`: the loop of the array. -/
def span (T : Type) [Scalar T] (n : ℕ) : Reader o (List.Vector T n) := array T n

/-- For bytes this is `asciiz`. -/
theorem basicAsciiz_uint8 : (basicAsciiz UInt8 : Reader o StdString) = asciiz := by
  have hbody : (basicAsciizBody : StdString → Reader o _) = asciizBody := by
    funext value
    have hnul : ∀ char : UInt8, Scalar.toNat char = 0 ↔ char = 0 := by
      intro char
      rw [← UInt8.toNat_inj]
      rfl
    simp only [basicAsciizBody, asciizBody, hnul]
  rw [basicAsciiz, hbody, asciiz]

theorem consumes_basicAsciizBody (value : List T) :
    Consumes 1 (basicAsciizBody value : Reader o _) := by
  refine Consumes.bind (n := 1) (m := 0) (consumes_scalar.mono Scalar.size_pos) fun char => ?_
  by_cases hc : Scalar.toNat char = 0
  · simpa [hc] using Consumes.pure _
  · simpa [hc] using Consumes.pure _

theorem decreases_basicAsciizBody :
    Decreases remainingBytes (basicAsciizBody (o := o) (T := T)) :=
  decreases_of_consumes consumes_basicAsciizBody

/-! ### What a read returns -/

/-- From `bytes` at the cursor, whatever is behind them, `x` returns `a` and consumes exactly
them. -/
def Reads {α : Type} (x : Reader o α) (bytes : List UInt8) (a : α) : Prop :=
  ∀ d rest, exec x ⟨d, bytes ++ rest⟩ = (.ok a, ⟨d, rest⟩)

theorem Reads.pure {α : Type} (a : α) : Reads (pure a : Reader o α) [] a := fun _ _ => rfl

/-- **Reads in sequence.** -/
theorem Reads.bind {α β : Type} {x : Reader o α} {f : α → Reader o β} {bytes bytes' : List UInt8}
    {a : α} {b : β} (hx : Reads x bytes a) (hf : Reads (f a) bytes' b) :
    Reads (x >>= f) (bytes ++ bytes') b := by
  intro d rest
  rw [List.append_assoc, exec_bind_ok (hx d (bytes' ++ rest)), hf d rest]

theorem reads_scalar (value : T) :
    Reads (scalar T : Reader o T) (Scalar.encode o value) value :=
  fun d rest => exec_scalar_append d rest value

theorem reads_array {n : ℕ} (value : List.Vector T n) :
    Reads (array T n : Reader o _) (arrayBytes o value) value :=
  fun d rest => exec_array_append d rest value

/-- No character of the string is the terminator. -/
def NulFree (value : List T) : Prop := ∀ char ∈ value, Scalar.toNat char ≠ 0

/-- The bytes of a string: its characters and the terminator. -/
def asciizBytes (o : ByteOrder) (value : List T) : List UInt8 :=
  value.flatMap (Scalar.encode o) ++ Scalar.encode o (Scalar.ofNat 0 : T)

/-- One pass over a character that is there. -/
theorem exec_basicAsciizBody_append (d rest : List UInt8) (value : List T) (char : T) :
    exec (basicAsciizBody value) (⟨d, Scalar.encode o char ++ rest⟩ : SerdesReader o) =
      (.ok (if Scalar.toNat char = 0 then .done value else .yield (value ++ [char])),
        ⟨d, rest⟩) := by
  rw [basicAsciizBody, exec_bind_ok (exec_scalar_append ..)]
  split <;> rfl

/-- The loop over a string without terminators, from any accumulated string. -/
theorem exec_basicAsciiz_loop (hnul : Scalar.toNat (Scalar.ofNat 0 : T) = 0) (d rest : List UInt8)
    {s : List T} (hs : NulFree s) (value : List T) :
    exec (loop remainingBytes basicAsciizBody value)
        (⟨d, asciizBytes o s ++ rest⟩ : SerdesReader o) = (.ok (value ++ s), ⟨d, rest⟩) := by
  induction s generalizing value with
  | nil =>
    rw [exec_loop decreases_basicAsciizBody, asciizBytes, List.flatMap_nil, List.nil_append,
      exec_basicAsciizBody_append, if_pos hnul, List.append_nil]
    rfl
  | cons char s ih =>
    have hchar : Scalar.toNat char ≠ 0 := hs char List.mem_cons_self
    rw [exec_loop decreases_basicAsciizBody, asciizBytes, List.flatMap_cons, List.append_assoc,
      List.append_assoc, exec_basicAsciizBody_append, if_neg hchar, andThen_ok, ← List.append_assoc]
    show exec (loop remainingBytes basicAsciizBody (value ++ [char])) ⟨d, asciizBytes o s ++ rest⟩ =
      (.ok (value ++ char :: s), ⟨d, rest⟩)
    rw [ih fun c hc => hs c (List.mem_cons_of_mem _ hc), List.append_assoc]
    rfl

theorem reads_basicAsciiz (hnul : Scalar.toNat (Scalar.ofNat 0 : T) = 0) {value : List T}
    (hvalue : NulFree value) :
    Reads (basicAsciiz T : Reader o _) (asciizBytes o value) value :=
  fun d rest => exec_basicAsciiz_loop hnul d rest hvalue []

end SerdesReader

namespace SerdesWriter

variable {o : ByteOrder} {T : Type} [Scalar T]

/-- The constructors: the cursor is at the start. -/
def ofBits (bits : List UInt8) : SerdesWriter o := ⟨[], bits⟩

/-- `operator()(std::basic_string<T> const&, serdes_asciiz_flag_t)`. -/
def basicAsciiz (value : List T) : Writer o Unit := do
  value.forM scalar
  scalar (Scalar.ofNat 0 : T)

/-- `operator()(const T (&)[N])`: the loop of the span. -/
def array {n : ℕ} (values : List.Vector T n) : Writer o Unit := span values.toList

theorem basicAsciiz_uint8 (value : StdString) :
    (basicAsciiz value : Writer o Unit) = asciiz value := rfl

/-! ### What a write needs -/

/-- `x` puts `bytes` at the cursor where there is room for them, and throws where there is none. -/
structure Writes (x : Writer o Unit) (bytes : List UInt8) : Prop where
  emits : Emits x bytes
  throws : ∀ s, s.curr.length < bytes.length → ∃ s', exec x s = (.error notEnoughSpace, s')

theorem Writes.pure : Writes (pure () : Writer o Unit) [] := ⟨Emits.pure, fun _ h => nomatch h⟩

/-- **Writes in sequence.** -/
theorem Writes.bind {x : Writer o Unit} {f : Unit → Writer o Unit} {a b : List UInt8}
    (hx : Writes x a) (hf : Writes (f ()) b) : Writes (x >>= f) (a ++ b) where
  emits := hx.emits.bind hf.emits
  throws := by
    intro s hs
    rw [List.length_append] at hs
    by_cases ha : s.curr.length < a.length
    · obtain ⟨s', h⟩ := hx.throws s ha
      exact ⟨s', exec_bind_error h⟩
    · -- the first write fits, and leaves too little for the second
      have hrest : (s.curr.drop a.length).length < b.length := by
        rw [List.length_drop]
        omega
      rw [exec_bind_ok (hx.emits s (by omega))]
      exact hf.throws _ hrest

theorem writes_scalar (value : T) :
    Writes (scalar value : Writer o Unit) (Scalar.encode o value) where
  emits := emits_scalar value
  throws := by
    intro s hs
    rw [Scalar.length_encode] at hs
    exact ⟨s, by rw [exec_scalar, if_pos hs]⟩

theorem writes_forM {ι : Type} {f : ι → Writer o Unit} {b : ι → List UInt8}
    (h : ∀ i, Writes (f i) (b i)) (l : List ι) : Writes (l.forM f) (l.flatMap b) := by
  induction l with
  | nil => exact Writes.pure
  | cons i l ih => exact Writes.bind (h i) ih

theorem writes_span (values : List T) :
    Writes (span values : Writer o Unit) (values.flatMap (Scalar.encode o)) :=
  writes_forM writes_scalar values

theorem writes_array {n : ℕ} (values : List.Vector T n) :
    Writes (array values : Writer o Unit) (SerdesReader.arrayBytes o values) :=
  writes_span values.toList

theorem writes_basicAsciiz (value : List T) :
    Writes (basicAsciiz value : Writer o Unit) (SerdesReader.asciizBytes o value) :=
  Writes.bind (writes_span value) (writes_scalar _)

/-- A write throws exactly where there is no room. -/
theorem Writes.throws_iff {x : Writer o Unit} {bytes : List UInt8} (h : Writes x bytes)
    (s : SerdesWriter o) :
    (∃ e s', exec x s = (.error e, s')) ↔ s.curr.length < bytes.length := by
  constructor
  · rintro ⟨e, s', hrun⟩
    by_contra hlt
    rw [h.emits s (by omega)] at hrun
    cases hrun
  · intro hlt
    obtain ⟨s', hrun⟩ := h.throws s hlt
    exact ⟨_, s', hrun⟩

/-- What a write that returned has put in front of the cursor. -/
theorem Writes.written_of_ok {x : Writer o Unit} {bytes : List UInt8} (h : Writes x bytes)
    {s s' : SerdesWriter o} (hrun : exec x s = (.ok (), s')) :
    s'.written = s.written ++ bytes := by
  by_cases hlt : s.curr.length < bytes.length
  · obtain ⟨_, herror⟩ := h.throws s hlt
    rw [herror] at hrun
    cases hrun
  · rw [h.emits s (by omega)] at hrun
    obtain ⟨-, rfl⟩ := Prod.mk.inj hrun
    rfl

end SerdesWriter

/-! ### Shapes -/

/-- A field of a record: what type of argument a call has. An enumeration is stored like the
integers of its size. -/
inductive Field where
  | scalar (t : IntegerType)
  | asciiz (t : CharacterType)
  | array (t : IntegerType) (n : ℕ)
  | span (t : IntegerType) (n : ℕ)

namespace Field

/-- The value of a field. -/
def Value : Field → Type
  | .scalar t => t.Carrier
  | .asciiz t => List t.Carrier
  | .array t n => List.Vector t.Carrier n
  | .span t n => List.Vector t.Carrier n

/-- The bytes a field needs. -/
def size : (f : Field) → f.Value → ℕ
  | .scalar t, _ => Scalar.size t.Carrier
  | .asciiz t, value => (List.length value + 1) * Scalar.size t.Carrier
  | .array t n, _ => n * Scalar.size t.Carrier
  | .span t n, _ => n * Scalar.size t.Carrier

/-- No terminator inside a string. -/
def NulFree : (f : Field) → f.Value → Prop
  | .asciiz t, value => SerdesReader.NulFree (T := t.Carrier) value
  | _, _ => True

/-- `_serdes(value)` with a writer. -/
def write (o : ByteOrder) : (f : Field) → f.Value → Writer o Unit
  | .scalar t, value => SerdesWriter.scalar (T := t.Carrier) value
  | .asciiz t, value => SerdesWriter.basicAsciiz (T := t.Carrier) value
  | .array t _, values => SerdesWriter.array (T := t.Carrier) values
  | .span t _, values => SerdesWriter.span (T := t.Carrier) (List.Vector.toList values)

/-- `_serdes(value)` with a reader. -/
def read (o : ByteOrder) : (f : Field) → Reader o f.Value
  | .scalar t => SerdesReader.scalar t.Carrier
  | .asciiz t => SerdesReader.basicAsciiz t.Carrier
  | .array t n => SerdesReader.array t.Carrier n
  | .span t n => SerdesReader.span t.Carrier n

/-- The bytes of a field. -/
def bytes (o : ByteOrder) : (f : Field) → f.Value → List UInt8
  | .scalar t, value => Scalar.encode (T := t.Carrier) o value
  | .asciiz t, value => SerdesReader.asciizBytes (T := t.Carrier) o value
  | .array t _, values => SerdesReader.arrayBytes (T := t.Carrier) o values
  | .span t _, values => SerdesReader.arrayBytes (T := t.Carrier) o values

variable {o : ByteOrder}

theorem length_flatMap_encode {T : Type} [Scalar T] (values : List T) :
    (values.flatMap (Scalar.encode o)).length = values.length * Scalar.size T := by
  simp [List.length_flatMap]

theorem length_asciizBytes {T : Type} [Scalar T] (value : List T) :
    (SerdesReader.asciizBytes o value).length = (value.length + 1) * Scalar.size T := by
  rw [SerdesReader.asciizBytes, List.length_append, length_flatMap_encode, Scalar.length_encode,
    Nat.succ_mul]

theorem length_arrayBytes {T : Type} [Scalar T] {n : ℕ} (values : List.Vector T n) :
    (SerdesReader.arrayBytes o values).length = n * Scalar.size T := by
  rw [SerdesReader.arrayBytes, length_flatMap_encode, List.Vector.toList_length]

theorem length_bytes (f : Field) (value : f.Value) : (f.bytes o value).length = f.size value := by
  cases f with
  | scalar t => exact Scalar.length_encode (T := t.Carrier) o value
  | asciiz t => exact length_asciizBytes (T := t.Carrier) value
  | array t n => exact length_arrayBytes (T := t.Carrier) value
  | span t n => exact length_arrayBytes (T := t.Carrier) value

theorem writes (f : Field) (value : f.Value) :
    SerdesWriter.Writes (f.write o value) (f.bytes o value) := by
  cases f with
  | scalar t => exact SerdesWriter.writes_scalar (T := t.Carrier) value
  | asciiz t => exact SerdesWriter.writes_basicAsciiz (T := t.Carrier) value
  | array t n => exact SerdesWriter.writes_array (T := t.Carrier) value
  | span t n => exact SerdesWriter.writes_array (T := t.Carrier) value

theorem reads (f : Field) {value : f.Value} (h : f.NulFree value) :
    SerdesReader.Reads (f.read o) (f.bytes o value) value := by
  cases f with
  | scalar t => exact SerdesReader.reads_scalar (T := t.Carrier) value
  | asciiz t => exact SerdesReader.reads_basicAsciiz (T := t.Carrier) t.toNat_ofNat_zero h
  | array t n => exact SerdesReader.reads_array (T := t.Carrier) value
  | span t n => exact SerdesReader.reads_array (T := t.Carrier) value

end Field

/-! ### Records -/

/-- A record of a given shape. -/
def Record : List Field → Type
  | [] => Unit
  | f :: fs => f.Value × Record fs

namespace Record

/-- The sum of the field sizes. -/
def size : {shape : List Field} → Record shape → ℕ
  | [], _ => 0
  | f :: _, (value, values) => f.size value + size values

/-- No terminator inside any of the strings. -/
def NulFree : {shape : List Field} → Record shape → Prop
  | [], _ => True
  | f :: _, (value, values) => f.NulFree value ∧ NulFree values

/-- The calls on the writer, field by field. -/
def write (o : ByteOrder) : {shape : List Field} → Record shape → Writer o Unit
  | [], _ => return ()
  | f :: _, (value, values) => do
    f.write o value
    write o values

/-- The calls on the reader, field by field. -/
def read (o : ByteOrder) : (shape : List Field) → Reader o (Record shape)
  | [] => return ()
  | f :: fs => do
    let value ← f.read o
    let values ← read o fs
    return (value, values)

/-- The bytes of a record: those of its fields in sequence. -/
def bytes (o : ByteOrder) : {shape : List Field} → Record shape → List UInt8
  | [], _ => []
  | f :: _, (value, values) => f.bytes o value ++ bytes o values

variable {o : ByteOrder} {shape : List Field}

theorem length_bytes (record : Record shape) : (record.bytes o).length = record.size := by
  induction shape with
  | nil => rfl
  | cons f fs ih =>
    obtain ⟨value, values⟩ := record
    rw [bytes, List.length_append, Field.length_bytes, ih, size]

/-- **Writing a record.** -/
theorem writes (record : Record shape) :
    SerdesWriter.Writes (record.write o) (record.bytes o) := by
  induction shape with
  | nil => exact SerdesWriter.Writes.pure
  | cons f fs ih =>
    obtain ⟨value, values⟩ := record
    exact (f.writes value).bind (ih values)

/-- **Reading a record.** -/
theorem reads {record : Record shape} (h : record.NulFree) :
    SerdesReader.Reads (read o shape) (record.bytes o) record := by
  induction shape with
  | nil => exact SerdesReader.Reads.pure _
  | cons f fs ih =>
    obtain ⟨value, values⟩ := record
    have htail : SerdesReader.Reads
        (read o fs >>= fun values => (return (value, values) : Reader o (Record (f :: fs))))
        (bytes o values ++ []) (value, values) := (ih h.2).bind (SerdesReader.Reads.pure _)
    rw [List.append_nil] at htail
    exact (f.reads h.1).bind htail

/-- **The reader undoes the writer**, for every shape: what a writer that returned has written is
read back as the same record, and the reader stops behind it. The writer throws exactly when the
buffer is too small for the fields. -/
theorem read_write (o : ByteOrder) {shape : List Field} (record : Record shape)
    (buffer : List UInt8) :
    (∀ w, record.NulFree → exec (record.write o) (.ofBits buffer) = (.ok (), w) →
        w.written.length = record.size ∧
          ∀ rest, exec (read o shape) (.ofBits (w.written ++ rest)) =
            (.ok record, ⟨w.written ++ rest, rest⟩)) ∧
      ((∃ e w, exec (record.write o) (.ofBits buffer) = (.error e, w)) ↔
        buffer.length < record.size) := by
  constructor
  · intro w hnul hrun
    have hwritten : w.written = record.bytes o := record.writes.written_of_ok hrun
    rw [hwritten]
    exact ⟨record.length_bytes, fun rest => reads hnul _ rest⟩
  · rw [record.writes.throws_iff, length_bytes]
    rfl

/-- A field of each kind. -/
def mixedShape : List Field := [.scalar ⟨UInt16⟩, .asciiz .char, .array ⟨UInt8⟩ 2, .span ⟨UInt32⟩ 1]

/-- A record of this shape. -/
def mixed : Record mixedShape :=
  ((0x0102 : UInt16), (lit "ab" : StdString), (⟨[3, 4], rfl⟩ : List.Vector UInt8 2),
    (⟨[0x05060708], rfl⟩ : List.Vector UInt32 1), ())

/-- The record in a buffer with room to spare, and read back with a byte behind it. -/
theorem read_write_mixed :
    exec (mixed.write .network) (.ofBits (List.replicate 16 0)) =
        (.ok (), ⟨[1, 2, 97, 98, 0, 3, 4, 5, 6, 7, 8], List.replicate 5 0⟩) ∧
      exec (read .network mixedShape) (.ofBits [1, 2, 97, 98, 0, 3, 4, 5, 6, 7, 8, 9]) =
        (.ok mixed, ⟨[1, 2, 97, 98, 0, 3, 4, 5, 6, 7, 8, 9], [9]⟩) := by
  have hnul : mixed.NulFree := by
    refine ⟨trivial, ?_, trivial, trivial, trivial⟩
    rintro char (_ | ⟨_, _ | ⟨_, ⟨⟩⟩⟩) <;> decide
  exact ⟨rfl, ((read_write .network mixed (List.replicate 16 0)).1 _ hnul rfl).2 [9]⟩

end Record

end Bootpd
