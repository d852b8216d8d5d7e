import Bootpd.SerdesCursorRefinement

/-!
# Records through memory

The round trip of `SerdesRecords`, for the objects of the source: a writer puts a record into its
buffer, and a reader made for the bytes written reads it into variables of the caller.

Nothing is proved anew here. Each call on the object does what the call on the lists does, by
`SerdesCursorRefinement`, and the two sequences of calls are followed side by side, field by field.
What the lists do not have are the variables: each field has one of its own type, an array or a span
with as many elements as it is declared with, and a string with anything in it. What they held
before does not matter, as `Targets` shows by being arbitrary.

The buffer is anywhere in memory, and what is around it stays as it is.

## Main definitions

* `Field.Target`, `Targets` — the variables for the fields of a record
* `Record.writeMemory`, `Record.readMemory` — the calls, field by field

## Main results

* `Field.follows_write`, `Field.follows_read` — one field, with spans as with lists
* `Record.writeMemory_throws_iff`, `Record.read_write_memory` — the round trip
-/

namespace Bootpd

open Imperative

/-! ### Fields -/

namespace Field

/-- The variable that a reader is given for the field. -/
def Target : Field → Type
  | .scalar t => t.Carrier
  | .asciiz t => List t.Carrier
  | .array t _ => List t.Carrier
  | .span t _ => List t.Carrier

/-- The variable that holds a value. -/
def held : (f : Field) → f.Value → f.Target
  | .scalar _, value => value
  | .asciiz _, value => value
  | .array _ _, values => List.Vector.toList values
  | .span _ _, values => List.Vector.toList values

/-- An array or a span has the elements it is declared with. -/
def Fits : (f : Field) → f.Target → Prop
  | .array _ n, target => List.length target = n
  | .span _ n, target => List.length target = n
  | _, _ => True

/-- The integer type of the field uses all its bytes. -/
def Onto : Field → Prop
  | .scalar t => Scalar.Onto t.Carrier
  | .asciiz t => Scalar.Onto t.Carrier
  | .array t _ => Scalar.Onto t.Carrier
  | .span t _ => Scalar.Onto t.Carrier

/-- The member function of the writer. -/
def writeMemory (o : ByteOrder) : (f : Field) → f.Value → Imp Serdes Exception Unit
  | .scalar t, value => Serdes.writeScalar (T := t.Carrier) o value
  | .asciiz t, value => Serdes.writeAsciiz (T := t.Carrier) o value
  | .array t _, values => Serdes.writeArray (T := t.Carrier) o (List.Vector.toList values)
  | .span t _, values => Serdes.writeSpan (T := t.Carrier) o (List.Vector.toList values)

/-- The member function of the reader. -/
def readMemory (o : ByteOrder) : (f : Field) → Imp (Serdes × f.Target) Exception Unit
  | .scalar t => Serdes.readScalar (T := t.Carrier) o
  | .asciiz t => Serdes.readAsciiz (T := t.Carrier) o
  | .array t _ => Serdes.readArray (T := t.Carrier) o
  | .span t _ => Serdes.readSpan (T := t.Carrier) o

variable {o : ByteOrder} {buffer : Region}

/-- **Writing a field.** -/
theorem follows_write (f : Field) (hf : f.Onto) (value : f.Value) :
    Follows Serdes.toWriter (Serdes.InMemory buffer) (f.writeMemory o value) (f.write o value) := by
  cases f with
  | scalar t => exact Serdes.follows_writeScalar (T := t.Carrier) hf value
  | asciiz t => exact Serdes.follows_writeAsciiz (T := t.Carrier) hf value
  | array t n => exact Serdes.follows_writeSpan (T := t.Carrier) hf (List.Vector.toList value)
  | span t n => exact Serdes.follows_writeSpan (T := t.Carrier) hf (List.Vector.toList value)

/-- **Reading a field** into a variable. -/
theorem follows_read (f : Field) (hf : f.Onto) {target : f.Target} (hfits : f.Fits target) :
    Follows Serdes.toReader (Serdes.InMemory buffer) (withTarget target (f.readMemory o)) (do
      let value ← f.read o
      return f.held value) := by
  cases f with
  | scalar t =>
    have h : Follows Serdes.toReader (Serdes.InMemory buffer)
        (withTarget target (readMemory o (.scalar t)))
        (SerdesReader.scalar t.Carrier : Reader o t.Carrier) :=
      Serdes.follows_readScalar (T := t.Carrier) hf target
    rwa [← bind_pure (SerdesReader.scalar t.Carrier)] at h
  | asciiz t =>
    have h : Follows Serdes.toReader (Serdes.InMemory buffer)
        (withTarget target (readMemory o (.asciiz t)))
        (SerdesReader.basicAsciiz t.Carrier : Reader o (List t.Carrier)) :=
      Serdes.follows_readAsciiz (T := t.Carrier) hf target
    rwa [← bind_pure (SerdesReader.basicAsciiz t.Carrier)] at h
  | array t n => exact Serdes.follows_readArray (T := t.Carrier) hf hfits
  | span t n => exact Serdes.follows_readArray (T := t.Carrier) hf hfits

end Field

/-! ### Records -/

/-- A variable for every field. -/
def Targets : List Field → Type
  | [] => Unit
  | f :: fs => f.Target × Targets fs

/-- Every variable fits its field. -/
def Targets.Fits : {shape : List Field} → Targets shape → Prop
  | [], _ => True
  | f :: _, (target, targets) => f.Fits target ∧ Fits targets

namespace Record

/-- The variables that hold a record. -/
def held : {shape : List Field} → Record shape → Targets shape
  | [], _ => ()
  | f :: _, (value, values) => (f.held value, held values)

/-- The calls on the writer, field by field. -/
def writeMemory (o : ByteOrder) : {shape : List Field} → Record shape → Imp Serdes Exception Unit
  | [], _ => return ()
  | f :: _, (value, values) => do
    f.writeMemory o value
    writeMemory o values

/-- The calls on the reader, field by field, and what the variables hold in the end. -/
def readMemory (o : ByteOrder) : {shape : List Field} → Targets shape →
    Imp Serdes Exception (Targets shape)
  | [], _ => return ()
  | f :: _, (target, targets) => do
    let value ← withTarget target (f.readMemory o)
    let values ← readMemory o targets
    return (value, values)

variable {o : ByteOrder} {shape : List Field} {buffer : Region}

/-- **Writing a record.** -/
theorem follows_write (honto : ∀ f ∈ shape, f.Onto) (record : Record shape) :
    Follows Serdes.toWriter (Serdes.InMemory buffer) (record.writeMemory o) (record.write o) := by
  induction shape with
  | nil => exact Follows.pure _
  | cons f fs ih =>
    obtain ⟨value, values⟩ := record
    exact Follows.bind (f.follows_write (honto f List.mem_cons_self) value) fun _ =>
      ih (fun g hg => honto g (List.mem_cons_of_mem _ hg)) values

/-- **Reading a record** into variables. -/
theorem follows_read (honto : ∀ f ∈ shape, f.Onto) {targets : Targets shape}
    (hfits : targets.Fits) :
    Follows Serdes.toReader (Serdes.InMemory buffer) (readMemory o targets) (do
      let record ← read o shape
      return record.held) := by
  induction shape with
  | nil => exact Follows.pure _
  | cons f fs ih =>
    obtain ⟨target, targets⟩ := targets
    have hseq : (do
        let record ← read o (f :: fs)
        return record.held : Reader o (Targets (f :: fs))) = (do
        let value ← (do
          let value ← f.read o
          return f.held value : Reader o f.Target)
        let values ← (do
          let record ← read o fs
          return record.held : Reader o (Targets fs))
        return (value, values)) := by
      refine (bind_assoc (f.read o) _ _).trans ?_
      rw [bind_assoc]
      refine congrArg (f.read o >>= ·) (funext fun value => ?_)
      refine (bind_assoc (read o fs) _ _).trans ?_
      rw [pure_bind, bind_assoc]
      refine congrArg (read o fs >>= ·) (funext fun values => ?_)
      rw [pure_bind]
      exact pure_bind _ _
    rw [hseq]
    exact Follows.bind (f.follows_read (honto f List.mem_cons_self) hfits.1) fun value =>
      Follows.bind (ih (fun g hg => honto g (List.mem_cons_of_mem _ hg)) hfits.2) fun values =>
        Follows.pure (value, values)

theorem inMemory_within (before buffer behind : List UInt8) :
    Serdes.InMemory ⟨before.length, buffer.length⟩ (.within before buffer behind) := by
  refine Serdes.inside_ofBits ?_ _
  show before.length + buffer.length ≤ (before ++ buffer ++ behind).length
  simp only [List.length_append]
  omega

/-- A new writer has all of its buffer in front of it. -/
theorem toWriter_within (before buffer behind : List UInt8) :
    (Serdes.within before buffer behind).toWriter = (.ofBits buffer : SerdesWriter o) := by
  have hwritten : Region.bytes ⟨before.length, before.length - before.length⟩
      (before ++ buffer ++ behind) = [] := by
    rw [Region.bytes, Nat.sub_self, List.take_zero]
  have hcurr : Region.bytes ⟨before.length, buffer.length⟩ (before ++ buffer ++ behind) =
      buffer := by
    rw [Region.bytes, List.append_assoc, List.drop_left' rfl, List.take_left' rfl]
  exact congrArg₂ SerdesWriter.mk hwritten hcurr

/-- **A writer that has a record to write** throws exactly where there is no room. -/
theorem writeMemory_throws_iff (honto : ∀ f ∈ shape, f.Onto) (record : Record shape)
    (before buffer behind : List UInt8) :
    (∃ e w, exec (record.writeMemory o) (.within before buffer behind) = (.error e, w)) ↔
      buffer.length < record.size := by
  have hwrite := (follows_write (o := o) honto record _ (inMemory_within before buffer behind)).2
  rw [toWriter_within] at hwrite
  rw [← record.length_bytes (o := o)]
  refine Iff.trans ?_ (record.writes.throws_iff (.ofBits buffer))
  rw [hwrite]
  rcases exec (record.writeMemory o) (.within before buffer behind) with ⟨e | ⟨⟩, w⟩ <;> simp

/-- What a writer leaves that returned: the record's bytes from the start of the buffer on. -/
theorem bytes_of_writeMemory (honto : ∀ f ∈ shape, f.Onto) {record : Record shape}
    {before buffer behind : List UInt8} {w : Serdes}
    (hrun : exec (record.writeMemory o) (.within before buffer behind) = (.ok (), w)) :
    w.consumedBytes = record.size ∧
      Region.bytes ⟨before.length, record.size⟩ w.memory = record.bytes o ∧
      before.length + record.size ≤ w.memory.length := by
  obtain ⟨hw, hwrite⟩ :=
    follows_write (o := o) honto record _ (inMemory_within before buffer behind)
  rw [hrun] at hw hwrite
  rw [toWriter_within] at hwrite
  have hbytes : Region.bytes ⟨before.length, w.curr.data - before.length⟩ w.memory =
      record.bytes o := by
    have h : w.toWriter.written = record.bytes o := record.writes.written_of_ok hwrite
    rwa [Serdes.toWriter, hw.data_eq] at h
  have hlow := hw.le_curr
  have hend := hw.curr_end
  have hmemory := hw.memory
  dsimp only at hlow hend hmemory
  have hlength : (Region.bytes ⟨before.length, w.curr.data - before.length⟩ w.memory).length =
      w.curr.data - before.length := by
    refine Region.length_bytes ?_
    show before.length + (w.curr.data - before.length) ≤ w.memory.length
    omega
  have hsize : w.curr.data - before.length = record.size := by
    rw [← hlength, hbytes, record.length_bytes]
  rw [hsize] at hbytes
  refine ⟨?_, hbytes, by omega⟩
  rw [Serdes.consumedBytes, hw.data_eq]
  show buffer.length - w.curr.size = record.size
  omega

/-- **The round trip through memory.** A reader made for the bytes that a writer has written into
its buffer leaves the record in the caller's variables, whatever they held, and nothing unread. -/
theorem read_write_memory (honto : ∀ f ∈ shape, f.Onto) {record : Record shape}
    (hnul : record.NulFree) {before buffer behind : List UInt8} {w : Serdes}
    (hrun : exec (record.writeMemory o) (.within before buffer behind) = (.ok (), w))
    {targets : Targets shape} (hfits : targets.Fits) :
    ∃ r, exec (readMemory o targets) (.ofBits w.memory ⟨before.length, w.consumedBytes⟩) =
        (.ok record.held, r) ∧ r.remainingBytes = 0 := by
  obtain ⟨hsize, hbytes, hfit⟩ := bytes_of_writeMemory honto hrun
  rw [hsize]
  have hmade : Serdes.InMemory ⟨before.length, record.size⟩
      (.ofBits w.memory ⟨before.length, record.size⟩) := Serdes.inside_ofBits hfit _
  obtain ⟨hr, hread⟩ := follows_read (o := o) honto hfits _ hmade
  have hreader : (Serdes.ofBits w.memory ⟨before.length, record.size⟩).toReader =
      (⟨record.bytes o, record.bytes o ++ []⟩ : SerdesReader o) := by
    rw [List.append_nil]
    exact congrArg₂ SerdesReader.mk hbytes hbytes
  rw [hreader, exec_bind_ok (reads hnul _ []), exec_pure] at hread
  obtain ⟨hresult, hcurr⟩ := Prod.mk.inj hread
  refine ⟨_, Prod.ext hresult.symm rfl, ?_⟩
  have hunread := congrArg (fun r : SerdesReader o => r.curr.length) hcurr
  exact (Serdes.InMemory.length_unread hr).symm.trans hunread.symm

end Record

end Bootpd
