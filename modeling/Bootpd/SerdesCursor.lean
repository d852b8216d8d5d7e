import Bootpd.Lib.Targets
import Bootpd.SerdesRecords

/-!
# `common/serdes.hpp`: the cursor

`SerdesReader` and `SerdesWriter` keep the bytes in front of and behind the cursor. The object in
the source keeps two spans, `m_data` and `m_curr`, into memory that it does not own, and nothing in
its type keeps them together. Here is that object, with its address arithmetic, the memory around
the buffer, and the variables a reader writes into, which are no part of that memory.

The addresses that were accessed are recorded, so that an access outside the buffer shows even
where it does no harm. A `subspan` past the end of its span is undefined.

## The invariant

`Inside` says that the object is about one buffer, that the unread region is an end of it, and that
nothing outside of it was accessed. `skip` and `seek` check before they move; a read or a write
checks before it touches. So every call keeps the invariant, whether it returns or throws.

What a throw leaves is a second matter. A scalar is read or written whole or not at all. A string,
an array or a span may get half of the way: its elements are read one after the other, and those in
front of the throw have been read. `AllOrNothing` names the calls of the first kind, and for the
others it is said what their targets have then.

## Main definitions

* `Region`, `Serdes` — a span, and the object with its memory
* `ReaderCall`, `WriterCall` — the calls of either specialisation
* `Serdes.Inside`, `Serdes.Safe` — the invariant, and the computations that keep it

## Main results

* `exec_readScalar`, `exec_writeScalar` — one scalar
* `Inside` — the invariant: the cursor and every access are inside the buffer
* `ReaderCall.safe`, `WriterCall.safe` — every call keeps it, returning or throwing
* `cursor_invariant` — any sequence of calls keeps it
-/

namespace Bootpd

open Imperative

/-! ### Memory -/

/-- A `std::span` of bytes: where it starts and how many there are. -/
structure Region where
  data : ℕ
  size : ℕ
deriving DecidableEq, Repr

/-- The addresses of a region. -/
instance : Membership ℕ Region := ⟨fun r a => r.data ≤ a ∧ a < r.data + r.size⟩

/-- `subspan(offset)`, which must not be past the end. -/
def Region.subspan (r : Region) (offset : ℕ) : Except Exception Region :=
  if r.size < offset then .error (.undefinedBehaviour (lit "span::subspan"))
  else .ok ⟨r.data + offset, r.size - offset⟩

/-- The bytes of a region. -/
def Region.bytes (r : Region) (memory : List UInt8) : List UInt8 :=
  (memory.drop r.data).take r.size

/-- An end of a region has an end of its bytes. -/
theorem Region.bytes_end (r : Region) (k : ℕ) (memory : List UInt8) :
    Region.bytes ⟨r.data + k, r.size - k⟩ memory = (r.bytes memory).drop k := by
  rw [bytes, bytes, List.drop_take, List.drop_drop]

/-- The memory after `bytes` are stored at an address. -/
def overwrite (memory : List UInt8) (address : ℕ) (bytes : List UInt8) : List UInt8 :=
  memory.take address ++ bytes ++ memory.drop (address + bytes.length)

/-- A `serdes` object, reader or writer, and the memory it points into. -/
structure Serdes where
  /-- All of the memory, from address 0 on. -/
  memory : List UInt8
  /-- `m_curr`. -/
  curr : Region
  /-- `m_data`. -/
  data : Region
  /-- The addresses of the bytes that were read or written through the object. -/
  accessed : List ℕ
deriving DecidableEq, Repr

namespace Serdes

/-- The constructors. -/
def ofBits (memory : List UInt8) (bits : Region) : Serdes := ⟨memory, bits, bits, []⟩

/-- `remaining_bytes()`. -/
def remainingBytes (s : Serdes) : ℕ := s.curr.size

/-- `consumed_bytes()`. -/
def consumedBytes (s : Serdes) : ℕ := s.data.size - s.curr.size

/-- `empty()`. -/
def empty (s : Serdes) : Bool := s.curr.size == 0

/-! ### Moving the cursor -/

/-- `m_curr = m_curr.subspan(offset)`. -/
def advance (offset : ℕ) : Imp Serdes Exception Unit := do
  let s ← get
  let curr ← liftExcept (s.curr.subspan offset)
  set { s with curr := curr }

/-- `skip`. -/
def skip (numberOfBytes : ℕ) : Imp Serdes Exception Unit := do
  let s ← get
  if s.curr.size < numberOfBytes then
    throw (.runtimeError (lit "skipping past end of data"))
  advance numberOfBytes

/-- `seek`. -/
def seek (byteOffset : ℕ) : Imp Serdes Exception Unit := do
  let s ← get
  if s.data.size < byteOffset then
    throw (.runtimeError (lit "seeking pas end of data"))
  let curr ← liftExcept (s.data.subspan byteOffset)
  set { s with curr := curr }

/-- `rewind`. -/
def rewind : Imp Serdes Exception Unit := seek 0

/-! ### Accesses at the cursor -/

/-- The addresses of `n` bytes at the cursor. -/
def touched (s : Serdes) (n : ℕ) : Serdes :=
  { s with accessed := s.accessed ++ List.range' s.curr.data n }

/-- The bytes are stored at the cursor. -/
def stored (s : Serdes) (bytes : List UInt8) : Serdes :=
  { s.touched bytes.length with memory := overwrite s.memory s.curr.data bytes }

/-- Read `n` bytes at `m_curr.data()`. -/
def load (n : ℕ) : Imp Serdes Exception (List UInt8) := do
  let s ← get
  set (s.touched n)
  return Region.bytes ⟨s.curr.data, n⟩ s.memory

/-- Write bytes at `m_curr.data()`. -/
def store (bytes : List UInt8) : Imp Serdes Exception Unit := modify fun s => s.stored bytes

/-! ### The reader -/

section Reader

variable (o : ByteOrder) {T : Type} [Scalar T]

/-- `operator()(T&)` for a trivial `T`. -/
def readScalar : Imp (Serdes × T) Exception Unit := do
  let p ← get
  if p.1.curr.size < Scalar.size T then
    throw SerdesReader.notEnoughData
  let bytes ← onObject (load (Scalar.size T))
  assign (Scalar.ofMemory bytes)
  if o = .network then
    modify fun p => (p.1, Scalar.netToHostInplace p.2)
  onObject (advance (Scalar.size T))

/-- One pass of the loop of `readAsciiz`. -/
def readAsciizBody (value : List T) : Imp Serdes Exception (ForInStep (List T)) := do
  let char ← withTarget (Scalar.ofNat 0) (readScalar o)
  if Scalar.toNat char = 0 then return .done value
  return .yield (value ++ [char])

/-- `operator()(std::basic_string<T>&, serdes_asciiz_flag_t)`: the characters are collected in a
local string, which is moved to the target at the end. -/
def readAsciiz : Imp (Serdes × List T) Exception Unit :=
  assignLast (loop remainingBytes (readAsciizBody o) [])

/-- `operator()(T (&)[N])`. -/
def readArray : Imp (Serdes × List T) Exception Unit := forEach (readScalar o)

/-- `operator()(std::span<T>)`. -/
def readSpan : Imp (Serdes × List T) Exception Unit := forEach (readScalar o)

end Reader

/-! ### The writer -/

section Writer

variable (o : ByteOrder) {T : Type} [Scalar T]

/-- `operator()(T const&)` for a trivial `T`: the value is stored as it is, and swapped in
place. -/
def writeScalar (value : T) : Imp Serdes Exception Unit := do
  let s ← get
  if s.curr.size < Scalar.size T then
    throw SerdesWriter.notEnoughSpace
  store (Scalar.memory value)
  if o = .network then
    let bytes ← load (Scalar.size T)
    store (Scalar.memory (Scalar.hostToNetInplace (Scalar.ofMemory bytes : T)))
  advance (Scalar.size T)

/-- `operator()(std::span<T>)` and `operator()(std::span<const T>)`. -/
def writeSpan (values : List T) : Imp Serdes Exception Unit := values.forM (writeScalar o)

/-- `operator()(const T (&)[N])`. -/
def writeArray (values : List T) : Imp Serdes Exception Unit := values.forM (writeScalar o)

/-- `operator()(std::basic_string<T> const&)` and `operator()(std::basic_string_view<T>)`. -/
def writeString (values : List T) : Imp Serdes Exception Unit := values.forM (writeScalar o)

/-- `operator()(std::basic_string<T> const&, serdes_asciiz_flag_t)`. -/
def writeAsciiz (value : List T) : Imp Serdes Exception Unit := do
  value.forM (writeScalar o)
  writeScalar o (Scalar.ofNat 0 : T)

end Writer

/-! ### What one call does -/

/-- The object with its cursor `n` bytes further. -/
def advanced (s : Serdes) (n : ℕ) : Serdes :=
  { s with curr := ⟨s.curr.data + n, s.curr.size - n⟩ }

theorem exec_advance {s : Serdes} {n : ℕ} (h : n ≤ s.curr.size) :
    exec (advance n) s = (.ok (), s.advanced n) := by
  have hn : ¬s.curr.size < n := by omega
  simp [advance, exec_bind, Region.subspan, hn, advanced]

theorem exec_skip (s : Serdes) (n : ℕ) :
    exec (skip n) s =
      if s.curr.size < n then (.error (.runtimeError (lit "skipping past end of data")), s)
      else (.ok (), s.advanced n) := by
  by_cases h : s.curr.size < n
  · simp [skip, exec_bind, h]
  · simp [skip, exec_bind, h, exec_advance (Nat.le_of_not_lt h)]

theorem exec_seek (s : Serdes) (n : ℕ) :
    exec (seek n) s =
      if s.data.size < n then (.error (.runtimeError (lit "seeking pas end of data")), s)
      else (.ok (), { s with curr := ⟨s.data.data + n, s.data.size - n⟩ }) := by
  by_cases h : s.data.size < n
  · simp [seek, exec_bind, h]
  · simp [seek, exec_bind, Region.subspan, h]

section Scalars

variable {o : ByteOrder} {T : Type} [Scalar T]

/-- The value the reader takes from some bytes. -/
def loaded (o : ByteOrder) (bytes : List UInt8) : T :=
  match o with
  | .network => Scalar.netToHostInplace (Scalar.ofMemory bytes)
  | .host => Scalar.ofMemory bytes

/-- **Reading a scalar.** A throw comes before anything is touched. -/
theorem exec_readScalar (s : Serdes) (target : T) :
    exec (readScalar o) (s, target) =
      if s.curr.size < Scalar.size T then (.error SerdesReader.notEnoughData, (s, target))
      else (.ok (), ((s.touched (Scalar.size T)).advanced (Scalar.size T),
        loaded o (Region.bytes ⟨s.curr.data, Scalar.size T⟩ s.memory))) := by
  by_cases h : s.curr.size < Scalar.size T
  · simp [readScalar, exec_bind, h]
  · have hmove : exec (advance (Scalar.size T)) (s.touched (Scalar.size T)) =
        (.ok (), (s.touched (Scalar.size T)).advanced (Scalar.size T)) :=
      exec_advance (Nat.le_of_not_lt h)
    cases o <;> simp [readScalar, exec_bind, h, onObject, load, assign, hmove, loaded]

/-- The memory after a value is stored and swapped in place. -/
def storedScalar (o : ByteOrder) (s : Serdes) (value : T) : Serdes :=
  match o with
  | .host => s.stored (Scalar.memory value)
  | .network =>
    let raw := s.stored (Scalar.memory value)
    (raw.touched (Scalar.size T)).stored (Scalar.memory (Scalar.hostToNetInplace
      (Scalar.ofMemory (Region.bytes ⟨s.curr.data, Scalar.size T⟩ raw.memory) : T)))

/-- **Writing a scalar.** A throw comes before anything is touched. -/
theorem exec_writeScalar (s : Serdes) (value : T) :
    exec (writeScalar o value) s =
      if s.curr.size < Scalar.size T then (.error SerdesWriter.notEnoughSpace, s)
      else (.ok (), (storedScalar o s value).advanced (Scalar.size T)) := by
  by_cases h : s.curr.size < Scalar.size T
  · simp [writeScalar, exec_bind, h]
  · have hmove : ∀ t : Serdes, t.curr = s.curr →
        exec (advance (Scalar.size T)) t = (.ok (), t.advanced (Scalar.size T)) :=
      fun t ht => exec_advance (ht ▸ Nat.le_of_not_lt h)
    cases o
    · simp only [writeScalar, exec_bind, exec_get, andThen_ok, h, if_false, store, exec_modify,
        if_true, load, exec_set, exec_pure]
      exact hmove _ rfl
    · simp only [writeScalar, exec_bind, exec_get, andThen_ok, h, if_false, store, exec_modify]
      exact hmove _ rfl

end Scalars

/-! ### The invariant -/

/-- **The invariant.** The object is about `buffer`, the unread region is an end of it, and nothing
outside of it was accessed. What is known of the memory is `M`. -/
structure Inside (M : List UInt8 → Prop) (buffer : Region) (s : Serdes) : Prop where
  data_eq : s.data = buffer
  le_curr : buffer.data ≤ s.curr.data
  curr_end : s.curr.data + s.curr.size = buffer.data + buffer.size
  accessed : ∀ a ∈ s.accessed, a ∈ buffer
  memory : M s.memory

variable {M : List UInt8 → Prop} {buffer : Region}

theorem Inside.advanced {s : Serdes} (h : Inside M buffer s) {n : ℕ} (hn : n ≤ s.curr.size) :
    Inside M buffer (s.advanced n) where
  data_eq := h.data_eq
  le_curr := by
    have := h.le_curr
    show buffer.data ≤ s.curr.data + n
    omega
  curr_end := by
    have := h.curr_end
    show s.curr.data + n + (s.curr.size - n) = buffer.data + buffer.size
    omega
  accessed := h.accessed
  memory := h.memory

theorem Inside.touched {s : Serdes} (h : Inside M buffer s) {n : ℕ} (hn : n ≤ s.curr.size) :
    Inside M buffer (s.touched n) where
  data_eq := h.data_eq
  le_curr := h.le_curr
  curr_end := h.curr_end
  accessed := by
    intro a ha
    rcases List.mem_append.mp ha with hold | hnew
    · exact h.accessed a hold
    · obtain ⟨hlow, hhigh⟩ := List.mem_range'_1.mp hnew
      have := h.le_curr
      have := h.curr_end
      exact ⟨by omega, by omega⟩
  memory := h.memory

theorem Inside.seeked {s : Serdes} (h : Inside M buffer s) {n : ℕ} (hn : n ≤ s.data.size) :
    Inside M buffer { s with curr := ⟨s.data.data + n, s.data.size - n⟩ } where
  data_eq := h.data_eq
  le_curr := by
    rw [← h.data_eq]
    exact Nat.le_add_right ..
  curr_end := by
    rw [← h.data_eq]
    show s.data.data + n + (s.data.size - n) = s.data.data + s.data.size
    omega
  accessed := h.accessed
  memory := h.memory

/-- Storing bytes inside the buffer keeps what is known of the memory. -/
def Writable (M : List UInt8 → Prop) (buffer : Region) : Prop :=
  ∀ memory address bytes, M memory → buffer.data ≤ address →
    address + bytes.length ≤ buffer.data + buffer.size → M (overwrite memory address bytes)

theorem Inside.stored {s : Serdes} (hM : Writable M buffer) (h : Inside M buffer s)
    {bytes : List UInt8} (hn : bytes.length ≤ s.curr.size) : Inside M buffer (s.stored bytes) where
  data_eq := h.data_eq
  le_curr := h.le_curr
  curr_end := h.curr_end
  accessed := (h.touched hn).accessed
  memory := by
    have := h.curr_end
    exact hM _ _ _ h.memory h.le_curr (by omega)

theorem Inside.storedScalar {T : Type} [Scalar T] {s : Serdes} (hM : Writable M buffer)
    (h : Inside M buffer s) (o : ByteOrder) (value : T) (hn : Scalar.size T ≤ s.curr.size) :
    Inside M buffer (storedScalar o s value) := by
  have hraw : Inside M buffer (s.stored (Scalar.memory value)) :=
    h.stored hM (by rwa [Scalar.length_memory])
  cases o with
  | host => exact hraw
  | network => exact (hraw.touched (by exact hn)).stored hM (by rw [Scalar.length_memory]; exact hn)

/-! ### Every call keeps it -/

/-- The state of a throw: `I` still holds, and the behaviour is defined. -/
def Thrown (I : Serdes → Prop) (e : Exception) (s : Serdes) : Prop :=
  I s ∧ ∀ what, e ≠ .undefinedBehaviour what

/-- The computation keeps `I`, returning or throwing. -/
def Safe {α : Type} (I : Serdes → Prop) (x : Imp Serdes Exception α) : Prop :=
  Triple I x (fun _ => I) (Thrown I)

/-- The call keeps `I` of the object, whatever its target. -/
def SafeCall {τ : Type} (I : Serdes → Prop) (x : Imp (Serdes × τ) Exception Unit) : Prop :=
  Triple (fun p => I p.1) x (fun _ p => I p.1) fun e p => Thrown I e p.1

/-- A computation is safe when each of its two outcomes is. -/
theorem Safe.of_exec {I : Serdes → Prop} {x : Imp Serdes Exception Unit}
    {failed : Serdes → Prop} [DecidablePred failed] {e : Exception} {next : Serdes → Serdes}
    (hx : ∀ s, exec x s = if failed s then (.error e, s) else (.ok (), next s))
    (he : ∀ what, e ≠ .undefinedBehaviour what) (hnext : ∀ s, I s → ¬failed s → I (next s)) :
    Safe I x where
  ok := by
    intro s a s' hs hrun
    rw [hx] at hrun
    split at hrun <;> cases hrun
    exact hnext s hs ‹_›
  error := by
    intro s e' s' hs hrun
    rw [hx] at hrun
    split at hrun <;> cases hrun
    exact ⟨hs, he⟩

/-- Where the only throw comes first, it leaves the object as it was. -/
theorem unchanged_of_exec {x : Imp Serdes Exception Unit} {failed : Serdes → Prop}
    [DecidablePred failed] {e e' : Exception} {next : Serdes → Serdes}
    (hx : ∀ s, exec x s = if failed s then (.error e, s) else (.ok (), next s)) {s s' : Serdes}
    (hrun : exec x s = (.error e', s')) : s' = s := by
  rw [hx] at hrun
  split at hrun <;> cases hrun
  rfl

theorem SafeCall.forEach {τ : Type} {I : Serdes → Prop} {x : Imp (Serdes × τ) Exception Unit}
    (h : SafeCall I x) : SafeCall I (forEach x) :=
  Triple.forEach (E := Thrown I) h

theorem safe_skip (n : ℕ) : Safe (Inside M buffer) (skip n) :=
  Safe.of_exec (fun s => exec_skip s n) (fun _ => nofun) fun _ hs hn =>
    hs.advanced (Nat.le_of_not_lt hn)

theorem safe_seek (n : ℕ) : Safe (Inside M buffer) (seek n) :=
  Safe.of_exec (fun s => exec_seek s n) (fun _ => nofun) fun _ hs hn =>
    hs.seeked (Nat.le_of_not_lt hn)

theorem safe_writeScalar {T : Type} [Scalar T] (hM : Writable M buffer) (o : ByteOrder)
    (value : T) : Safe (Inside M buffer) (writeScalar o value) :=
  Safe.of_exec (fun s => exec_writeScalar s value) (fun _ => nofun) fun s hs hn =>
    have hstored := hs.storedScalar hM o value (Nat.le_of_not_lt hn)
    hstored.advanced (by cases o <;> exact Nat.le_of_not_lt hn)

theorem safe_forM {ι : Type} {I : Serdes → Prop} {x : ι → Imp Serdes Exception Unit}
    (h : ∀ i, Safe I (x i)) (l : List ι) : Safe I (l.forM x) := by
  induction l with
  | nil => exact Triple.pure _ fun _ hs => hs
  | cons i l ih => exact Triple.bind (h i) fun _ => ih

theorem safe_writeAsciiz {T : Type} [Scalar T] (hM : Writable M buffer) (o : ByteOrder)
    (value : List T) : Safe (Inside M buffer) (writeAsciiz o value) :=
  Triple.bind (safe_forM (safe_writeScalar hM o) value) fun _ => safe_writeScalar hM o _

theorem safe_readScalar {T : Type} [Scalar T] (o : ByteOrder) :
    SafeCall (Inside M buffer) (readScalar o : Imp (Serdes × T) Exception Unit) where
  ok := by
    rintro ⟨s, target⟩ a p hs hrun
    rw [exec_readScalar] at hrun
    split at hrun <;> cases hrun
    have hn := Nat.le_of_not_lt ‹¬s.curr.size < Scalar.size T›
    exact (Inside.touched hs hn).advanced hn
  error := by
    rintro ⟨s, target⟩ e p hs hrun
    rw [exec_readScalar] at hrun
    split at hrun <;> cases hrun
    exact ⟨hs, fun _ => nofun⟩

section Strings

variable {o : ByteOrder} {T : Type} [Scalar T]

/-- Reading a scalar into a local variable. -/
theorem exec_withTarget_readScalar (s : Serdes) (target : T) :
    exec (withTarget target (readScalar o)) s =
      if s.curr.size < Scalar.size T then (.error SerdesReader.notEnoughData, s)
      else (.ok (loaded o (Region.bytes ⟨s.curr.data, Scalar.size T⟩ s.memory)),
        (s.touched (Scalar.size T)).advanced (Scalar.size T)) := by
  rw [withTarget, exec_ofRun, exec_readScalar]
  split <;> rfl

/-- Every pass of the loop takes a character. -/
theorem decreases_readAsciizBody :
    Decreases remainingBytes (readAsciizBody o : List T → Imp Serdes Exception _) := by
  intro value s value' s' hrun
  obtain ⟨char, t, hchar, hrest⟩ := exec_bind_eq_ok hrun
  rw [exec_withTarget_readScalar] at hchar
  split at hchar <;> cases hchar
  have hsize : (s.touched (Scalar.size T)).advanced (Scalar.size T) = s' := by
    split at hrest <;> cases hrest
    rfl
  have := Scalar.size_pos (T := T)
  rw [← hsize]
  show s.curr.size - Scalar.size T < s.curr.size
  omega

theorem safe_readAsciiz :
    SafeCall (Inside M buffer) (readAsciiz o : Imp (Serdes × List T) Exception Unit) := by
  refine Triple.assignLast (E := Thrown (Inside M buffer)) (Triple.loop
    (I := fun _ => Inside M buffer) (decreases_readAsciizBody (o := o)) (fun value => ?_) [])
  refine Triple.bind (Triple.withTarget (safe_readScalar o) (Scalar.ofNat 0 : T)) fun char => ?_
  by_cases hchar : Scalar.toNat char = 0
  · rw [if_pos hchar]
    exact Triple.pure _ fun _ hs => hs
  · rw [if_neg hchar]
    exact Triple.pure _ fun _ hs => hs

end Strings

end Serdes

/-! ### Any sequence of calls -/

/-- A call on a reader, with the variable it is to write into as that is before the call. -/
inductive ReaderCall where
  | scalar (t : IntegerType) (target : t.Carrier)
  | asciiz (t : CharacterType) (target : List t.Carrier)
  | array (t : IntegerType) (target : List t.Carrier)
  | span (t : IntegerType) (target : List t.Carrier)
  | skip (numberOfBytes : ℕ)
  | seek (byteOffset : ℕ)
  | rewind

namespace ReaderCall

/-- The type of the target. -/
def Target : ReaderCall → Type
  | .scalar t _ => t.Carrier
  | .asciiz t _ => List t.Carrier
  | .array t _ => List t.Carrier
  | .span t _ => List t.Carrier
  | .skip _ => Unit
  | .seek _ => Unit
  | .rewind => Unit

/-- The target before the call. -/
def target : (call : ReaderCall) → call.Target
  | .scalar _ target => target
  | .asciiz _ target => target
  | .array _ target => target
  | .span _ target => target
  | .skip _ => ()
  | .seek _ => ()
  | .rewind => ()

/-- The member function that is called. -/
def run (o : ByteOrder) : (call : ReaderCall) → Imp (Serdes × call.Target) Exception Unit
  | .scalar t _ => Serdes.readScalar (T := t.Carrier) o
  | .asciiz t _ => Serdes.readAsciiz (T := t.Carrier) o
  | .array t _ => Serdes.readArray (T := t.Carrier) o
  | .span t _ => Serdes.readSpan (T := t.Carrier) o
  | .skip numberOfBytes => onObject (Serdes.skip numberOfBytes)
  | .seek byteOffset => onObject (Serdes.seek byteOffset)
  | .rewind => onObject Serdes.rewind

/-- The calls that a throw leaves without any effect. -/
def AllOrNothing : ReaderCall → Prop
  | .scalar .. | .skip _ | .seek _ => True
  | _ => False

/-- A read of a string. -/
def IsAsciiz : ReaderCall → Prop
  | .asciiz .. => True
  | _ => False

/-- The object after a call, returned or thrown. -/
def after (o : ByteOrder) (s : Serdes) (call : ReaderCall) : Serdes :=
  (exec (call.run o) (s, call.target)).2.1

/-- **Every call on a reader** keeps the invariant, and the memory. -/
theorem safe (M : List UInt8 → Prop) (buffer : Region) (o : ByteOrder) (call : ReaderCall) :
    Serdes.SafeCall (Serdes.Inside M buffer) (call.run o) := by
  cases call with
  | scalar t target => exact Serdes.safe_readScalar (T := t.Carrier) o
  | asciiz t target => exact Serdes.safe_readAsciiz (T := t.Carrier)
  | array t target | span t target =>
    exact (Serdes.safe_readScalar (T := t.Carrier) o).forEach
  | skip n => exact Triple.onObject (Serdes.safe_skip n)
  | seek n => exact Triple.onObject (Serdes.safe_seek n)
  | rewind => exact Triple.onObject (Serdes.safe_seek 0)

/-- **A scalar, `skip` or `seek` that throws** has changed nothing. -/
theorem unchanged_of_throw {o : ByteOrder} {call : ReaderCall} (hcall : call.AllOrNothing)
    {s s' : Serdes} {e : Exception} {target' : call.Target}
    (hrun : exec (call.run o) (s, call.target) = (.error e, (s', target'))) :
    s' = s ∧ target' = call.target := by
  cases call with
  | scalar t target =>
    have h := (Serdes.exec_readScalar (T := t.Carrier) (o := o) s target).symm.trans hrun
    split at h <;> cases h
    exact ⟨rfl, rfl⟩
  | skip n =>
    obtain ⟨hskip, htarget⟩ := exec_onObject_error hrun
    exact ⟨Serdes.unchanged_of_exec (fun s => Serdes.exec_skip s n) hskip, htarget⟩
  | seek n =>
    obtain ⟨hseek, htarget⟩ := exec_onObject_error hrun
    exact ⟨Serdes.unchanged_of_exec (fun s => Serdes.exec_seek s n) hseek, htarget⟩
  | asciiz | array | span | rewind => exact hcall.elim

/-- **A string read that throws** has not changed its target. -/
theorem target_of_throw {o : ByteOrder} {call : ReaderCall} (hcall : call.IsAsciiz)
    {s s' : Serdes} {e : Exception} {target' : call.Target}
    (hrun : exec (call.run o) (s, call.target) = (.error e, (s', target'))) :
    target' = call.target := by
  cases call with
  | asciiz t target => exact target_of_assignLast hrun
  | scalar | array | span | skip | seek | rewind => exact hcall.elim

end ReaderCall

/-- A call on a writer. -/
inductive WriterCall where
  | scalar (t : IntegerType) (value : t.Carrier)
  | asciiz (t : CharacterType) (value : List t.Carrier)
  | array (t : IntegerType) (values : List t.Carrier)
  | span (t : IntegerType) (values : List t.Carrier)
  | string (t : CharacterType) (values : List t.Carrier)
  | skip (numberOfBytes : ℕ)
  | seek (byteOffset : ℕ)
  | rewind

namespace WriterCall

/-- The member function that is called. -/
def run (o : ByteOrder) : WriterCall → Imp Serdes Exception Unit
  | .scalar _ value => Serdes.writeScalar o value
  | .asciiz _ value => Serdes.writeAsciiz o value
  | .array _ values => Serdes.writeArray o values
  | .span _ values => Serdes.writeSpan o values
  | .string _ values => Serdes.writeString o values
  | .skip numberOfBytes => Serdes.skip numberOfBytes
  | .seek byteOffset => Serdes.seek byteOffset
  | .rewind => Serdes.rewind

/-- The calls that a throw leaves without any effect. -/
def AllOrNothing : WriterCall → Prop
  | .scalar .. | .skip _ | .seek _ => True
  | _ => False

/-- The object after a call, returned or thrown. -/
def after (o : ByteOrder) (s : Serdes) (call : WriterCall) : Serdes := (exec (call.run o) s).2

/-- **Every call on a writer** keeps the invariant. -/
theorem safe {M : List UInt8 → Prop} {buffer : Region} (hM : Serdes.Writable M buffer)
    (o : ByteOrder) (call : WriterCall) : Serdes.Safe (Serdes.Inside M buffer) (call.run o) := by
  cases call with
  | scalar t value => exact Serdes.safe_writeScalar hM o value
  | asciiz t value => exact Serdes.safe_writeAsciiz hM o value
  | array t values | span t values | string t values =>
    exact Serdes.safe_forM (Serdes.safe_writeScalar hM o) values
  | skip n => exact Serdes.safe_skip n
  | seek n => exact Serdes.safe_seek n
  | rewind => exact Serdes.safe_seek 0

/-- **A scalar, `skip` or `seek` that throws** has changed nothing. -/
theorem unchanged_of_throw {o : ByteOrder} {call : WriterCall} (hcall : call.AllOrNothing)
    {s s' : Serdes} {e : Exception} (hrun : exec (call.run o) s = (.error e, s')) : s' = s := by
  cases call with
  | scalar t value => exact Serdes.unchanged_of_exec (fun s => Serdes.exec_writeScalar s value) hrun
  | skip n => exact Serdes.unchanged_of_exec (fun s => Serdes.exec_skip s n) hrun
  | seek n => exact Serdes.unchanged_of_exec (fun s => Serdes.exec_seek s n) hrun
  | asciiz | array | span | string | rewind => exact hcall.elim

end WriterCall

/-! ### Sequences of calls -/

namespace Serdes

/-- What holds of an object that was made for `buffer`. -/
structure Bounded (buffer : Region) (s : Serdes) : Prop where
  data_eq : s.data = buffer
  /-- The unread region is an end of the buffer. -/
  curr_eq : s.curr = ⟨buffer.data + s.consumedBytes, buffer.size - s.consumedBytes⟩
  unread_suffix : s.curr.bytes s.memory <:+ buffer.bytes s.memory
  consumed_add_remaining : s.consumedBytes + s.remainingBytes = buffer.size
  /-- Every byte that was read or written is in the buffer. -/
  accessed : ∀ a ∈ s.accessed, a ∈ buffer

variable {M : List UInt8 → Prop} {buffer : Region}

theorem Inside.bounded {s : Serdes} (h : Inside M buffer s) : s.Bounded buffer := by
  have hlow := h.le_curr
  have hend := h.curr_end
  have hconsumed : s.consumedBytes = buffer.size - s.curr.size := by rw [consumedBytes, h.data_eq]
  have hcurr : s.curr = ⟨buffer.data + s.consumedBytes, buffer.size - s.consumedBytes⟩ := by
    rw [hconsumed]
    show Region.mk s.curr.data s.curr.size = _
    exact congrArg₂ Region.mk (by omega) (by omega)
  refine ⟨h.data_eq, hcurr, ?_, ?_, h.accessed⟩
  · rw [hcurr, Region.bytes_end]
    exact List.drop_suffix ..
  · show s.consumedBytes + s.curr.size = buffer.size
    omega

/-- Around `bytes`, the memory is `before` and `behind`. -/
def Around (before behind : List UInt8) (size : ℕ) (memory : List UInt8) : Prop :=
  ∃ bytes : List UInt8, bytes.length = size ∧ memory = before ++ bytes ++ behind

theorem writable_around (before behind : List UInt8) (size : ℕ) :
    Writable (Around before behind size) ⟨before.length, size⟩ := by
  rintro memory address new ⟨bytes, hsize, rfl⟩ hlow hhigh
  obtain ⟨k, rfl⟩ := Nat.exists_eq_add_of_le hlow
  have hk : k + new.length ≤ bytes.length := by
    rw [hsize]
    show k + new.length ≤ size
    have : before.length + k + new.length ≤ before.length + size := hhigh
    omega
  refine ⟨bytes.take k ++ new ++ bytes.drop (k + new.length), ?_, ?_⟩
  · simp only [List.length_append, List.length_take, List.length_drop]
    omega
  · have htake : (before ++ bytes ++ behind).take (before.length + k) = before ++ bytes.take k := by
      rw [List.append_assoc, List.take_length_add_append, List.take_append_of_le_length (by omega)]
    have hdrop : (before ++ bytes ++ behind).drop (before.length + k + new.length) =
        bytes.drop (k + new.length) ++ behind := by
      rw [List.append_assoc, Nat.add_assoc, List.drop_length_add_append,
        List.drop_append_of_le_length hk]
    show List.take (before.length + k) _ ++ new ++ List.drop (before.length + k + new.length) _ = _
    rw [htake, hdrop]
    simp only [List.append_assoc]

end Serdes

/-- The object after some calls, each of which may have thrown. -/
def ReaderCall.afterAll (o : ByteOrder) (s : Serdes) (calls : List ReaderCall) : Serdes :=
  calls.foldl (ReaderCall.after o) s

/-- The object after some calls, each of which may have thrown. -/
def WriterCall.afterAll (o : ByteOrder) (s : Serdes) (calls : List WriterCall) : Serdes :=
  calls.foldl (WriterCall.after o) s

variable {M : List UInt8 → Prop} {buffer : Region}

/-- A safe computation leaves an object that satisfies the invariant. -/
theorem Serdes.Safe.after {α : Type} {I : Serdes → Prop} {x : Imp Serdes Exception α}
    (h : Safe I x) {s : Serdes} (hs : I s) : I (exec x s).2 := by
  rcases hrun : exec x s with ⟨e | a, s'⟩
  · exact (h.error hs hrun).1
  · exact h.ok hs hrun

theorem Serdes.SafeCall.after {τ : Type} {I : Serdes → Prop}
    {x : Imp (Serdes × τ) Exception Unit} (h : SafeCall I x) {s : Serdes} (hs : I s) (target : τ) :
    I (exec x (s, target)).2.1 := by
  rcases hrun : exec x (s, target) with ⟨e | a, s', target'⟩
  · exact (h.error (s := (s, target)) hs hrun).1
  · exact h.ok (s := (s, target)) hs hrun

/-- **A reader after any calls.** -/
theorem ReaderCall.inside_afterAll (o : ByteOrder) (calls : List ReaderCall) {s : Serdes}
    (h : s.Inside M buffer) : (afterAll o s calls).Inside M buffer := by
  induction calls generalizing s with
  | nil => exact h
  | cons call calls ih => exact ih ((call.safe M buffer o).after h call.target)

/-- **A writer after any calls.** -/
theorem WriterCall.inside_afterAll (hM : Serdes.Writable M buffer) (o : ByteOrder)
    (calls : List WriterCall) {s : Serdes} (h : s.Inside M buffer) :
    (afterAll o s calls).Inside M buffer := by
  induction calls generalizing s with
  | nil => exact h
  | cons call calls ih => exact ih ((call.safe hM o).after h)

/-- An object that was just made. -/
theorem Serdes.inside_ofBits {memory : List UInt8} (h : M memory) (buffer : Region) :
    (Serdes.ofBits memory buffer).Inside M buffer where
  data_eq := rfl
  le_curr := le_rfl
  curr_end := rfl
  accessed := nofun
  memory := h

/-- An object that was just made for `buffer`, with the memory in front of it and behind it. -/
def Serdes.within (before buffer behind : List UInt8) : Serdes :=
  .ofBits (before ++ buffer ++ behind) ⟨before.length, buffer.length⟩

/-- What is known of a reader: where its cursor is, that it changed no memory, and what its next
call leaves if that throws. -/
structure ReaderSound (o : ByteOrder) (before buffer behind : List UInt8) (s : Serdes) :
    Prop where
  bounded : s.Bounded ⟨before.length, buffer.length⟩
  memory : s.memory = before ++ buffer ++ behind
  defined : ∀ (call : ReaderCall) p what,
    exec (call.run o) (s, call.target) ≠ (.error (.undefinedBehaviour what), p)
  unchanged : ∀ call : ReaderCall, call.AllOrNothing → ∀ e s' target',
    exec (call.run o) (s, call.target) = (.error e, (s', target')) →
      s' = s ∧ target' = call.target
  target : ∀ call : ReaderCall, call.IsAsciiz → ∀ e s' target',
    exec (call.run o) (s, call.target) = (.error e, (s', target')) → target' = call.target

/-- What is known of a writer: where its cursor is, that it changed no memory around the buffer,
and what its next call leaves if that throws. -/
structure WriterSound (o : ByteOrder) (before buffer behind : List UInt8) (s : Serdes) :
    Prop where
  bounded : s.Bounded ⟨before.length, buffer.length⟩
  memory : Serdes.Around before behind buffer.length s.memory
  defined : ∀ (call : WriterCall) s' what,
    exec (call.run o) s ≠ (.error (.undefinedBehaviour what), s')
  unchanged : ∀ call : WriterCall, call.AllOrNothing → ∀ e s',
    exec (call.run o) s = (.error e, s') → s' = s

theorem readerSound (o : ByteOrder) (before buffer behind : List UInt8)
    (calls : List ReaderCall) :
    ReaderSound o before buffer behind
      (ReaderCall.afterAll o (.within before buffer behind) calls) := by
  have hmade : (Serdes.within before buffer behind).Inside
      (fun memory => memory = before ++ buffer ++ behind) ⟨before.length, buffer.length⟩ :=
    Serdes.inside_ofBits (M := fun memory => memory = before ++ buffer ++ behind) rfl _
  have hs := ReaderCall.inside_afterAll o calls hmade
  refine ⟨hs.bounded, hs.memory, fun call p what hrun => ?_,
    fun call hcall _ _ _ hrun => ReaderCall.unchanged_of_throw hcall hrun,
    fun call hcall _ _ _ hrun => ReaderCall.target_of_throw hcall hrun⟩
  exact ((call.safe _ _ o).error (s := (_, call.target)) hs hrun).2 what rfl

theorem writerSound (o : ByteOrder) (before buffer behind : List UInt8)
    (calls : List WriterCall) :
    WriterSound o before buffer behind
      (WriterCall.afterAll o (.within before buffer behind) calls) := by
  have hM := Serdes.writable_around before behind buffer.length
  have hs := WriterCall.inside_afterAll hM o calls
    (Serdes.inside_ofBits ⟨buffer, rfl, rfl⟩ ⟨before.length, buffer.length⟩)
  refine ⟨hs.bounded, hs.memory, fun call s' what hrun => ?_,
    fun call hcall _ _ hrun => WriterCall.unchanged_of_throw hcall hrun⟩
  exact ((call.safe hM o).error hs hrun).2 what rfl

/-- **The cursor invariant.** A reader or a writer for a buffer anywhere in memory, after any calls
with any outcomes: the unread region is an end of the buffer, the consumed and the remaining bytes
make up its size, and no byte outside of it was accessed. -/
theorem cursor_invariant (o : ByteOrder) (before buffer behind : List UInt8) :
    (∀ calls : List ReaderCall,
        ReaderSound o before buffer behind
          (ReaderCall.afterAll o (.within before buffer behind) calls)) ∧
      ∀ calls : List WriterCall,
        WriterSound o before buffer behind
          (WriterCall.afterAll o (.within before buffer behind) calls) :=
  ⟨readerSound o before buffer behind, writerSound o before buffer behind⟩

end Bootpd
