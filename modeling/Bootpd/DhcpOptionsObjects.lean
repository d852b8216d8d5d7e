import Bootpd.DhcpOptionsV4

/-!
# The copy and move members of `dhcp_options_v4`

Copy assignment destroys its object and builds a new one in its place, from an argument that may be
the same object. Move assignment moves its argument out and swaps with `std::swap`, which is one
move construction and two move assignments: the operator calls itself. So the objects are kept by
their addresses here, and the calls of move assignment have a depth.

## Memory

`Memory` has a table at every address, and a mark from which on addresses are free for local
variables. A member changes the table at its own address, and a move also the one that it moves
from. A table that has been destroyed has no options.

A call that would have to nest deeper than it is allowed is `none`, and so is every call that makes
it. Move assignment is `none` at every depth, which is how one says that it does not return.

## Main definitions

* `Memory.copyConstruct`, `Memory.copyAssign`, `Memory.moveConstruct`, `Memory.moveAssign`
* `HasValueSemantics` — the object has the options its argument had, and a copied argument still has
  them

## Main results

* `Memory.values_copyConstruct` — a copy has the options of its argument, as it finds them
* `Memory.moveAssign_eq_none` — move assignment returns at no depth
* `Memory.hasValueSemantics_iff` — which of the members have value semantics
-/

namespace Bootpd

/-- The option tables of the program by their addresses. Those from `top` on are free for local
variables. -/
structure Memory where
  objects : ℕ → DhcpOptionsV4
  top : ℕ

namespace Memory

/-- The object at `a` becomes `object`. -/
def write (m : Memory) (a : ℕ) (object : DhcpOptionsV4) : Memory :=
  { m with objects := Function.update m.objects a object }

@[simp] theorem objects_write (m : Memory) (a : ℕ) (object : DhcpOptionsV4) :
    (m.write a object).objects a = object := Function.update_self ..

theorem objects_write_of_ne (m : Memory) {a b : ℕ} (h : b ≠ a) (object : DhcpOptionsV4) :
    (m.write a object).objects b = m.objects b := Function.update_of_ne h ..

/-- Every buffer of the object at `a` is given up. -/
def clear (m : Memory) (a : ℕ) : Memory :=
  m.write a { m.objects a with values := fun _ => none }

/-! ### The members -/

/-- `~dhcp_options_v4()`. -/
def destroy (m : Memory) (a : ℕ) : Memory := m.clear a

/-- One pass of the loop of `dhcp_options_v4(dhcp_options_v4 const& p)`. -/
def copyEntry (a p : ℕ) (m : Memory) (i : Fin 254) : Memory :=
  match (m.objects p).values i with
  | none => m
  | some data => m.write a ((m.objects a).put i data)

/-- `dhcp_options_v4(dhcp_options_v4 const& p)`, at `a`. -/
def copyConstruct (m : Memory) (a p : ℕ) : Memory :=
  (List.finRange 254).foldl (copyEntry a p) (m.write a .empty)

/-- `operator = (dhcp_options_v4 const& p)`. -/
def copyAssign (m : Memory) (a p : ℕ) : Memory := (m.destroy a).copyConstruct a p

/-- `dhcp_options_v4(dhcp_options_v4&& prev)`, at `a`. The cookie stays what it was. -/
def moveConstruct (m : Memory) (a prev : ℕ) : Memory :=
  let values := (m.objects prev).values
  let m := m.clear prev
  m.write a { m.objects a with values }

/-- A local variable, moved from `prev`. -/
def moveLocal (m : Memory) (prev : ℕ) : Memory :=
  moveConstruct { m with top := m.top + 1 } m.top prev

/-- The end of the scope of the last local variable. -/
def endScope (m : Memory) : Memory := { m.destroy (m.top - 1) with top := m.top - 1 }

/-- `std::swap` for a type with the move assignment `assign`. -/
def stdSwap (assign : Memory → ℕ → ℕ → Option Memory) (m : Memory) (a b : ℕ) : Option Memory := do
  let tmp := m.top
  let m := m.moveLocal a
  let m ← assign m a b
  let m ← assign m b tmp
  return m.endScope

/-- `operator = (dhcp_options_v4&& prev)`, where calls may be nested `depth` deep. -/
def moveAssign : ℕ → Memory → ℕ → ℕ → Option Memory
  | 0, _, _, _ => none
  | depth + 1, m, a, prev => do
    let tmp := m.top
    let m := m.moveLocal prev
    let m ← stdSwap (moveAssign depth) m tmp a
    return m.endScope

/-- The four members. -/
inductive Member where
  | copyConstructor
  | copyAssignment
  | moveConstructor
  | moveAssignment
deriving DecidableEq, Repr

/-- A member, called at `a` with the object at `b`. -/
def call (depth : ℕ) : Member → Memory → ℕ → ℕ → Option Memory
  | .copyConstructor, m, a, b => some (m.copyConstruct a b)
  | .copyAssignment, m, a, b => some (m.copyAssign a b)
  | .moveConstructor, m, a, b => some (m.moveConstruct a b)
  | .moveAssignment, m, a, b => moveAssign depth m a b

/-! ### Copying -/

variable {m : Memory} {a b : ℕ}

/-- Another object is not changed by the loop. -/
theorem objects_foldl_copyEntry_of_ne {c : ℕ} (h : c ≠ a) (slots : List (Fin 254)) (m : Memory) :
    (slots.foldl (copyEntry a b) m).objects c = m.objects c := by
  induction slots generalizing m with
  | nil => rfl
  | cons i slots ih =>
    rw [List.foldl_cons, ih, copyEntry]
    cases (m.objects b).values i with
    | none => rfl
    | some data => exact m.objects_write_of_ne h _

/-- **The loop, from another object**: the entries of the list are copied. -/
theorem values_foldl_copyEntry (h : b ≠ a) (slots : List (Fin 254)) (m : Memory) (j : Fin 254) :
    ((slots.foldl (copyEntry a b) m).objects a).values j =
      if j ∈ slots then ((m.objects b).values j).or ((m.objects a).values j)
      else (m.objects a).values j := by
  induction slots generalizing m with
  | nil => simp
  | cons i slots ih =>
    have hb : (copyEntry a b m i).objects b = m.objects b :=
      objects_foldl_copyEntry_of_ne h [i] m
    rw [List.foldl_cons, ih, hb, copyEntry]
    cases hdata : (m.objects b).values i with
    | none =>
      by_cases hj : j = i
      · subst hj
        simp [hdata]
      · simp [hj]
    | some data =>
      dsimp only
      rw [objects_write]
      by_cases hj : j = i
      · subst hj
        simp [hdata]
      · simp [hj, DhcpOptionsV4.values_put_of_ne]

/-- **The loop, from the object itself**: every entry is put where it is. -/
theorem values_foldl_copyEntry_self (slots : List (Fin 254)) (m : Memory) :
    ((slots.foldl (copyEntry a a) m).objects a).values = (m.objects a).values := by
  induction slots generalizing m with
  | nil => rfl
  | cons i slots ih =>
    rw [List.foldl_cons, ih, copyEntry]
    cases hdata : (m.objects a).values i with
    | none => rfl
    | some data =>
      dsimp only
      rw [objects_write, DhcpOptionsV4.put, ← hdata]
      exact Function.update_eq_self ..

/-- **A copy** has the options its argument has when the loop starts. -/
theorem values_copyConstruct (m : Memory) (a b : ℕ) :
    ((m.copyConstruct a b).objects a).values =
      if a = b then fun _ => none else (m.objects b).values := by
  rw [copyConstruct]
  split_ifs with h
  · subst h
    rw [values_foldl_copyEntry_self, objects_write]
    rfl
  · funext j
    have hb : b ≠ a := fun hba => h hba.symm
    rw [values_foldl_copyEntry hb, if_pos (List.mem_finRange j), objects_write,
      objects_write_of_ne _ hb]
    simp [DhcpOptionsV4.empty]

theorem objects_copyConstruct_of_ne {c : ℕ} (h : c ≠ a) (m : Memory) (b : ℕ) :
    (m.copyConstruct a b).objects c = m.objects c := by
  rw [copyConstruct, objects_foldl_copyEntry_of_ne h, objects_write_of_ne _ h]

/-- **Copy assignment** copies from another object, and empties its own. -/
theorem values_copyAssign (m : Memory) (a b : ℕ) :
    ((m.copyAssign a b).objects a).values =
      if a = b then fun _ => none else (m.objects b).values := by
  rw [copyAssign, values_copyConstruct]
  split_ifs with h
  · rfl
  · rw [destroy, clear, objects_write_of_ne _ fun hba => h hba.symm]

theorem objects_copyAssign_of_ne {c : ℕ} (h : c ≠ a) (m : Memory) (b : ℕ) :
    (m.copyAssign a b).objects c = m.objects c := by
  rw [copyAssign, objects_copyConstruct_of_ne h, destroy, clear, objects_write_of_ne _ h]

/-! ### Moving -/

theorem values_moveConstruct (m : Memory) (a b : ℕ) :
    ((m.moveConstruct a b).objects a).values = (m.objects b).values := by
  rw [moveConstruct, objects_write]

/-- **Move assignment does not return**: `std::swap` starts with another one. -/
theorem moveAssign_eq_none (depth : ℕ) (m : Memory) (a b : ℕ) : moveAssign depth m a b = none := by
  induction depth generalizing m a b with
  | zero => rfl
  | succ depth ih =>
    have hswap : stdSwap (moveAssign depth) (m.moveLocal b) m.top a = none := by
      rw [stdSwap, ih]
      rfl
    rw [moveAssign, hswap]
    rfl

/-! ### Value semantics -/

/-- Whether a member is to leave its argument as it is. -/
def Member.Copies : Member → Prop
  | .copyConstructor | .copyAssignment => True
  | .moveConstructor | .moveAssignment => False

/-- Whether a member makes a new object. -/
def Member.Constructs : Member → Prop
  | .copyConstructor | .moveConstructor => True
  | .copyAssignment | .moveAssignment => False

/-- The call returns, its object has the options the argument had before, and a copied argument
still has them. -/
def HasValueSemantics (member : Member) (m : Memory) (a b : ℕ) : Prop :=
  ∃ depth m', call depth member m a b = some m' ∧
    (m'.objects a).values = (m.objects b).values ∧
    (member.Copies → (m'.objects b).values = (m.objects b).values)

/-- A member that copies and returns whatever the depth. -/
theorem hasValueSemantics_of_call {member : Member} {m' : Memory}
    (hcall : ∀ depth, call depth member m a b = some m') :
    HasValueSemantics member m a b ↔ (m'.objects a).values = (m.objects b).values ∧
      (member.Copies → (m'.objects b).values = (m.objects b).values) := by
  constructor
  · rintro ⟨depth, m'', hm'', h⟩
    obtain rfl := Option.some.inj ((hcall depth).symm.trans hm'')
    exact h
  · exact fun h => ⟨0, m', hcall 0, h⟩

/-- **Which members have value semantics.** The constructors have, for a new object. Copy assignment
has unless it assigns an object that has options to itself. Move assignment never has. -/
theorem hasValueSemantics_iff (member : Member) (m : Memory) (a b : ℕ)
    (hnew : member.Constructs → a ≠ b) :
    HasValueSemantics member m a b ↔ member ≠ .moveAssignment ∧
      (member = .copyAssignment → a ≠ b ∨ (m.objects b).values = fun _ => none) := by
  cases member with
  | copyConstructor =>
    have hab : a ≠ b := hnew trivial
    rw [hasValueSemantics_of_call fun _ => rfl, values_copyConstruct, if_neg hab,
      objects_copyConstruct_of_ne hab.symm]
    simp
  | copyAssignment =>
    rw [hasValueSemantics_of_call fun _ => rfl, values_copyAssign]
    by_cases hab : a = b
    · subst hab
      rw [values_copyAssign, if_pos rfl]
      constructor
      · rintro ⟨hempty, -⟩
        exact ⟨by decide, fun _ => .inr hempty.symm⟩
      · rintro ⟨-, h⟩
        have hempty := (h rfl).resolve_left fun hne => hne rfl
        exact ⟨hempty.symm, fun _ => hempty.symm⟩
    · rw [if_neg hab, objects_copyAssign_of_ne fun hba => hab hba.symm]
      simp [hab]
  | moveConstructor =>
    rw [hasValueSemantics_of_call fun _ => rfl, values_moveConstruct]
    simp [Member.Copies]
  | moveAssignment =>
    constructor
    · rintro ⟨depth, m', hcall, -⟩
      rw [call, moveAssign_eq_none] at hcall
      cases hcall
    · rintro ⟨hne, -⟩
      exact absurd rfl hne

/-- Two tables, of which the first has the last option. -/
def sampleMemory : Memory where
  objects a := if a = 0 then DhcpOptionsV4.empty.put (Fin.last 253) ⟨[97], by decide⟩ else .empty
  top := 2

theorem hasValueSemantics_copyAssignment :
    HasValueSemantics .copyAssignment sampleMemory 1 0 :=
  (hasValueSemantics_iff .copyAssignment sampleMemory 1 0 (by rintro ⟨⟩)).mpr
    ⟨by decide, fun _ => .inl (by decide)⟩

/-- **Move assignment** of one table to another does not return, and **copy assignment** of a table
to itself loses its option. -/
theorem not_hasValueSemantics :
    ¬HasValueSemantics .moveAssignment sampleMemory 1 0 ∧
      ¬HasValueSemantics .copyAssignment sampleMemory 0 0 := by
  constructor
  · rintro ⟨depth, m', hcall, -⟩
    rw [call, moveAssign_eq_none] at hcall
    cases hcall
  · rw [hasValueSemantics_of_call fun _ => rfl, values_copyAssign, if_pos rfl]
    rintro ⟨h, -⟩
    have hentry := congrFun h (Fin.last 253)
    simp [sampleMemory] at hentry

end Memory

end Bootpd
