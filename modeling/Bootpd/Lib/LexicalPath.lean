import Mathlib.Data.List.Infix
import Mathlib.Data.List.DropRight

/-!
# Lexical normal forms of paths

A path is a list of steps: stay, go to the parent, or enter a named component. Normalising it
lexically cancels each parent step against the name before it, without looking at a file system.
What is left is `ups` parent steps followed by names, and that pair is the normal form.

A path whose start is a root has nothing above its start, so a parent step there does nothing.

## Walking

The normal form is where a walk ends that starts at nothing and takes the steps one by one. So the
normal form of a joined path is the walk of its second part from the end of the first, and it only
depends on the normal form of the second, by `walk_eq_follow`. That makes it possible to say when a
walk from a directory ends inside it: the names that it enters after climbing have to begin with
those that it has climbed out of. Where there is nothing to climb out of, outside a rooted path, it
leaves.

## Main definitions

* `Component`, `Place` — a step, and a normal form
* `walk`, `normal` — the steps from a place, and from the origin
* `Place.Contains` — a place is inside another one

## Main results

* `walk_append` — a joined path walks its first part, then its second
* `walk_eq_follow` — a walk only depends on the normal form of the steps taken
* `contains_walk_iff` — when a walk that starts in a directory ends inside it
-/

namespace LexicalPath

variable {κ : Type}

/-- One component of a path. -/
inductive Component (κ : Type) where
  | here
  | parent
  | name (n : κ)

/-- A place, seen from where the path starts: up `ups` times, then down along `names`. -/
structure Place (κ : Type) where
  ups : ℕ
  names : List κ
deriving DecidableEq

/-- Where a path starts. -/
def origin : Place κ := ⟨0, []⟩

/-- The parent of a place. At the start of a rooted path there is none. -/
def Place.parent (rooted : Bool) (p : Place κ) : Place κ :=
  if p.names = [] then ⟨if rooted then p.ups else p.ups + 1, []⟩ else ⟨p.ups, p.names.dropLast⟩

def Place.enter (p : Place κ) (n : κ) : Place κ := ⟨p.ups, p.names ++ [n]⟩

/-- One step of the normalisation. -/
def Place.step (rooted : Bool) (p : Place κ) : Component κ → Place κ
  | .here => p
  | .parent => p.parent rooted
  | .name n => p.enter n

/-- Follow some components from a place. -/
def walk (rooted : Bool) (p : Place κ) (cs : List (Component κ)) : Place κ :=
  cs.foldl (Place.step rooted) p

/-- The normal form of a path. -/
def normal (rooted : Bool) (cs : List (Component κ)) : Place κ := walk rooted origin cs

/-- `p` is `d` itself or lies below it. -/
def Place.Contains (d p : Place κ) : Prop := p.ups = d.ups ∧ d.names <+: p.names

instance [DecidableEq κ] (d p : Place κ) : Decidable (d.Contains p) :=
  inferInstanceAs (Decidable (_ ∧ _))

theorem walk_append (rooted : Bool) (p : Place κ) (cs ds : List (Component κ)) :
    walk rooted p (cs ++ ds) = walk rooted (walk rooted p cs) ds :=
  List.foldl_append

/-- Parts that mean to stay can be left out. -/
theorem walk_map_filter {ι : Type} (rooted : Bool) {f : ι → Component κ} {keep : ι → Bool}
    (hkeep : ∀ i, keep i = false → f i = .here) (p : Place κ) (l : List ι) :
    walk rooted p ((l.filter keep).map f) = walk rooted p (l.map f) := by
  induction l generalizing p with
  | nil => rfl
  | cons i l ih =>
    cases hi : keep i
    · rw [List.filter_cons_of_neg (by simp [hi]), ih, List.map_cons, hkeep i hi]
      rfl
    · rw [List.filter_cons_of_pos hi]
      exact ih _

/-- Nothing lies above a root. -/
theorem ups_walk_rooted (p : Place κ) (cs : List (Component κ)) :
    (walk true p cs).ups = p.ups := by
  induction cs generalizing p with
  | nil => rfl
  | cons c cs ih =>
    have hstep : (p.step true c).ups = p.ups := by
      cases c with
      | here => rfl
      | parent =>
        simp only [Place.step, Place.parent]
        split <;> simp
      | name n => rfl
    exact (ih _).trans hstep

/-! ### Climbing and descending -/

/-- The place reached from `p` by the normal form `q`: up, then down. -/
def Place.follow (rooted : Bool) (p q : Place κ) : Place κ :=
  ⟨if rooted then p.ups else p.ups + (q.ups - p.names.length),
    p.names.take (p.names.length - q.ups) ++ q.names⟩

theorem Place.follow_origin (rooted : Bool) (p : Place κ) : p.follow rooted origin = p := by
  cases rooted <;> simp [Place.follow, origin]

theorem Place.follow_enter (rooted : Bool) (p q : Place κ) (n : κ) :
    p.follow rooted (q.enter n) = (p.follow rooted q).enter n := by
  simp [Place.follow, Place.enter]

theorem Place.follow_parent (rooted : Bool) (p q : Place κ) :
    p.follow rooted (q.parent false) = (p.follow rooted q).parent rooted := by
  by_cases hq : q.names = []
  · rcases Nat.lt_or_ge q.ups p.names.length with hlt | hge
    · -- the last of the names still standing goes
      have hne : p.names.take (p.names.length - q.ups) ≠ [] := by
        rw [Ne, List.take_eq_nil_iff]
        rintro (h | h)
        · omega
        · simp [h] at hlt
      have hdrop : (p.names.take (p.names.length - q.ups)).dropLast =
          p.names.take (p.names.length - (q.ups + 1)) := by
        rw [List.dropLast_eq_take, List.take_take, List.length_take]
        congr 1
        omega
      have h0 : q.ups - p.names.length = 0 := by omega
      have h1 : q.ups + 1 - p.names.length = 0 := by omega
      simp [Place.follow, Place.parent, hq, hne, hdrop, h0, h1]
    · -- no name is left: the climb goes on above the start
      have h0 : p.names.length - q.ups = 0 := by omega
      have h1 : p.names.length - (q.ups + 1) = 0 := by omega
      have h2 : q.ups + 1 - p.names.length = q.ups - p.names.length + 1 := by omega
      cases rooted <;> simp [Place.follow, Place.parent, hq, h0, h1, h2, Nat.add_assoc]
  · simp [Place.follow, Place.parent, hq, List.dropLast_append_of_ne_nil]

/-- **A walk depends on its steps only through their normal form.** -/
theorem walk_eq_follow (rooted : Bool) (p : Place κ) (cs : List (Component κ)) :
    walk rooted p cs = p.follow rooted (normal false cs) := by
  induction cs using List.reverseRecOn with
  | nil => exact (p.follow_origin rooted).symm
  | append_singleton cs c ih =>
    rw [normal, walk_append, walk_append, ← normal, ih]
    cases c with
    | here => rfl
    | parent => exact (p.follow_parent rooted _).symm
    | name n => exact (p.follow_enter rooted _ n).symm

/-- **Staying inside.** A walk from a directory `d` ends inside it exactly when the names it enters
after climbing begin with the names it climbed out of; outside a rooted path, it may not climb
further than `d` has names. -/
theorem contains_walk_iff (rooted : Bool) (d : Place κ) (cs : List (Component κ)) :
    d.Contains (walk rooted d cs) ↔
      (rooted = false → (normal false cs).ups ≤ d.names.length) ∧
        d.names.drop (d.names.length - (normal false cs).ups) <+: (normal false cs).names := by
  have hnames : ∀ m (names : List κ), d.names <+: d.names.take m ++ names ↔
      d.names.drop m <+: names := by
    intro m names
    nth_rewrite 1 [← List.take_append_drop m d.names]
    exact List.prefix_append_right_inj _
  rw [walk_eq_follow, Place.Contains, Place.follow]
  refine and_congr ?_ (hnames _ _)
  cases rooted
  · simp only [Bool.false_eq_true, if_false, forall_const]
    omega
  · simp

end LexicalPath
