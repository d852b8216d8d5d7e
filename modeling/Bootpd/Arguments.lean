import Bootpd.ConfigIni
import Bootpd.Lib.Grouping
import Mathlib.Data.Finset.Insert

/-!
# `arguments`: the command line

An argument that begins with a dash and is longer than that is an option, and what stands behind
an option are its values. The constructor puts options into a set and values into a map, and only
a value makes an entry of the map. So an option without a value is in the set, and `values` throws
for it; `main` asks for the values of `-O` whenever it is in the set.

## Values

What stands in front of the first option are values of the empty key, the name of the program among
them. A single dash is a value. An option that occurs more than once collects the values of all its
occurrences in order, which is what `Lib.Grouping` has in general. `value` gives the first.

## Scope

The operating system's own splitting of the command line is not here: `main` gets its arguments. The
override is the one of `main`, up to the store; what it means for a configuration is in `Main`.

## Main definitions

* `Arguments.consume`, `Arguments.ofArgs` — one pass of the constructor's loop, and all of it
* `Arguments.has`, `Arguments.values`, `Arguments.value`, `Arguments.valueOr` — the questions
* `Arguments.overrideConfig` — the lines behind `-O`
* `Arguments.Grouped` — the set and the map agree on an option

## Main results

* `Arguments.has_ofArgs`, `Arguments.lookup_ofArgs` — the set and the map
* `Arguments.grouped_iff` — when they agree
-/

namespace Bootpd

open Imperative Grouping

/-- `arguments`. The members keep their `m_`, as `values` is a function. -/
structure Arguments where
  mArgs : List StdString
  mFlags : Finset StdString
  mValues : UnorderedMap StdString (List StdString)

/-- The condition in the constructor. -/
def isOption (arg : StdString) : Bool := arg.length > 1 && arg.head? == some 45

namespace Arguments

/-- One pass of the loop in the constructor, with `last_key`. -/
def consume : StdString × Arguments → StdString → StdString × Arguments
  | (lastKey, this), arg =>
    if isOption arg then (arg, { this with mFlags := insert arg this.mFlags })
    else (lastKey, { this with
      mValues := this.mValues.insert lastKey ((this.mValues.lookup lastKey).getD [] ++ [arg]) })

/-- The constructor. -/
def ofArgs (args : List StdString) : Arguments := (args.foldl consume ([], ⟨args, ∅, ∅⟩)).2

variable (this : Arguments) (key : StdString)

/-- `has`. -/
def has : Bool := key ∈ this.mFlags

/-- `values`: `at` throws where there is no entry. -/
def values : Except Exception (List StdString) :=
  match this.mValues.lookup key with
  | none => .error (.outOfRange (lit "unordered_map::at"))
  | some values => .ok values

/-- `value`: the front of an entry. -/
def value : Except Exception (Option StdString) :=
  match this.mValues.lookup key with
  | none => .ok none
  | some [] => .error (.undefinedBehaviour (lit "vector::front"))
  | some (value :: _) => .ok (some value)

/-- `value_or`. -/
def valueOr (alternative : StdString) : Except Exception StdString :=
  (fun value => value.getD alternative) <$> this.value key

/-- The override in `main`: lines of configuration on the command line. -/
def overrideConfig : Imp ConfigIni Exception Unit := do
  if this.has (lit "-O") then
    let lines ← liftExcept (this.values (lit "-O"))
    lines.forM fun line => ConfigIni.insertLine line []

/-! ### The set and the map -/

variable {this : Arguments} {key lastKey arg : StdString} {args : List StdString}

theorem consume_option (harg : isOption arg = true) : consume (lastKey, this) arg =
    (arg, { this with mFlags := insert arg this.mFlags }) := if_pos harg

theorem consume_value (harg : isOption arg = false) : consume (lastKey, this) arg =
    (lastKey, { this with
      mValues := this.mValues.insert lastKey ((this.mValues.lookup lastKey).getD [] ++ [arg]) }) :=
  if_neg (by simp [harg])

/-- The set has the options. -/
theorem mem_flags_foldl : key ∈ (args.foldl consume (lastKey, this)).2.mFlags ↔
    key ∈ this.mFlags ∨ (isOption key = true ∧ key ∈ args) := by
  induction args generalizing lastKey this with
  | nil => simp
  | cons arg args ih =>
    rw [List.foldl_cons, List.mem_cons]
    cases harg : isOption arg with
    | true =>
      rw [consume_option harg, ih, Finset.mem_insert]
      by_cases hkey : key = arg
      · simp [hkey, harg]
      · simp [hkey]
    | false =>
      rw [consume_value harg, ih]
      by_cases hkey : key = arg
      · simp [hkey, harg]
      · simp [hkey]

/-- **`has`** tells the options that occur. -/
theorem has_ofArgs (hkey : isOption key = true) :
    (ofArgs args).has key = true ↔ key ∈ args := by
  rw [has, decide_eq_true_iff, ofArgs, mem_flags_foldl]
  simp [hkey]

/-- **The map** gets what the loop finds for a key, if it finds anything. -/
theorem lookup_foldl (hkey : isOption key = true) :
    (args.foldl consume (lastKey, this)).2.mValues.lookup key =
      if carried isOption lastKey key args = [] then this.mValues.lookup key
      else some ((this.mValues.lookup key).getD [] ++ carried isOption lastKey key args) := by
  induction args generalizing lastKey this with
  | nil => rw [carried_nil, if_pos rfl, List.foldl_nil]
  | cons arg args ih =>
    rw [List.foldl_cons]
    cases harg : isOption arg with
    | true => rw [consume_option harg, ih, carried_key harg]
    | false =>
      rw [consume_value harg, ih, carried_item hkey harg]
      by_cases hlast : lastKey = key
      · -- the entry is there now, whatever is still to come
        subst hlast
        rw [AList.lookup_insert, if_pos rfl, List.singleton_append, if_neg (List.cons_ne_nil _ _)]
        split_ifs with hnil
        · rw [hnil]
        · simp
      · rw [AList.lookup_insert_ne (Ne.symm hlast), if_neg hlast, List.nil_append]

theorem lookup_ofArgs (hkey : isOption key = true) : (ofArgs args).mValues.lookup key =
    if group isOption key args = [] then none else some (group isOption key args) := by
  have hne : ([] : StdString) ≠ key := by
    rintro rfl
    cases hkey
  have hcarried : carried isOption [] key args = group isOption key args := by
    rw [carried, if_neg hne, List.nil_append]
  rw [ofArgs, lookup_foldl hkey, hcarried]
  rfl

/-- `values` throws for an option that has none. -/
theorem values_ofArgs (hkey : isOption key = true) : (ofArgs args).values key =
    if group isOption key args = [] then .error (.outOfRange (lit "unordered_map::at"))
    else .ok (group isOption key args) := by
  rw [values, lookup_ofArgs hkey]
  split_ifs with h
  · rfl
  · rfl

/-! ### Options and their values -/

/-- The set and the map agree on an option: it is in the set if it occurs, and then `values`
returns what stands behind its occurrences. -/
structure Grouped (args : List StdString) (key : StdString) : Prop where
  has : (ofArgs args).has key = true ↔ key ∈ args
  values : (ofArgs args).has key = true →
    (ofArgs args).values key = .ok (group isOption key args)

/-- **When the command line is grouped.** For every argument vector and every option: if and only
if the option does not occur or one of its occurrences has a value right behind it. -/
theorem grouped_iff (args : List StdString) (hkey : isOption key = true) :
    Grouped args key ↔ key ∉ args ∨ ∃ arg, isOption arg = false ∧ [key, arg] <:+: args := by
  have hhas : (ofArgs args).has key = true ↔ key ∈ args := has_ofArgs hkey
  rw [← group_ne_nil_iff]
  constructor
  · intro h
    rw [or_iff_not_imp_left, not_not]
    intro hmem hnil
    have hvalues := h.values (hhas.mpr hmem)
    rw [values_ofArgs hkey, if_pos hnil] at hvalues
    cases hvalues
  · intro h
    refine ⟨hhas, fun hset => ?_⟩
    rw [values_ofArgs hkey, if_neg (h.resolve_left (not_not_intro (hhas.mp hset)))]

/-- An option that occurs twice, with another between. -/
theorem grouped_repeated :
    (ofArgs [lit "bootpd", lit "-O", lit "a=b", lit "-v", lit "-O", lit "c=d", lit "e=f"]).values
      (lit "-O") = .ok [lit "a=b", lit "c=d", lit "e=f"] := by
  have hkey : isOption (lit "-O") = true := by decide
  have h := (grouped_iff [lit "bootpd", lit "-O", lit "a=b", lit "-v", lit "-O", lit "c=d",
    lit "e=f"] hkey).mpr (.inr ⟨lit "a=b", by decide, by decide⟩)
  exact h.values (by decide)

/-- **An option without a value**: it is in the set, and `values` throws. -/
theorem not_grouped_noValue :
    (ofArgs [lit "bootpd", lit "-O"]).has (lit "-O") = true ∧
      (ofArgs [lit "bootpd", lit "-O"]).values (lit "-O") =
        .error (.outOfRange (lit "unordered_map::at")) ∧
      ¬Grouped [lit "bootpd", lit "-O"] (lit "-O") := by
  have hthrows : (ofArgs [lit "bootpd", lit "-O"]).values (lit "-O") =
      .error (.outOfRange (lit "unordered_map::at")) := by decide
  refine ⟨by decide, hthrows, fun h => ?_⟩
  have hvalues := h.values (by decide)
  rw [hthrows] at hvalues
  cases hvalues

/-! ### The override -/

/-- **The override** inserts the values of `-O` in their order, and fails if it has none. -/
theorem exec_overrideConfig (args : List StdString) (cfg : ConfigIni) :
    exec (ofArgs args).overrideConfig cfg =
      if lit "-O" ∉ args then (.ok (), cfg)
      else if group isOption (lit "-O") args = [] then
        (.error (.outOfRange (lit "unordered_map::at")), cfg)
      else exec ((group isOption (lit "-O") args).forM fun line => ConfigIni.insertLine line [])
        cfg := by
  have hkey : isOption (lit "-O") = true := by decide
  have hhas : (ofArgs args).has (lit "-O") = true ↔ lit "-O" ∈ args := has_ofArgs hkey
  rw [overrideConfig, values_ofArgs hkey]
  by_cases hmem : lit "-O" ∈ args
  · rw [if_neg (not_not_intro hmem), if_pos (hhas.mpr hmem)]
    split_ifs with hnil
    · rfl
    · rw [exec_bind_ok (exec_liftExcept ..)]
  · rw [if_pos hmem, if_neg fun h => hmem (hhas.mp h)]
    rfl

end Arguments

end Bootpd
