import Bootpd.Lib.Imperative
import Bootpd.Lib.Scanning
import Bootpd.Std

/-!
# `config_ini`: sections, keys and values

The store and the line parser of `common/config_ini.cpp`. The two regular expressions are matched
against a whole line, and neither leaves a choice: the name of a header runs to the only bracket
behind it, and the key of an assignment to the first `=`. So each match is a function here.

## A line

The comment is cut off at the first semicolon, wherever it stands, then the line is trimmed, then
matched as a header and as an assignment. The groups of an assignment are trimmed again, and quotes
around them are taken off; `front()` of an empty group is no behaviour of the program and not a
refusal. `parse_line` changes the section that is current, and returns it here.

`.` of the second expression is any character but a line terminator, and the trimming in front of
it takes line terminators for blanks. The two disagree about a carriage return.

## The store

The two `std::unordered_map`s are association lists that have each key once. Their order is that of
some iteration, and no result about a value depends on it. An assignment makes its section if there
is none; a header alone does not.

Views of the line are texts here. `ConfigIniViews` has the parser with its views, and that the two
agree.

## Main definitions

* `ConfigIni.parseLine`, `ConfigIni.parse`, `ConfigIni.insertLine` — the parser
* `ConfigIni.assign`, `ConfigIni.value`, `ConfigIni.sections` — the store

## Main results

* `ConfigIni.trim_of_wraps` — what is around the core of a line is ignored
* `ConfigIni.exec_parseLine_section`, `exec_parseLine_assignment` — one line
* `ConfigIni.value_assign`, `mem_sections_assign` — what an assignment changes
-/

namespace Bootpd

open Imperative Scanning

/-- `config_ini`, that is, its `m_data`. -/
abbrev ConfigIni := UnorderedMap StdString (UnorderedMap StdString StdString)

namespace ConfigIni

/-! ### Matching a line -/

/-- `trim` of `utility_trim.hpp`: its characters are those of `isspace`. -/
def trim (s : StdString) : StdString := Scanning.trim isspace s

def semicolon : UInt8 := 59
def equalsSign : UInt8 := 61
def leftBracket : UInt8 := 91
def rightBracket : UInt8 := 93
def quote : UInt8 := 34
def lineFeed : UInt8 := 10
def carriageReturn : UInt8 := 13

/-- `[^\[\]]`. -/
def notBracket (c : UInt8) : Bool := c != leftBracket && c != rightBracket

/-- `regex_match` with `^\[([^\[\]]*)\]$`: the group. -/
def matchSection : StdString → Option StdString
  | [] => none
  | c :: line =>
    if c = leftBracket ∧ line.dropWhile notBracket = [rightBracket] then
      some (line.takeWhile notBracket)
    else none

/-- `.`: no line terminator. -/
def notLineTerminator (c : UInt8) : Bool := c != lineFeed && c != carriageReturn

/-- `regex_match` with `^([^=]+)=(.*)$`: both groups. -/
def matchKvPair (line : StdString) : Option (StdString × StdString) :=
  let key := line.takeWhile (· != equalsSign)
  match line.dropWhile (· != equalsSign) with
  | [] => none
  | _ :: val => if key ≠ [] ∧ val.all notLineTerminator then some (key, val) else none

/-- The quotes around a key or a value are taken off. Both `front()` of an empty view and
`remove_suffix` from one are undefined. -/
def stripQuotes : StdString → Except Exception StdString
  | [] => .error (.undefinedBehaviour (lit "string_view::front"))
  | c :: s =>
    if c = quote ∧ (c :: s).getLast? = some quote then
      if s = [] then .error (.undefinedBehaviour (lit "string_view::remove_suffix"))
      else .ok s.dropLast
    else .ok (c :: s)

/-! ### The store -/

/-- `m_data[section][key] = val`. -/
def assign (cfg : ConfigIni) (sectionName key val : StdString) : ConfigIni :=
  cfg.insert sectionName (((cfg.lookup sectionName).getD ∅).insert key val)

/-- `value(index)`. -/
def value (cfg : ConfigIni) (keyname sectionName : StdString) : Option StdString :=
  (cfg.lookup sectionName).bind fun data => data.lookup keyname

/-- `sections()`. -/
def sections (cfg : ConfigIni) : List StdString := cfg.keys

/-- `keynames(section)`. -/
def keynames (cfg : ConfigIni) (sectionName : StdString) : List StdString :=
  (cfg.lookup sectionName).elim [] AList.keys

/-- `parse_line`, returning the section that is current afterwards. -/
def parseLine (line sectionName : StdString) (lineNo : ℕ) : Imp ConfigIni Exception StdString := do
  let line := trim (line.takeWhile (· != semicolon))
  if line.isEmpty then return sectionName
  match matchSection line with
  | some name => return name
  | none =>
    match matchKvPair line with
    | some (key, val) =>
      let key ← liftExcept (stripQuotes (trim key))
      let val ← liftExcept (stripQuotes (trim val))
      modify fun cfg => cfg.assign sectionName key val
      return sectionName
    | none =>
      if lineNo ≠ 0 then
        throw (.runtimeError (lit "Bad line nr " ++ toString lineNo ++ lit " : " ++ line))
      throw (.runtimeError (lit "Bad config directive : " ++ line))

/-- The loop of `parse`. Empty lines do not count. -/
def parseLines : List StdString → StdString → ℕ → Imp ConfigIni Exception Unit
  | [], _, _ => return
  | line :: lines, sectionName, lineNo => do
    if line.isEmpty then parseLines lines sectionName lineNo
    else
      let sectionName ← parseLine line sectionName (lineNo + 1)
      parseLines lines sectionName (lineNo + 1)

/-- `parse`, with the characters of the stream. -/
def parse (iss : StdString) : Imp ConfigIni Exception Unit :=
  parseLines (records lineFeed iss) [] 0

/-- `insert_line`. -/
def insertLine (line sectionName : StdString) : Imp ConfigIni Exception Unit := do
  let _ ← parseLine line sectionName 0

example : (exec (parse (lit "[a]\nk = \"v;w\" ; c\n")) ∅).2.value (lit "k") (lit "a") =
    some (lit "\"v") := by decide +kernel

/-! ### What an assignment changes -/

variable (cfg : ConfigIni) (s k s' k' v : StdString)

/-- **An assignment** gives its key of its section the value, and leaves all others. -/
theorem value_assign :
    (cfg.assign s' k' v).value k s = if s = s' ∧ k = k' then some v else cfg.value k s := by
  by_cases hs : s = s'
  · subst hs
    rw [value, assign, AList.lookup_insert, Option.bind_some]
    by_cases hk : k = k'
    · subst hk
      rw [AList.lookup_insert, if_pos ⟨rfl, rfl⟩]
    · rw [AList.lookup_insert_ne hk, if_neg fun h => hk h.2, value]
      cases cfg.lookup s <;> rfl
  · rw [value, assign, AList.lookup_insert_ne hs, if_neg fun h => hs h.1, value]

theorem mem_sections_assign :
    s ∈ (cfg.assign s' k' v).sections ↔ s = s' ∨ s ∈ cfg.sections := by
  rw [sections, sections, assign, ← AList.mem_keys, ← AList.mem_keys, AList.mem_insert]

/-! ### One line -/

variable {cfg s v} {before core rest : StdString}

/-- A core in blanks, with more blanks or a comment behind it. -/
structure Wraps (before core rest : StdString) : Prop where
  blankBefore : ∀ c ∈ before, isspace c = true
  noComment : semicolon ∉ core
  tight : Tight isspace core
  blankRest : ∀ c ∈ rest.takeWhile (· != semicolon), isspace c = true

theorem notMem_of_isspace (h : ∀ c ∈ before, isspace c = true) {c : UInt8}
    (hc : isspace c = false) : c ∉ before := by
  intro hmem
  rw [h c hmem] at hc
  cases hc

/-- **The core of a line** is what is left of it without its comment and the blanks around. -/
theorem trim_of_wraps (h : Wraps before core rest) :
    trim ((before ++ (core ++ rest)).takeWhile (· != semicolon)) = core := by
  rw [takeWhile_ne_append (notMem_of_isspace h.blankBefore (by decide)),
    takeWhile_ne_append h.noComment]
  exact trim_append h.blankBefore h.blankRest h.tight

/-- A line without a core. -/
theorem exec_parseLine_blank (h : Wraps before [] rest) (lineNo : ℕ) :
    exec (parseLine (before ++ rest) s lineNo) cfg = (.ok s, cfg) := by
  have htrim := trim_of_wraps h
  rw [List.nil_append] at htrim
  rw [parseLine, htrim]
  rfl

/-- A header. -/
theorem exec_parseLine_section {name : StdString} (hname : ∀ c ∈ name, notBracket c = true)
    (h : Wraps before (leftBracket :: (name ++ [rightBracket])) rest) (lineNo : ℕ) :
    exec (parseLine (before ++ (leftBracket :: (name ++ [rightBracket]) ++ rest)) s lineNo) cfg =
      (.ok name, cfg) := by
  have hdrop : (name ++ [rightBracket]).dropWhile notBracket = [rightBracket] :=
    dropWhile_append_of_head hname (by simp [notBracket])
  have htake : (name ++ [rightBracket]).takeWhile notBracket = name := by
    rw [List.takeWhile_append_of_pos hname, List.takeWhile_cons_of_neg (by simp [notBracket]),
      List.append_nil]
  have hmatch : matchSection (leftBracket :: (name ++ [rightBracket])) = some name := by
    rw [matchSection, if_pos ⟨rfl, hdrop⟩, htake]
  rw [parseLine, trim_of_wraps h]
  dsimp only
  rw [if_neg (by simp), hmatch]
  rfl

/-- What takes part in an assignment: a key that is none but itself to the parser. -/
structure IsKey (key : StdString) : Prop where
  ne_nil : key ≠ []
  plain : ∀ c ∈ key, c ≠ equalsSign ∧ c ≠ semicolon ∧ c ≠ carriageReturn ∧ c ≠ lineFeed
  head : ∀ c ∈ key.head?, c ≠ leftBracket ∧ c ≠ quote
  tight : Tight isspace key

/-- And a value. -/
structure IsValue (value : StdString) : Prop where
  ne_nil : value ≠ []
  plain : ∀ c ∈ value, c ≠ semicolon ∧ c ≠ carriageReturn ∧ c ≠ lineFeed
  head : ∀ c ∈ value.head?, c ≠ quote
  tight : Tight isspace value

/-- Text that does not start with a quote stays as it is. -/
theorem stripQuotes_eq_self (hne : s ≠ []) (hhead : ∀ c ∈ s.head?, c ≠ quote) :
    stripQuotes s = .ok s := by
  obtain ⟨c, s, rfl⟩ := List.exists_cons_of_ne_nil hne
  rw [stripQuotes, if_neg fun h => hhead c rfl h.1]

variable {key beforeEquals afterEquals : StdString}

/-- The key, the sign and the value, with blanks around the sign. -/
def assignmentText (key beforeEquals afterEquals value : StdString) : StdString :=
  key ++ (beforeEquals ++ equalsSign :: (afterEquals ++ value))

theorem matchSection_assignmentText (hkey : IsKey key) :
    matchSection (assignmentText key beforeEquals afterEquals v) = none := by
  obtain ⟨c, key, rfl⟩ := List.exists_cons_of_ne_nil hkey.ne_nil
  rw [assignmentText, List.cons_append, matchSection, if_neg fun h => (hkey.head c rfl).1 h.1]

theorem matchKvPair_assignmentText (hkey : IsKey key)
    (hbefore : ∀ c ∈ beforeEquals, isspace c = true) :
    matchKvPair (assignmentText key beforeEquals afterEquals v) =
      if (afterEquals ++ v).all notLineTerminator then
        some (key ++ beforeEquals, afterEquals ++ v) else none := by
  have hnot : equalsSign ∉ key ++ beforeEquals := by
    rw [List.mem_append, not_or]
    exact ⟨fun h => (hkey.plain _ h).1 rfl, notMem_of_isspace hbefore (by decide)⟩
  have hne : key ++ beforeEquals ≠ [] := fun h => hkey.ne_nil (List.append_eq_nil_iff.mp h).1
  rw [assignmentText, ← List.append_assoc, matchKvPair, dropWhile_ne_cons hnot,
    takeWhile_ne_cons hnot]
  simp only [ne_eq, hne, not_false_eq_true, true_and]

/-- An assignment, up to the quotes around its value. -/
theorem exec_parseLine_assignmentText (hkey : IsKey key) (htight : Tight isspace v)
    (hterminator : ∀ c ∈ v, notLineTerminator c = true)
    (hbefore : ∀ c ∈ beforeEquals, isspace c = true)
    (hafter : ∀ c ∈ afterEquals, isspace c = true ∧ notLineTerminator c = true)
    (h : Wraps before (assignmentText key beforeEquals afterEquals v) rest) (lineNo : ℕ) :
    exec (parseLine (before ++ (assignmentText key beforeEquals afterEquals v ++ rest)) s lineNo)
      cfg = andThen (stripQuotes v, cfg) fun value cfg => (.ok s, cfg.assign s key value) := by
  have hall : (afterEquals ++ v).all notLineTerminator = true := by
    rw [List.all_eq_true]
    intro c hc
    rcases List.mem_append.mp hc with hc | hc
    · exact (hafter c hc).2
    · exact hterminator c hc
  have hkeyTrim : trim (key ++ beforeEquals) = key :=
    trim_append (a := []) (by simp) hbefore hkey.tight
  have hvalueTrim : trim (afterEquals ++ v) = v := by
    have htrim := trim_append (b := []) (fun c hc => (hafter c hc).1) (by simp) htight
    rwa [List.append_nil] at htrim
  have hne : ¬(assignmentText key beforeEquals afterEquals v).isEmpty = true := by
    rw [List.isEmpty_iff]
    exact fun hnil => hkey.ne_nil (List.append_eq_nil_iff.mp hnil).1
  rw [parseLine, trim_of_wraps h]
  dsimp only
  rw [if_neg hne, matchSection_assignmentText hkey, matchKvPair_assignmentText hkey hbefore,
    if_pos hall]
  dsimp only
  rw [hkeyTrim, hvalueTrim, stripQuotes_eq_self hkey.ne_nil fun c hc => (hkey.head c hc).2,
    exec_bind_ok (exec_liftExcept ..), exec_bind, exec_liftExcept]
  rfl

/-- **An assignment.** -/
theorem exec_parseLine_assignment (hkey : IsKey key) (hvalue : IsValue v)
    (hbefore : ∀ c ∈ beforeEquals, isspace c = true)
    (hafter : ∀ c ∈ afterEquals, isspace c = true ∧ notLineTerminator c = true)
    (h : Wraps before (assignmentText key beforeEquals afterEquals v) rest) (lineNo : ℕ) :
    exec (parseLine (before ++ (assignmentText key beforeEquals afterEquals v ++ rest)) s lineNo)
      cfg = (.ok s, cfg.assign s key v) := by
  have hterminator : ∀ c ∈ v, notLineTerminator c = true := by
    intro c hc
    have hplain := hvalue.plain c hc
    simp [notLineTerminator, hplain.2.1, hplain.2.2]
  rw [exec_parseLine_assignmentText hkey hvalue.tight hterminator hbefore hafter h,
    stripQuotes_eq_self hvalue.ne_nil hvalue.head, andThen_ok]

end ConfigIni

end Bootpd
