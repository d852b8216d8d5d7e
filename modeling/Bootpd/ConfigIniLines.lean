import Bootpd.ConfigIni

/-!
# What a line of an INI file says

A line by itself: `parse_line` decides by its core what to do with it, and neither the section that
is current nor the store has a part in that.

The core is what is left of a line without its comment and the blanks around it. `saying` takes it
for nothing, a header, an assignment, an assignment with a part missing, or something else, in the
order in which the source tries them. What the parser does then is one case each: it goes on,
changes its section, assigns, has no behaviour, or throws with the number of the line.

The modules about errors and about views go through `Saying` and do not look into the parser.

## Main definitions

* `ConfigIni.lineCore` — a line without its comment and the blanks around it
* `ConfigIni.Saying`, `ConfigIni.saying` — what it says
* `ConfigIni.badLine` — the exception for a line that says nothing of the kind

## Main results

* `ConfigIni.matchKvPair_eq_some_iff`, `matchSection_eq_none` — what the expressions match
* `ConfigIni.exec_parseLine` — the parser does what the line says
-/

namespace Bootpd

open Imperative Scanning

namespace ConfigIni

/-! ### What is matched -/

variable {line core key val : StdString} {cfg : ConfigIni} {sectionName : StdString} {lineNo : ℕ}

/-- What a line says: the text without its comment and the blanks around it. -/
def lineCore (line : StdString) : StdString := trim (line.takeWhile (· != semicolon))

theorem matchKvPair_eq_some_iff :
    matchKvPair core = some (key, val) ↔ core = key ++ equalsSign :: val ∧ equalsSign ∉ key ∧
      key ≠ [] ∧ val.all notLineTerminator = true := by
  constructor
  · intro h
    have happend := List.takeWhile_append_dropWhile (p := (· != equalsSign)) (l := core)
    have hnot : equalsSign ∉ core.takeWhile (· != equalsSign) :=
      fun hmem => by simpa using List.mem_takeWhile_imp hmem
    rw [matchKvPair] at h
    cases hrest : core.dropWhile (· != equalsSign) with
    | nil =>
      rw [hrest] at h
      cases h
    | cons c rest =>
      have hc : c = equalsSign := by
        simpa using head?_dropWhile (· != equalsSign) core c (by simp [hrest])
      rw [hrest] at h happend
      dsimp only at h
      split_ifs at h with hkey
      obtain ⟨rfl, rfl⟩ := Prod.mk.inj (Option.some.inj h)
      subst hc
      exact ⟨happend.symm, hnot, hkey⟩
  · rintro ⟨rfl, hnot, hkey⟩
    rw [matchKvPair, dropWhile_ne_cons hnot, takeWhile_ne_cons hnot]
    exact if_pos hkey

/-- A header ends with its bracket. -/
theorem matchSection_eq_none {c : UInt8} (hlast : core.getLast? = some c)
    (hc : c ≠ rightBracket) : matchSection core = none := by
  cases core with
  | nil => rfl
  | cons d core =>
    rw [matchSection]
    refine if_neg ?_
    rintro ⟨-, hdrop⟩
    have happend := List.takeWhile_append_dropWhile (p := notBracket) (l := core)
    rw [hdrop] at happend
    rw [← happend, ← List.cons_append, List.getLast?_concat] at hlast
    exact hc (Option.some.inj hlast).symm

/-- Quotes can be removed unless there is nothing, or one quote and nothing else. -/
theorem stripQuotes_cases (s : StdString) :
    ((s = [] ∨ s = [quote]) ∧ ∃ what, stripQuotes s = .error (.undefinedBehaviour what)) ∨
      (¬(s = [] ∨ s = [quote]) ∧ ∃ s', stripQuotes s = .ok s') := by
  cases s with
  | nil => exact .inl ⟨.inl rfl, _, rfl⟩
  | cons c s =>
    rw [stripQuotes]
    by_cases hquoted : c = quote ∧ (c :: s).getLast? = some quote
    · rw [if_pos hquoted, hquoted.1]
      by_cases hs : s = []
      · rw [if_pos hs, hs]
        exact .inl ⟨.inr rfl, _, rfl⟩
      · rw [if_neg hs]
        exact .inr ⟨by simp [hs], _, rfl⟩
    · rw [if_neg hquoted]
      refine .inr ⟨?_, _, rfl⟩
      rintro (h | h)
      · cases h
      · obtain ⟨rfl, rfl⟩ := List.cons.inj h
        exact hquoted ⟨rfl, rfl⟩

/-! ### What it says -/

/-- What a line says. -/
inductive Saying where
  | nothing
  | header (name : StdString)
  | assignment (key val : StdString)
  /-- An assignment of which a part is not there. -/
  | incomplete (e : Exception)
  | bad

/-- The reading of a line. -/
def saying (line : StdString) : Saying :=
  if lineCore line = [] then .nothing
  else match matchSection (lineCore line) with
    | some name => .header name
    | none =>
      match matchKvPair (lineCore line) with
      | none => .bad
      | some (key, val) =>
        match stripQuotes (trim key), stripQuotes (trim val) with
        | .ok key, .ok val => .assignment key val
        | .ok _, .error e => .incomplete e
        | .error e, _ => .incomplete e

/-- The exception for a bad line, where 0 is no line number. -/
def badLine (lineNo : ℕ) (core : StdString) : Exception :=
  .runtimeError (if lineNo ≠ 0 then lit "Bad line nr " ++ toString lineNo ++ lit " : " ++ core
    else lit "Bad config directive : " ++ core)

/-- What the parser does with what the line says. -/
inductive Does (core sectionName : StdString) (lineNo : ℕ) (cfg : ConfigIni) :
    Saying → Except Exception StdString × ConfigIni → Prop
  | nothing : Does core sectionName lineNo cfg .nothing (.ok sectionName, cfg)
  | header (name : StdString) :
    Does core sectionName lineNo cfg (.header name) (.ok name, cfg)
  | assignment (key val : StdString) : Does core sectionName lineNo cfg (.assignment key val)
    (.ok sectionName, cfg.assign sectionName key val)
  | incomplete (what : StdString) : Does core sectionName lineNo cfg
    (.incomplete (.undefinedBehaviour what)) (.error (.undefinedBehaviour what), cfg)
  | bad : Does core sectionName lineNo cfg .bad (.error (badLine lineNo core), cfg)

/-- **One line**: the parser does what the line says. -/
theorem exec_parseLine (line sectionName : StdString) (lineNo : ℕ) (cfg : ConfigIni) :
    Does (lineCore line) sectionName lineNo cfg (saying line)
      (exec (parseLine line sectionName lineNo) cfg) := by
  rw [parseLine, ← lineCore, saying]
  dsimp only
  by_cases hcore : lineCore line = []
  · rw [if_pos hcore, if_pos (List.isEmpty_iff.mpr hcore)]
    exact .nothing
  · rw [if_neg hcore, if_neg fun hempty => hcore (List.isEmpty_iff.mp hempty)]
    cases matchSection (lineCore line) with
    | some name => exact .header name
    | none =>
      cases matchKvPair (lineCore line) with
      | none =>
        have hbad : exec (if lineNo ≠ 0 then do
            throw (.runtimeError
              (lit "Bad line nr " ++ toString lineNo ++ lit " : " ++ lineCore line))
            throw (.runtimeError (lit "Bad config directive : " ++ lineCore line))
          else throw (.runtimeError (lit "Bad config directive : " ++ lineCore line)) :
            Imp ConfigIni Exception StdString) cfg =
            (.error (badLine lineNo (lineCore line)), cfg) := by
          rw [badLine]
          split_ifs <;> rfl
        dsimp only
        rw [hbad]
        exact .bad
      | some kv =>
        obtain ⟨key, val⟩ := kv
        dsimp only
        rcases stripQuotes_cases (trim key) with ⟨-, what, hkey⟩ | ⟨-, key', hkey⟩
        · rw [hkey, exec_bind_error (exec_liftExcept ..)]
          exact .incomplete what
        · rw [hkey, exec_bind_ok (exec_liftExcept ..)]
          rcases stripQuotes_cases (trim val) with ⟨-, what, hval⟩ | ⟨-, val', hval⟩
          · rw [hval, exec_bind_error (exec_liftExcept ..)]
            exact .incomplete what
          · rw [hval, exec_bind_ok (exec_liftExcept ..), exec_bind_ok (exec_modify ..)]
            exact .assignment key' val'

end ConfigIni

end Bootpd
