import Bootpd.ConfigIniLines

/-!
# The line number of a parse error

`parse` counts the lines it hands to `parse_line`. It hands over no empty line, so an empty line
takes no number.

The number that a message should have is the position of the line among all lines of the text, which
is what an editor shows. It is compared with the one in the exception: `NamesTheLine` asks for the
first line that is refused, and for a store that has what the lines in front of it assign and
nothing else. Whether that is so depends on the lines in front of the bad one alone. A line with
nothing but blanks, or a comment, is counted like any other; only a line without any character is
not.

The other way for a line to go wrong, an assignment with an empty part, has no message and no
number.

## Main definitions

* `ConfigIni.countedLines` — how far the loop has counted
* `ConfigIni.applyAll` — what some lines leave behind them
* `ConfigIni.NamesTheLine` — the message is right

## Main results

* `ConfigIni.exec_parseLines_append` — the loop passes the lines in front of an error
* `ConfigIni.namesTheLine_iff` — when the number in the message is the number of the line
-/

namespace Bootpd

open Imperative Scanning

namespace ConfigIni

/-! ### The loop -/

/-- The loop passes the line. -/
def Saying.passes : Saying → Bool
  | .incomplete _ => false
  | .bad => false
  | _ => true

/-- What a line leaves behind it: the current section and the store. -/
def Saying.apply : Saying → StdString × ConfigIni → StdString × ConfigIni
  | .header name, (_, cfg) => (name, cfg)
  | .assignment key val, (sectionName, cfg) => (sectionName, cfg.assign sectionName key val)
  | _, state => state

/-- **What some lines leave behind them**: every assignment among them, in its section. -/
def applyAll (lines : List StdString) (state : StdString × ConfigIni) : StdString × ConfigIni :=
  lines.foldl (fun state line => (saying line).apply state) state

/-- The lines that are counted. -/
def countedLines (lines : List StdString) : ℕ := (lines.filter fun line => !line.isEmpty).length

variable {line sectionName : StdString} {before after : List StdString} {lineNo : ℕ}
  {cfg : ConfigIni}

@[simp] theorem saying_nil : saying [] = .nothing := rfl

theorem exec_parseLine_of_passes (h : (saying line).passes = true) (sectionName : StdString)
    (lineNo : ℕ) (cfg : ConfigIni) :
    exec (parseLine line sectionName lineNo) cfg =
      (.ok ((saying line).apply (sectionName, cfg)).1,
        ((saying line).apply (sectionName, cfg)).2) := by
  have hdoes := exec_parseLine line sectionName lineNo cfg
  generalize exec (parseLine line sectionName lineNo) cfg = r at hdoes
  generalize saying line = what at hdoes h
  cases hdoes with
  | nothing => rfl
  | header name => rfl
  | assignment key val => rfl
  | incomplete what => cases h
  | bad => cases h

/-- **Lines without an error** are passed, by induction on them. -/
theorem exec_parseLines_append (h : ∀ line ∈ before, (saying line).passes = true)
    (after : List StdString) (sectionName : StdString) (lineNo : ℕ) (cfg : ConfigIni) :
    exec (parseLines (before ++ after) sectionName lineNo) cfg =
      exec (parseLines after (applyAll before (sectionName, cfg)).1
        (lineNo + countedLines before)) (applyAll before (sectionName, cfg)).2 := by
  induction before generalizing sectionName lineNo cfg with
  | nil => rfl
  | cons line before ih =>
    rw [List.forall_mem_cons] at h
    rw [List.cons_append, parseLines]
    cases line with
    | nil =>
      rw [if_pos List.isEmpty_nil, ih h.2]
      rfl
    | cons c line =>
      have hcount : lineNo + 1 + countedLines before =
          lineNo + countedLines ((c :: line) :: before) := by
        rw [countedLines, countedLines, List.filter_cons_of_pos (by rfl), List.length_cons]
        omega
      rw [if_neg (by simp), exec_bind_ok (exec_parseLine_of_passes h.1 ..), ih h.2, hcount]
      rfl

/-- **A line that is not passed** ends the loop: a bad line with its exception, and an assignment
that lacks a part outside of what the language defines. -/
theorem exec_parseLines_stops (h : (saying line).passes = false) (after : List StdString)
    (sectionName : StdString) (lineNo : ℕ) (cfg : ConfigIni) :
    ∃ e, exec (parseLines (line :: after) sectionName lineNo) cfg = (.error e, cfg) ∧
      (saying line = .bad ∧ e = badLine (lineNo + 1) (lineCore line) ∨
        saying line ≠ .bad ∧ ∃ what, e = .undefinedBehaviour what) := by
  have hne : ¬line.isEmpty = true := by
    rw [List.isEmpty_iff]
    rintro rfl
    cases h
  have hdoes := exec_parseLine line sectionName (lineNo + 1) cfg
  rw [parseLines, if_neg hne]
  generalize hr : exec (parseLine line sectionName (lineNo + 1)) cfg = r at hdoes
  generalize saying line = said at hdoes h
  cases hdoes with
  | nothing => cases h
  | header name => cases h
  | assignment key val => cases h
  | incomplete what => exact ⟨_, exec_bind_error hr, .inr ⟨by simp, what, rfl⟩⟩
  | bad => exact ⟨_, exec_bind_error hr, .inl ⟨rfl, rfl⟩⟩

/-- Lines are passed up to the first that is not, if there is one. -/
theorem passes_or_exists (lines : List StdString) :
    (∀ line ∈ lines, (saying line).passes = true) ∨
      ∃ before line after, lines = before ++ line :: after ∧
        (∀ line ∈ before, (saying line).passes = true) ∧ (saying line).passes = false := by
  induction lines with
  | nil => exact .inl (by simp)
  | cons line lines ih =>
    cases hline : (saying line).passes with
    | false => exact .inr ⟨[], line, lines, rfl, by simp, hline⟩
    | true =>
      rcases ih with hall | ⟨before, bad, after, rfl, hbefore, hbad⟩
      · exact .inl (List.forall_mem_cons.mpr ⟨hline, hall⟩)
      · exact .inr ⟨line :: before, bad, after, rfl, List.forall_mem_cons.mpr ⟨hline, hbefore⟩,
          hbad⟩

/-! ### The number in the message -/

/-- The message has one number, the digits up to the blank. -/
theorem eq_of_badLine_eq {n m : ℕ} {core core' : StdString} (hn : n ≠ 0) (hm : m ≠ 0)
    (h : badLine n core = badLine m core') : n = m := by
  rw [badLine, badLine, if_pos hn, if_pos hm] at h
  have htexts := List.append_cancel_left (by simpa using Exception.runtimeError.inj h :
    lit "Bad line nr " ++ (toString n ++ (lit " : " ++ core)) =
      lit "Bad line nr " ++ (toString m ++ (lit " : " ++ core')))
  have htake : ∀ (k : ℕ) (rest : StdString),
      (toString k ++ (lit " : " ++ rest)).takeWhile (isDigit 10) = toString k := by
    intro k rest
    rw [List.takeWhile_append_of_pos (isDecimal_toString k).2]
    exact List.append_nil _
  have hdigits := congrArg (List.takeWhile (isDigit 10)) htexts
  rw [htake, htake] at hdigits
  rw [← denoted_toString n, hdigits, denoted_toString]

/-- **The right line**: when the text is refused with a line number, that is the position among all
lines of the first bad one, and the store has what the lines in front of it assign. -/
def NamesTheLine (iss : StdString) (cfg : ConfigIni) : Prop :=
  ∀ n core store, n ≠ 0 → exec (parse iss) cfg = (.error (badLine n core), store) →
    ∃ before line after, records lineFeed iss = before ++ line :: after ∧
      (∀ line ∈ before, saying line ≠ .bad) ∧ saying line = .bad ∧ n = before.length + 1 ∧
      store = (applyAll before ([], cfg)).2

/-- A first bad line with all lines in front of it passed. -/
def ReachesBadLine (iss : StdString) (before : List StdString) : Prop :=
  ∃ line after, records lineFeed iss = before ++ line :: after ∧
    (∀ line ∈ before, (saying line).passes = true) ∧ saying line = .bad

theorem exec_parse_of_reachesBadLine {iss : StdString} (h : ReachesBadLine iss before)
    (cfg : ConfigIni) : ∃ core, exec (parse iss) cfg =
      (.error (badLine (countedLines before + 1) core), (applyAll before ([], cfg)).2) := by
  obtain ⟨line, after, hlines, hbefore, hbad⟩ := h
  obtain ⟨e, hstops, ⟨-, rfl⟩ | ⟨hne, -⟩⟩ :=
    @exec_parseLines_stops line (by rw [hbad]; rfl) after (applyAll before ([], cfg)).1
      (0 + countedLines before) (applyAll before ([], cfg)).2
  · refine ⟨lineCore line, ?_⟩
    rw [parse, hlines, exec_parseLines_append hbefore, hstops, Nat.zero_add]
  · exact absurd hbad hne

/-- A text refused with a line number has a bad line. -/
theorem reachesBadLine_of_exec {iss core : StdString} {n : ℕ} {store : ConfigIni}
    (h : exec (parse iss) cfg = (.error (badLine n core), store)) :
    ∃ before, ReachesBadLine iss before := by
  rcases passes_or_exists (records lineFeed iss) with hall | ⟨before, line, after, hlines, hbefore,
    hline⟩
  · have hrun := exec_parseLines_append hall [] [] 0 cfg
    rw [List.append_nil, ← parse, h] at hrun
    cases congrArg Prod.fst hrun
  · obtain ⟨e, hstops, ⟨hbad, -⟩ | ⟨-, what, rfl⟩⟩ :=
      exec_parseLines_stops hline after (applyAll before ([], cfg)).1
        (0 + countedLines before) (applyAll before ([], cfg)).2
    · exact ⟨before, line, after, hlines, hbefore, hbad⟩
    · rw [parse, hlines, exec_parseLines_append hbefore, hstops] at h
      cases congrArg Prod.fst h

theorem countedLines_eq_length_iff (lines : List StdString) :
    countedLines lines = lines.length ↔ [] ∉ lines := by
  rw [countedLines, List.length_filter_eq_length_iff]
  constructor
  · intro h hmem
    cases h [] hmem
  · intro h line hline
    rw [Bool.not_eq_true', List.isEmpty_eq_false_iff]
    rintro rfl
    exact h hline

/-- **When the message names the right line.** For every text and store: if and only if no line in
front of the first bad one is empty, provided that the loop gets there. -/
theorem namesTheLine_iff (iss : StdString) (cfg : ConfigIni) :
    NamesTheLine iss cfg ↔ ∀ before, ReachesBadLine iss before → [] ∉ before := by
  constructor
  · intro h before hreach
    obtain ⟨core, hrun⟩ := exec_parse_of_reachesBadLine hreach cfg
    obtain ⟨before', line', after', hlines', hbefore', hbad', hn, -⟩ :=
      h _ core _ (Nat.succ_ne_zero _) hrun
    obtain ⟨line, after, hlines, hbefore, hbad⟩ := hreach
    have hnot : ∀ line ∈ before, saying line ≠ .bad := by
      intro line hline hsaying
      have hpasses := hbefore line hline
      rw [hsaying] at hpasses
      cases hpasses
    obtain rfl := eq_of_append_cons_eq (hlines.symm.trans hlines') hnot hbad hbefore' hbad'
    rw [← countedLines_eq_length_iff]
    exact Nat.succ_injective hn
  · intro h n core store hn hrun
    obtain ⟨before, hreach⟩ := reachesBadLine_of_exec hrun
    obtain ⟨core', hrun'⟩ := exec_parse_of_reachesBadLine hreach cfg
    have hcount := (countedLines_eq_length_iff before).mpr (h before hreach)
    obtain ⟨line, after, hlines, hbefore, hbad⟩ := hreach
    rw [hrun'] at hrun
    obtain ⟨hmessage, rfl⟩ := Prod.mk.inj hrun
    have hnumber := eq_of_badLine_eq (Nat.succ_ne_zero _) hn (Except.error.inj hmessage)
    refine ⟨before, line, after, hlines, ?_, hbad, by rw [← hnumber, hcount], rfl⟩
    intro line hline hsaying
    have hpasses := hbefore line hline
    rw [hsaying] at hpasses
    cases hpasses

/-- An assignment, an empty line and a bad line: the third line is reported as the second. -/
def emptyLineText : StdString := lit "a = b\n\noops\n"

theorem not_namesTheLine_emptyLineText :
    records lineFeed emptyLineText = [lit "a = b", [], lit "oops"] ∧
      exec (parse emptyLineText) ∅ =
        (.error (.runtimeError (lit "Bad line nr 2 : oops")),
          ConfigIni.assign ∅ [] (lit "a") (lit "b")) ∧
      ¬NamesTheLine emptyLineText ∅ := by
  have hrun : exec (parse emptyLineText) ∅ = (.error (badLine 2 (lit "oops")),
      ConfigIni.assign ∅ [] (lit "a") (lit "b")) := by
    rfl
  refine ⟨by decide, hrun, fun h => ?_⟩
  obtain ⟨before, line, after, hlines, -, hbad, hn, -⟩ := h 2 _ _ (by decide) hrun
  have hrecords : records lineFeed emptyLineText = [lit "a = b", [], lit "oops"] := by
    decide
  -- the line in the second place is empty
  obtain ⟨first, rfl⟩ := List.length_eq_one_iff.mp (Nat.succ_injective hn).symm
  rw [hrecords] at hlines
  obtain ⟨-, hrest⟩ := List.cons.inj hlines
  obtain ⟨rfl, -⟩ := List.cons.inj hrest
  cases hbad

end ConfigIni

end Bootpd
