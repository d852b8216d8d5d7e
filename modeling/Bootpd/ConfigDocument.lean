import Bootpd.ConfigIni
import Mathlib.Data.List.Induction

/-!
# What an INI document means

The meaning of a document, stated on its lines: an assignment belongs to the last header above it,
and the last assignment to a key of a section counts. `config_ini` realises this meaning, read from
a stream line by line or fed one assignment at a time.

## Documents

A `DocLine` is a line by its parts: what it says, the blanks around that, the comment and the end of
the line, LF or CR LF. A document is a list of lines, and its text is theirs in sequence. So a
theorem about all documents is about all layouts of them, and a parser that is right about the text
cannot be so by accident. Keys and values do not begin with a quote here; values in quotes are in
`ConfigIniViews`.

Blanks may stand wherever the document has room for them, with one exception: a carriage return
between the `=` and the value is no blank to the expression that matches assignments, and the line
is refused.

## The meaning

`assignments` goes through the lines with the section that is current, as the meaning says and with
no store. `lastAssigned` looks a key up in the result. The parser has a store that it overwrites,
and the two agree because the last of several insertions is the one that stays.

## Main definitions

* `ConfigIni.DocLine`, `ConfigIni.Core` — a line, and what it says
* `ConfigIni.assignments`, `ConfigIni.lastAssigned` — what a document assigns
* `ConfigIni.DocLine.WellFormed`, `ConfigIni.Core.NoReturn` — the lines that are promised anything

## Main results

* `ConfigIni.exec_parseLine_content` — a line, with anything at its end that ends a line
* `ConfigIni.exec_parseLines` — the loop of `parse` assigns what the document assigns
* `ConfigIni.parse_document` — the headline
-/

namespace Bootpd

open Imperative Scanning

namespace ConfigIni

/-! ### Documents -/

/-- What a line says. -/
inductive Core where
  | blank
  | header (name : StdString)
  | assignment (key beforeEquals afterEquals value : StdString)

/-- A line: what it says, in blanks, an optional comment and the line end. -/
structure DocLine where
  before : StdString
  core : Core
  after : StdString
  comment : Option StdString
  crlf : Bool

def Core.text : Core → StdString
  | blank => []
  | header name => leftBracket :: (name ++ [rightBracket])
  | assignment key beforeEquals afterEquals value =>
    assignmentText key beforeEquals afterEquals value

/-- The semicolon and the comment. -/
def DocLine.commentText (l : DocLine) : StdString := l.comment.elim [] (semicolon :: ·)

/-- A line without its end. -/
def DocLine.content (l : DocLine) : StdString :=
  l.before ++ (l.core.text ++ (l.after ++ l.commentText))

/-- A line with its end. -/
def DocLine.text (l : DocLine) : StdString :=
  l.content ++ if l.crlf then [carriageReturn, lineFeed] else [lineFeed]

/-- Blanks within a line. -/
def Blanks (s : StdString) : Prop := ∀ c ∈ s, isspace c = true ∧ c ≠ lineFeed

def Core.WellFormed : Core → Prop
  | blank => True
  | header name => ∀ c ∈ name, c ≠ leftBracket ∧ c ≠ rightBracket ∧ c ≠ semicolon ∧
      c ≠ carriageReturn ∧ c ≠ lineFeed
  | assignment key beforeEquals afterEquals value =>
    IsKey key ∧ Blanks beforeEquals ∧ Blanks afterEquals ∧ IsValue value

structure DocLine.WellFormed (l : DocLine) : Prop where
  before : Blanks l.before
  core : l.core.WellFormed
  after : Blanks l.after
  comment : ∀ c ∈ l.comment, lineFeed ∉ c

/-- No carriage return between the sign of an assignment and its value. -/
def Core.NoReturn : Core → Prop
  | assignment _ _ afterEquals _ => carriageReturn ∉ afterEquals
  | _ => True

/-! ### The meaning -/

/-- An assignment, with the section it belongs to and the line it comes from. -/
structure Assignment where
  sectionName : StdString
  key : StdString
  value : StdString
  line : DocLine

/-- The section that is current behind a line. -/
def Core.sectionAfter (s : StdString) : Core → StdString
  | header name => name
  | _ => s

/-- The assignments of a document, with the section they belong to. -/
def assignments : StdString → List DocLine → List Assignment
  | _, [] => []
  | s, l :: doc =>
    let rest := assignments (l.core.sectionAfter s) doc
    match l.core with
    | .assignment key _ _ value => ⟨s, key, value, l⟩ :: rest
    | _ => rest

/-- The value of the last assignment to a key of a section. -/
def lastAssigned (as : List Assignment) (s k : StdString) : Option StdString :=
  ((as.filter fun a => a.sectionName = s ∧ a.key = k).getLast?).map Assignment.value

/-- What the assignments make of a store. -/
def assignAll (cfg : ConfigIni) (as : List Assignment) : ConfigIni :=
  as.foldl (fun cfg a => cfg.assign a.sectionName a.key a.value) cfg

/-- **The last assignment counts.** -/
theorem value_assignAll (cfg : ConfigIni) (as : List Assignment) (s k : StdString) :
    (assignAll cfg as).value k s = (lastAssigned as s k).or (cfg.value k s) := by
  induction as using List.reverseRecOn with
  | nil => rfl
  | append_singleton as a ih =>
    rw [assignAll, List.foldl_append, List.foldl_cons, List.foldl_nil, value_assign]
    rw [assignAll] at ih
    rw [ih, lastAssigned, lastAssigned, List.filter_append]
    by_cases h : s = a.sectionName ∧ k = a.key
    · obtain ⟨rfl, rfl⟩ := h
      simp
    · have h' : ¬(a.sectionName = s ∧ a.key = k) := fun h' => h ⟨h'.1.symm, h'.2.symm⟩
      simp [h, h']

theorem mem_sections_assignAll (cfg : ConfigIni) (as : List Assignment) (s : StdString) :
    s ∈ (assignAll cfg as).sections ↔ (∃ a ∈ as, a.sectionName = s) ∨ s ∈ cfg.sections := by
  induction as generalizing cfg with
  | nil => simp [assignAll]
  | cons a as ih =>
    rw [assignAll, List.foldl_cons, ← assignAll, ih, mem_sections_assign]
    simp only [List.mem_cons, exists_eq_or_imp, eq_comm (a := s), or_assoc]
    exact or_left_comm

/-! ### One line -/

theorem Blanks.isspace {s : StdString} (h : Blanks s) : ∀ c ∈ s, isspace c = true :=
  fun c hc => (h c hc).1

theorem tight_header (name : StdString) :
    Tight Bootpd.isspace (leftBracket :: (name ++ [rightBracket])) := by
  have h : Tight Bootpd.isspace [leftBracket] ∧ Tight Bootpd.isspace [rightBracket] := by
    constructor <;> constructor <;> simp [Bootpd.isspace, leftBracket, rightBracket]
  have hcat := tight_of_append (by simp) h.1 (by simp) h.2 name
  simpa using hcat

/-- The core of a line holds no comment and has no blanks at its ends. -/
theorem Core.WellFormed.tight {core : Core} (h : core.WellFormed) :
    semicolon ∉ core.text ∧ Tight Bootpd.isspace core.text := by
  cases core with
  | blank => exact ⟨by simp [Core.text], by simp [Core.text, Tight]⟩
  | header name =>
    refine ⟨?_, tight_header name⟩
    simp only [Core.text, List.mem_cons, List.mem_append, not_or]
    exact ⟨by decide, fun hmem => (h _ hmem).2.2.1 rfl, by decide⟩
  | assignment key beforeEquals afterEquals value =>
    obtain ⟨hkey, hbefore, hafter, hvalue⟩ := h
    constructor
    · simp only [Core.text, assignmentText, List.mem_cons, List.mem_append, not_or]
      exact ⟨fun hmem => (hkey.plain _ hmem).2.1 rfl,
        notMem_of_isspace hbefore.isspace (by decide), by decide,
        notMem_of_isspace hafter.isspace (by decide), fun hmem => (hvalue.plain _ hmem).1 rfl⟩
    · have hcat := tight_of_append hkey.ne_nil hkey.tight hvalue.ne_nil hvalue.tight
        (beforeEquals ++ equalsSign :: afterEquals)
      simpa [Core.text, assignmentText] using hcat

/-- The line in front of its end, with any blanks behind it, wraps its core. -/
theorem DocLine.WellFormed.wraps {l : DocLine} (h : l.WellFormed) {e : StdString}
    (he : ∀ c ∈ e, Bootpd.isspace c = true) :
    Wraps l.before l.core.text (l.after ++ (l.commentText ++ e)) := by
  obtain ⟨hcomment, htight⟩ := h.core.tight
  refine ⟨h.before.isspace, hcomment, htight, ?_⟩
  rw [takeWhile_ne_append (notMem_of_isspace h.after.isspace (by decide))]
  intro c hc
  rcases List.mem_append.mp hc with hc | hc
  · exact h.after.isspace c hc
  · cases hl : l.comment with
    | none =>
      rw [commentText, hl] at hc
      exact he c ((List.takeWhile_sublist _).subset hc)
    | some comment =>
      rw [commentText, hl] at hc
      simp [semicolon] at hc

/-- What a line makes of the store. -/
def Core.apply (s : StdString) (cfg : ConfigIni) : Core → ConfigIni
  | assignment key _ _ value => cfg.assign s key value
  | _ => cfg

/-- **A line**, with any blanks in place of its end. -/
theorem exec_parseLine_content {l : DocLine} (h : l.WellFormed) (hcr : l.core.NoReturn)
    {e : StdString} (he : ∀ c ∈ e, Bootpd.isspace c = true) (s : StdString) (lineNo : ℕ)
    (cfg : ConfigIni) :
    exec (parseLine (l.content ++ e) s lineNo) cfg =
      (.ok (l.core.sectionAfter s), l.core.apply s cfg) := by
  have hwraps := h.wraps he
  have hcore := h.core
  have hcontent : l.content ++ e =
      l.before ++ (l.core.text ++ (l.after ++ (l.commentText ++ e))) := by
    simp [DocLine.content]
  rw [hcontent]
  cases hl : l.core with
  | blank =>
    rw [hl] at hwraps
    exact exec_parseLine_blank hwraps lineNo
  | header name =>
    rw [hl] at hwraps hcore
    refine exec_parseLine_section (fun c hc => ?_) hwraps lineNo
    have hname := hcore c hc
    simp [notBracket, hname.1, hname.2.1]
  | assignment key beforeEquals afterEquals value =>
    rw [hl] at hwraps hcore hcr
    obtain ⟨hkey, hbefore, hafter, hvalue⟩ := hcore
    refine exec_parseLine_assignment hkey hvalue hbefore.isspace (fun c hc => ?_) hwraps lineNo
    have hne : c ≠ carriageReturn := by
      rintro rfl
      exact hcr hc
    exact ⟨hafter.isspace c hc, by simp [notLineTerminator, hne, (hafter c hc).2]⟩

/-! ### The whole document -/

/-- A line as `getline` gives it: its line feed is gone. -/
def DocLine.raw (l : DocLine) : StdString := l.content ++ if l.crlf then [carriageReturn] else []

theorem DocLine.text_eq (l : DocLine) : l.text = l.raw ++ [lineFeed] := by
  rw [text, raw]
  cases l.crlf <;> simp

theorem Core.WellFormed.noLineFeed {core : Core} (h : core.WellFormed) : lineFeed ∉ core.text := by
  cases core with
  | blank => simp [Core.text]
  | header name =>
    simp only [Core.text, List.mem_cons, List.mem_append, not_or]
    exact ⟨by decide, fun hmem => (h _ hmem).2.2.2.2 rfl, by decide⟩
  | assignment key beforeEquals afterEquals value =>
    obtain ⟨hkey, hbefore, hafter, hvalue⟩ := h
    simp only [Core.text, assignmentText, List.mem_cons, List.mem_append, not_or]
    exact ⟨fun hmem => (hkey.plain _ hmem).2.2.2 rfl, fun hmem => (hbefore _ hmem).2 rfl,
      by decide, fun hmem => (hafter _ hmem).2 rfl, fun hmem => (hvalue.plain _ hmem).2.2 rfl⟩

theorem DocLine.WellFormed.noLineFeed {l : DocLine} (h : l.WellFormed) : lineFeed ∉ l.raw := by
  simp only [raw, content, List.mem_append, not_or]
  refine ⟨⟨fun hmem => (h.before _ hmem).2 rfl, h.core.noLineFeed,
    fun hmem => (h.after _ hmem).2 rfl, ?_⟩, ?_⟩
  · rw [commentText]
    cases hl : l.comment with
    | none => simp
    | some comment =>
      rw [Option.elim_some, List.mem_cons, not_or]
      exact ⟨by decide, h.comment comment hl⟩
  · cases l.crlf <;> decide

/-- The stream of a document is split into its lines. -/
theorem records_text {doc : List DocLine} (h : ∀ l ∈ doc, l.WellFormed) :
    records lineFeed (doc.flatMap DocLine.text) = doc.map DocLine.raw := by
  induction doc with
  | nil => rfl
  | cons l doc ih =>
    rw [List.forall_mem_cons] at h
    rw [List.flatMap_cons, DocLine.text_eq, List.append_assoc, List.singleton_append,
      records_append h.1.noLineFeed, ih h.2, List.map_cons]

/-- A line that `parse` skips says nothing. -/
theorem core_of_raw_isEmpty {l : DocLine} (h : l.raw.isEmpty = true) : l.core = .blank := by
  have hcore : l.core.text = [] := by
    rw [List.isEmpty_iff, DocLine.raw, DocLine.content] at h
    simp only [List.append_eq_nil_iff] at h
    exact h.1.2.1
  cases hl : l.core with
  | blank => rfl
  | header name =>
    rw [hl] at hcore
    cases hcore
  | assignment key beforeEquals afterEquals value =>
    rw [hl, Core.text, assignmentText] at hcore
    simp at hcore

theorem assignAll_cons (l : DocLine) (doc : List DocLine) (s : StdString) (cfg : ConfigIni) :
    assignAll cfg (assignments s (l :: doc)) =
      assignAll (l.core.apply s cfg) (assignments (l.core.sectionAfter s) doc) := by
  rw [assignments]
  cases l.core <;> rfl

/-- **The loop of `parse`** assigns what the document assigns, by induction on its lines. The
section is carried along. -/
theorem exec_parseLines {doc : List DocLine} (h : ∀ l ∈ doc, l.WellFormed)
    (hcr : ∀ l ∈ doc, l.core.NoReturn) (s : StdString) (lineNo : ℕ) (cfg : ConfigIni) :
    exec (parseLines (doc.map DocLine.raw) s lineNo) cfg =
      (.ok (), assignAll cfg (assignments s doc)) := by
  induction doc generalizing s lineNo cfg with
  | nil => rfl
  | cons l doc ih =>
    rw [List.forall_mem_cons] at h hcr
    rw [List.map_cons, parseLines, assignAll_cons]
    by_cases hempty : l.raw.isEmpty = true
    · rw [if_pos hempty, ih h.2 hcr.2, core_of_raw_isEmpty hempty]
      rfl
    · have he : ∀ c ∈ if l.crlf then [carriageReturn] else [], Bootpd.isspace c = true := by
        cases l.crlf <;> simp [Bootpd.isspace, carriageReturn]
      rw [if_neg hempty, DocLine.raw,
        exec_bind_ok (exec_parseLine_content h.1 hcr.1 he s (lineNo + 1) cfg)]
      exact ih h.2 hcr.2 _ _ _

/-- Feeding the lines of some assignments to `insert_line`, each with its section. -/
def insertAll (fed : DocLine → StdString) (as : List Assignment) : Imp ConfigIni Exception Unit :=
  as.forM fun a => insertLine (fed a.line) a.sectionName

/-- An assignment of a document is what its line says. -/
theorem core_of_mem_assignments {doc : List DocLine} {s : StdString} {a : Assignment}
    (ha : a ∈ assignments s doc) : a.line ∈ doc ∧ ∃ beforeEquals afterEquals,
      a.line.core = .assignment a.key beforeEquals afterEquals a.value := by
  induction doc generalizing s with
  | nil => cases ha
  | cons l doc ih =>
    rw [assignments] at ha
    cases hl : l.core with
    | blank | header name =>
      rw [hl] at ha
      obtain ⟨hmem, hcore⟩ := ih ha
      exact ⟨List.mem_cons_of_mem _ hmem, hcore⟩
    | assignment key beforeEquals afterEquals value =>
      rw [hl] at ha
      rcases List.mem_cons.mp ha with rfl | ha
      · exact ⟨List.mem_cons_self, beforeEquals, afterEquals, hl⟩
      · obtain ⟨hmem, hcore⟩ := ih ha
        exact ⟨List.mem_cons_of_mem _ hmem, hcore⟩

theorem exec_insertAll {fed : DocLine → StdString}
    (hfed : ∀ l, fed l = l.content ∨ fed l = l.text) {as : List Assignment}
    (has : ∀ a ∈ as, a.line.WellFormed ∧ a.line.core.NoReturn ∧ ∃ beforeEquals afterEquals,
      a.line.core = .assignment a.key beforeEquals afterEquals a.value) (cfg : ConfigIni) :
    exec (insertAll fed as) cfg = (.ok (), assignAll cfg as) := by
  induction as generalizing cfg with
  | nil => rfl
  | cons a as ih =>
    rw [List.forall_mem_cons] at has
    obtain ⟨⟨hwell, hcr, beforeEquals, afterEquals, hcore⟩, has⟩ := has
    obtain ⟨e, he, hline⟩ : ∃ e, (∀ c ∈ e, Bootpd.isspace c = true) ∧
        fed a.line = a.line.content ++ e := by
      rcases hfed a.line with hl | hl
      · exact ⟨[], by simp, by rw [hl, List.append_nil]⟩
      · refine ⟨_, ?_, hl⟩
        cases a.line.crlf <;> simp [Bootpd.isspace, carriageReturn, lineFeed]
    have hone : exec (insertLine (fed a.line) a.sectionName) cfg =
        (.ok (), cfg.assign a.sectionName a.key a.value) := by
      rw [insertLine, hline, exec_bind_ok (exec_parseLine_content hwell hcr he _ 0 cfg), hcore]
      rfl
    exact (exec_bind_ok hone).trans (ih has _)

/-- **INI document semantics.** A document without a carriage return between a sign and its value
is parsed. Every key of every section then has the value of the last assignment to it under that
section, the sections are the ones that have an assignment, each once, and feeding the assignments
one by one, with or without their line ends, builds the same store. -/
theorem parse_document (doc : List DocLine) (h : ∀ l ∈ doc, l.WellFormed)
    (hcr : ∀ l ∈ doc, l.core.NoReturn) :
    ∃ cfg : ConfigIni, exec (parse (doc.flatMap DocLine.text)) ∅ = (.ok (), cfg) ∧
      (∀ s k, cfg.value k s = lastAssigned (assignments [] doc) s k) ∧
      (∀ s, s ∈ cfg.sections ↔ ∃ a ∈ assignments [] doc, a.sectionName = s) ∧
      cfg.sections.Nodup ∧
      ∀ fed : DocLine → StdString, (∀ l, fed l = l.content ∨ fed l = l.text) →
        exec (insertAll fed (assignments [] doc)) ∅ = (.ok (), cfg) := by
  refine ⟨assignAll ∅ (assignments [] doc), ?_, fun s k => ?_, fun s => ?_, ?_, fun fed hfed => ?_⟩
  · rw [parse, records_text h]
    exact exec_parseLines h hcr [] 0 ∅
  · rw [value_assignAll]
    exact Option.or_none ..
  · rw [mem_sections_assignAll]
    exact or_iff_left (by simp [sections])
  · exact AList.keys_nodup _
  · refine exec_insertAll hfed (fun a ha => ?_) ∅
    obtain ⟨hmem, hcore⟩ := core_of_mem_assignments ha
    exact ⟨h _ hmem, hcr _ hmem, hcore⟩

theorem isKey_singleton {c : UInt8} (hc : c ≠ equalsSign ∧ c ≠ semicolon ∧ c ≠ carriageReturn ∧
    c ≠ lineFeed) (hhead : c ≠ leftBracket ∧ c ≠ quote) (hspace : Bootpd.isspace c = false) :
    IsKey [c] :=
  ⟨by simp, by simpa using hc, by simpa using hhead, by simpa [Tight] using hspace⟩

theorem isValue_singleton {c : UInt8} (hc : c ≠ semicolon ∧ c ≠ carriageReturn ∧ c ≠ lineFeed)
    (hhead : c ≠ quote) (hspace : Bootpd.isspace c = false) : IsValue [c] :=
  ⟨by simp, by simpa using hc, by simpa using hhead, by simpa [Tight] using hspace⟩

/-- `a=b`, with blanks between the sign and the value. -/
def assignmentLine (afterEquals : StdString) : DocLine :=
  ⟨[], .assignment [97] [] afterEquals [98], [], none, false⟩

theorem wellFormed_assignmentLine {afterEquals : StdString} (h : Blanks afterEquals) :
    (assignmentLine afterEquals).WellFormed := by
  refine ⟨by simp [Blanks, assignmentLine], ⟨?_, by simp [Blanks], h, ?_⟩,
    by simp [Blanks, assignmentLine], by simp [assignmentLine]⟩
  · exact isKey_singleton (by decide) (by decide) (by decide)
  · exact isValue_singleton (by decide) (by decide) (by decide)

/-- The document `a= b` in the section `s`, read and fed. -/
theorem parse_document_blank :
    ∃ cfg : ConfigIni, exec (parse [91, 115, 93, 13, 10, 97, 61, 32, 98, 10]) ∅ = (.ok (), cfg) ∧
      cfg.value [97] [115] = some [98] := by
  have hheader : DocLine.WellFormed ⟨[], .header [115], [], none, true⟩ :=
    ⟨by simp [Blanks], by simp [Core.WellFormed, leftBracket, rightBracket, semicolon,
      carriageReturn, lineFeed], by simp [Blanks], by simp⟩
  have hline : (assignmentLine [32]).WellFormed :=
    wellFormed_assignmentLine (by simp [Blanks, Bootpd.isspace, lineFeed])
  obtain ⟨cfg, hparse, hvalue, -⟩ := parse_document
    [⟨[], .header [115], [], none, true⟩, assignmentLine [32]]
    (by simpa using ⟨hheader, hline⟩)
    (by simp [Core.NoReturn, assignmentLine, carriageReturn])
  exact ⟨cfg, hparse, hvalue [115] [97]⟩

/-- **A carriage return between the sign and the value** is trimmed away wherever else it stands.
Here the line is refused. -/
theorem parse_document_return :
    (∀ l ∈ [assignmentLine [13]], l.WellFormed) ∧
      (exec (parse ([assignmentLine [13]].flatMap DocLine.text)) ∅).1 =
        .error (.runtimeError (lit "Bad line nr 1 : a=\rb")) := by
  constructor
  · rw [List.forall_mem_singleton]
    exact wellFormed_assignmentLine (by simp [Blanks, Bootpd.isspace, lineFeed])
  · rfl

end ConfigIni

end Bootpd
