import Bootpd.ConfigIniLines
import Bootpd.StringView

/-!
# `parse_line` on views

The line parser as the source has it, on views whose ends it moves: the comment is cut off, the
rest is trimmed and matched, and the quotes around a key and a value are removed. Each operation
on a view is checked here.

## Where a precondition fails

`remove_suffix` and `remove_prefix` are asked for no more than there is wherever the source calls
them behind a search. The exception are the quotes. `front()` is called on a key and on a value
without asking whether there is one, and a single quote is its own front and back, so that two
characters are to be removed from one.

The text in front of a comment ends with its last character that is no blank. So a value is empty
to the parser only if the line ends with its `=`. A key is never empty to it, since the expression
asks for a character in front of the `=`, and the line does not begin with a blank.

## Quotes

Quotes around a value keep its blanks. They do not keep a semicolon, since the comment has been cut
off by then.

## Main definitions

* `ConfigIni.Views.parseLine` — the parser, with every operation on a view checked
* `ConfigIni.Handled`, `ConfigIni.Overruns` — what a line may do, and the lines that do otherwise
* `ConfigIni.quotedLine` — the line that assigns a value in quotes

## Main results

* `ConfigIni.Views.parseLine_eq` — the parser on views is the parser on texts
* `ConfigIni.handled_iff` — the lines of which every part exists
* `ConfigIni.parseLine_quoted_iff` — the values that quotes protect
-/

namespace Bootpd

open Imperative Scanning

namespace ConfigIni

namespace Views

/-! ### The parser -/

/-- The comment is cut off. -/
def removeComment (line : StringView) : Except Exception StringView :=
  match StringView.find line semicolon with
  | some pos => StringView.removeSuffix line (line.length - pos)
  | none => .ok line

/-- `sv.front() == '"' && sv.back() == '"'`. -/
def isQuoted (sv : StringView) : Except Exception Bool := do
  let first ← StringView.front sv
  if first ≠ quote then return false
  let last ← StringView.back sv
  return last == quote

/-- The quotes around a key or a value are removed. -/
def removeQuotes (sv : StringView) : Except Exception StringView := do
  let quoted ← isQuoted sv
  if quoted then
    let sv ← StringView.removePrefix sv 1
    StringView.removeSuffix sv 1
  else return sv

/-- `parse_line`, returning the section that is current afterwards. -/
def parseLine (line : StringView) (sectionName : StdString) (lineNo : ℕ) :
    Imp ConfigIni Exception StdString := do
  let line ← liftExcept (removeComment line)
  let line ← liftExcept (StringView.trim line)
  if line.isEmpty then return sectionName
  match matchSection line with
  | some name => return name
  | none =>
    match matchKvPair line with
    | some (key, val) =>
      let key ← liftExcept (StringView.trim key)
      let key ← liftExcept (removeQuotes key)
      let val ← liftExcept (StringView.trim val)
      let val ← liftExcept (removeQuotes val)
      modify fun cfg => cfg.assign sectionName key val
      return sectionName
    | none =>
      if lineNo ≠ 0 then
        throw (.runtimeError (lit "Bad line nr " ++ toString lineNo ++ lit " : " ++ line))
      throw (.runtimeError (lit "Bad config directive : " ++ line))

theorem removeComment_eq (line : StringView) :
    removeComment line = .ok (line.takeWhile (· != semicolon)) := by
  rw [removeComment, StringView.find]
  have hfun : (fun c : UInt8 => c == semicolon) = fun c => !(c != semicolon) := by
    funext c
    rw [bne, Bool.not_not]
  rw [hfun]
  cases hpos : line.findIdx? fun c => !(c != semicolon) with
  | none =>
    have hall := List.findIdx?_eq_none_iff.mp hpos
    dsimp only
    rw [List.takeWhile_eq_self_iff.mpr fun c hc => by simpa using hall c hc]
  | some pos =>
    obtain ⟨hlt, hi⟩ := List.findIdx?_eq_some_iff_findIdx_eq.mp hpos
    dsimp only
    rw [StringView.removeSuffix_eq line (Nat.sub_le ..), Nat.sub_sub_self hlt.le,
      List.takeWhile_eq_take_findIdx_not, hi]

theorem removeQuotes_eq (sv : StringView) : removeQuotes sv = stripQuotes sv := by
  cases sv with
  | nil => rfl
  | cons c s =>
    have hlast : (c :: s).getLast? = some ((c :: s).getLast (List.cons_ne_nil c s)) :=
      List.getLast?_eq_some_getLast _
    have hquoted : isQuoted (c :: s) =
        .ok (decide (c = quote ∧ (c :: s).getLast? = some quote)) := by
      rw [isQuoted, StringView.front, StringView.back, hlast]
      by_cases hc : c = quote
      · simp [hc, bind, Except.bind, pure, Except.pure, Bool.beq_eq_decide_eq]
      · simp [hc, bind, Except.bind, pure, Except.pure]
    rw [removeQuotes, hquoted, stripQuotes]
    by_cases hq : c = quote ∧ (c :: s).getLast? = some quote
    · rw [if_pos hq, decide_eq_true hq]
      dsimp only [bind, Except.bind]
      rw [if_pos rfl, StringView.removePrefix_eq (c :: s) (by simp)]
      cases s with
      | nil => rfl
      | cons d s =>
        dsimp only
        rw [StringView.removeSuffix_eq _ (by simp), List.dropLast_eq_take]
        rfl
    · rw [if_neg hq, decide_eq_false hq]
      rfl

/-- **The parser on views** is the parser on texts. -/
theorem parseLine_eq : Views.parseLine = ConfigIni.parseLine := by
  funext line sectionName lineNo
  rw [parseLine, removeComment_eq, liftExcept_ok_bind, StringView.trim_eq, liftExcept_ok_bind]
  simp only [StringView.trim_eq, removeQuotes_eq, liftExcept_ok_bind]
  rfl

end Views

/-! ### What a line does -/

variable {line core key val : StdString} {cfg : ConfigIni} {sectionName : StdString} {lineNo : ℕ}

/-- **What a line may do**: nothing, or change the section, or store a value, or be refused with
one of two messages. -/
inductive Handled (sectionName : StdString) (lineNo : ℕ) (cfg : ConfigIni) :
    Except Exception StdString × ConfigIni → Prop
  | skipped : Handled sectionName lineNo cfg (.ok sectionName, cfg)
  | header (name : StdString) : Handled sectionName lineNo cfg (.ok name, cfg)
  | stored (key val : StdString) :
    Handled sectionName lineNo cfg (.ok sectionName, cfg.assign sectionName key val)
  | badLine (text : StdString) : lineNo ≠ 0 → Handled sectionName lineNo cfg
    (.error (.runtimeError (lit "Bad line nr " ++ toString lineNo ++ lit " : " ++ text)), cfg)
  | badDirective (text : StdString) : lineNo = 0 → Handled sectionName lineNo cfg
    (.error (.runtimeError (lit "Bad config directive : " ++ text)), cfg)

/-- **An assignment that lacks a part**: it ends with its `=`, or its value or its key is one
quote. -/
inductive Overruns : StdString → Prop
  | noValue {key : StdString} (hkey : key ≠ []) (hequals : equalsSign ∉ key) :
    Overruns (key ++ [equalsSign])
  | quoteValue {key blank : StdString} (hkey : key ≠ []) (hequals : equalsSign ∉ key)
    (hblank : ∀ c ∈ blank, isspace c = true ∧ notLineTerminator c = true) :
    Overruns (key ++ equalsSign :: (blank ++ [quote]))
  | quoteKey {blank value : StdString} (hblank : ∀ c ∈ blank, isspace c = true)
    (hvalue : value.all notLineTerminator = true) :
    Overruns (quote :: (blank ++ equalsSign :: value))

/-- A core has no blanks at its ends. So neither has the key at its front or the value at its
back, and the two trimmings leave nothing behind that the line does not show. -/
theorem overruns_of_kvPair (htight : Tight isspace core)
    (hmatch : matchKvPair core = some (key, val))
    (h : (trim key = [] ∨ trim key = [quote]) ∨ trim val = [] ∨ trim val = [quote]) :
    Overruns core := by
  obtain ⟨rfl, hequals, hkey, hval⟩ := matchKvPair_eq_some_iff.mp hmatch
  have hhead : ∀ c ∈ key.head?, isspace c = false := by
    intro c hc
    refine htight.1 c ?_
    rw [List.head?_append, Option.mem_def.mp hc]
    rfl
  have hlast : ∀ c ∈ val.getLast?, isspace c = false := by
    intro c hc
    refine htight.2 c ?_
    rw [List.getLast?_append, List.getLast?_cons, Option.mem_def.mp hc]
    rfl
  obtain ⟨after, hafter, hblank⟩ := exists_eq_trim_append hhead
  obtain ⟨before, hbefore, hblank'⟩ := exists_eq_append_trim_of_getLast hlast
  rw [← trim] at hafter hbefore
  rcases h with (h | h) | h | h
  · rw [h, List.nil_append] at hafter
    obtain ⟨c, key, rfl⟩ := List.exists_cons_of_ne_nil hkey
    have hc := hblank c (by rw [← hafter]; exact List.mem_cons_self)
    rw [hhead c rfl] at hc
    cases hc
  · rw [hafter, h]
    exact .quoteKey hblank hval
  · rw [h, List.append_nil] at hbefore
    rcases List.eq_nil_or_concat' val with rfl | ⟨val, c, rfl⟩
    · exact .noValue hkey hequals
    · have hc := hblank' c (by rw [← hbefore]; simp)
      rw [hlast c List.getLast?_concat] at hc
      cases hc
  · rw [hbefore, h] at hval ⊢
    refine .quoteValue hkey hequals fun c hc => ⟨hblank' c hc, ?_⟩
    exact List.all_eq_true.mp hval c (List.mem_append_left _ hc)

/-- And an assignment that lacks a part is matched as one. -/
theorem Overruns.exists_kvPair (h : Overruns core) :
    core ≠ [] ∧ matchSection core = none ∧ ∃ key val, matchKvPair core = some (key, val) ∧
      (trim key = [quote] ∨ trim val = [] ∨ trim val = [quote]) := by
  have hquote : Tight isspace [quote] := by
    constructor
    · rintro c ⟨⟩
      rfl
    · rintro c ⟨⟩
      rfl
  cases h with
  | @noValue key hkey hequals =>
    refine ⟨by simp, matchSection_eq_none (c := equalsSign) (by simp) (by decide), key, [], ?_, ?_⟩
    · exact matchKvPair_eq_some_iff.mpr ⟨rfl, hequals, hkey, rfl⟩
    · exact .inr (.inl rfl)
  | @quoteValue key blank hkey hequals hblank =>
    have hlast : (key ++ equalsSign :: (blank ++ [quote])).getLast? = some quote := by
      rw [← List.cons_append, ← List.append_assoc, List.getLast?_concat]
    refine ⟨by simp, matchSection_eq_none hlast (by decide), key, blank ++ [quote], ?_, ?_⟩
    · refine matchKvPair_eq_some_iff.mpr ⟨rfl, hequals, hkey, ?_⟩
      rw [List.all_append, List.all_eq_true.mpr fun c hc => (hblank c hc).2]
      rfl
    · have htrim := trim_append (b := []) (fun c hc => (hblank c hc).1) (by simp) hquote
      rw [List.append_nil] at htrim
      exact .inr (.inr htrim)
  | @quoteKey blank value hblank hvalue =>
    have hequals : equalsSign ∉ quote :: blank := by
      rw [List.mem_cons, not_or]
      exact ⟨by decide, notMem_of_isspace hblank (by decide)⟩
    have hsection : matchSection (quote :: (blank ++ equalsSign :: value)) = none := by
      rw [matchSection]
      exact if_neg fun hc => absurd hc.1 (by decide)
    refine ⟨by simp, hsection, quote :: blank, value, ?_, ?_⟩
    · exact matchKvPair_eq_some_iff.mpr ⟨rfl, hequals, by simp, hvalue⟩
    · exact .inl (trim_append (a := []) (by simp) hblank hquote)

/-- An assignment is incomplete when it lacks a part. -/
theorem saying_eq_incomplete_iff (line : StdString) :
    (∃ e, saying line = .incomplete e) ↔ Overruns (lineCore line) := by
  have htight : Tight isspace (lineCore line) := tight_trim isspace _
  constructor
  · rintro ⟨e, h⟩
    rw [saying] at h
    split_ifs at h with hcore
    split at h
    · cases h
    · split at h
      · cases h
      · rename_i key val hmatch
        rcases stripQuotes_cases (trim key) with ⟨hkey, -⟩ | ⟨-, key', hkey⟩
        · exact overruns_of_kvPair htight hmatch (.inl hkey)
        · rcases stripQuotes_cases (trim val) with ⟨hval, -⟩ | ⟨-, val', hval⟩
          · exact overruns_of_kvPair htight hmatch (.inr hval)
          · rw [hkey, hval] at h
            cases h
  · intro hover
    obtain ⟨hcore, hsection, key, val, hmatch, hmissing⟩ := hover.exists_kvPair
    rw [saying, if_neg hcore, hsection, hmatch]
    dsimp only
    rcases stripQuotes_cases (trim key) with ⟨-, what, hkey⟩ | ⟨hkey, key', hkey'⟩
    · rw [hkey]
      exact ⟨_, rfl⟩
    · rw [hkey']
      rcases stripQuotes_cases (trim val) with ⟨-, what, hval⟩ | ⟨hval, -⟩
      · rw [hval]
        exact ⟨_, rfl⟩
      · rcases hmissing with h | h
        · exact absurd (.inr h) hkey
        · exact absurd h hval

/-- **Which lines are handled.** For every line, on its own or out of a file: no access is out of
range, and the line is skipped, changes the section, is stored or is refused with its message, if
and only if it is no assignment that lacks a part. -/
theorem handled_iff (line sectionName : StdString) (lineNo : ℕ) (cfg : ConfigIni) :
    Handled sectionName lineNo cfg (exec (Views.parseLine line sectionName lineNo) cfg) ↔
      ¬Overruns (lineCore line) := by
  have hdoes := exec_parseLine line sectionName lineNo cfg
  rw [Views.parseLine_eq, ← saying_eq_incomplete_iff]
  generalize exec (ConfigIni.parseLine line sectionName lineNo) cfg = r at hdoes
  generalize saying line = what at hdoes
  cases hdoes with
  | nothing => exact iff_of_true .skipped (by simp)
  | header name => exact iff_of_true (.header name) (by simp)
  | assignment key val => exact iff_of_true (.stored key val) (by simp)
  | incomplete what => exact iff_of_false (by rintro ⟨⟩) (by simp)
  | bad =>
    refine iff_of_true ?_ (by simp)
    rw [badLine]
    split_ifs with hlineNo
    · exact .badLine _ hlineNo
    · exact .badDirective _ (not_not.mp hlineNo)

/-- A key without a value: the parser looks at the front of an empty view. -/
theorem not_handled_noValue :
    exec (Views.parseLine (lit "key =") [] 1) ∅ =
        (.error (.undefinedBehaviour (lit "string_view::front")), ∅) ∧
      ¬Handled [] 1 ∅ (exec (Views.parseLine (lit "key =") [] 1) ∅) := by
  have hrun : exec (Views.parseLine (lit "key =") [] 1) ∅ =
      (.error (.undefinedBehaviour (lit "string_view::front")), ∅) := by
    rfl
  refine ⟨hrun, ?_⟩
  rw [hrun]
  rintro ⟨⟩

/-! ### Quoted values -/

/-- A key without any character that has a meaning of its own. -/
structure IsPlainKey (key : StdString) : Prop where
  ne_nil : key ≠ []
  plain : ∀ c ∈ key, c ≠ equalsSign ∧ c ≠ semicolon ∧ c ≠ quote ∧ c ≠ leftBracket ∧
    c ≠ rightBracket ∧ c ≠ carriageReturn ∧ c ≠ lineFeed
  tight : Tight isspace key

/-- A value that can stand between quotes on one line. -/
def IsQuotable (value : StdString) : Prop :=
  ∀ c ∈ value, c ≠ quote ∧ c ≠ carriageReturn ∧ c ≠ lineFeed

/-- The line `key = "value"`. -/
def quotedLine (key value : StdString) : StdString :=
  assignmentText key [32] [32] (quote :: (value ++ [quote]))

variable {value : StdString}

theorem IsPlainKey.isKey (h : IsPlainKey key) : IsKey key where
  ne_nil := h.ne_nil
  plain c hc := by
    obtain ⟨hequals, hsemicolon, -, -, -, hreturn, hfeed⟩ := h.plain c hc
    exact ⟨hequals, hsemicolon, hreturn, hfeed⟩
  head c hc := by
    obtain ⟨-, -, hquote, hbracket, -⟩ := h.plain c (List.mem_of_mem_head? hc)
    exact ⟨hbracket, hquote⟩
  tight := h.tight

/-- An assignment with one blank on each side of its `=`, in front of a comment or nothing. -/
theorem exec_parseLine_quote (hkey : IsPlainKey key) {text rest : StdString}
    (htext : ∀ c ∈ text, c ≠ semicolon ∧ c ≠ carriageReturn ∧ c ≠ lineFeed)
    (htight : Tight isspace (quote :: text))
    (hrest : ∀ c ∈ rest.takeWhile (· != semicolon), isspace c = true)
    (sectionName : StdString) (lineNo : ℕ) (cfg : ConfigIni) :
    exec (Views.parseLine (assignmentText key [32] [32] (quote :: text) ++ rest) sectionName lineNo)
      cfg = andThen (stripQuotes (quote :: text), cfg) fun value cfg =>
        (.ok sectionName, cfg.assign sectionName key value) := by
  have hsemicolon : semicolon ∉ assignmentText key [32] [32] (quote :: text) := by
    simp only [assignmentText, List.mem_append, List.mem_cons, List.not_mem_nil, or_false, not_or]
    refine ⟨fun h => (hkey.plain _ h).2.1 rfl, by decide, by decide, by decide, by decide, ?_⟩
    exact fun h => (htext _ h).1 rfl
  have hwraps : Wraps [] (assignmentText key [32] [32] (quote :: text)) rest := by
    refine ⟨by simp, hsemicolon, ?_, hrest⟩
    have h := tight_of_append hkey.ne_nil hkey.tight (by simp) htight [32, equalsSign, 32]
    exact h
  have hterminator : ∀ c ∈ quote :: text, notLineTerminator c = true := by
    rw [List.forall_mem_cons]
    refine ⟨by decide, fun c hc => ?_⟩
    obtain ⟨-, hreturn, hfeed⟩ := htext c hc
    simp [notLineTerminator, hreturn, hfeed]
  have hblank : ∀ c ∈ ([32] : StdString), isspace c = true ∧ notLineTerminator c = true :=
    forall_mem_of_all (by decide)
  rw [Views.parseLine_eq]
  exact exec_parseLine_assignmentText hkey.isKey htight hterminator
    (fun c hc => (hblank c hc).1) hblank hwraps lineNo

/-- Without a semicolon the value is read back. -/
theorem exec_parseLine_quotedLine (hkey : IsPlainKey key) (hvalue : IsQuotable value)
    (hsemicolon : semicolon ∉ value) (sectionName : StdString) (lineNo : ℕ) (cfg : ConfigIni) :
    exec (Views.parseLine (quotedLine key value) sectionName lineNo) cfg =
      (.ok sectionName, cfg.assign sectionName key value) := by
  have htext : ∀ c ∈ value ++ [quote], c ≠ semicolon ∧ c ≠ carriageReturn ∧ c ≠ lineFeed := by
    intro c hc
    rcases List.mem_append.mp hc with hc | hc
    · exact ⟨fun h => hsemicolon (h ▸ hc), (hvalue c hc).2⟩
    · rw [List.mem_singleton.mp hc]
      decide
  have htight : Tight isspace (quote :: (value ++ [quote])) := by
    refine ⟨by rintro c ⟨⟩; rfl, fun c hc => ?_⟩
    rw [← List.cons_append, List.getLast?_concat] at hc
    cases hc
    rfl
  have hstrip : stripQuotes (quote :: (value ++ [quote])) = .ok value := by
    rw [stripQuotes, if_pos ⟨rfl, by rw [← List.cons_append, List.getLast?_concat]⟩,
      if_neg (by simp), List.dropLast_concat]
  have hrest : ∀ c ∈ ([] : StdString).takeWhile (· != semicolon), isspace c = true := by simp
  have hrun := exec_parseLine_quote hkey htext htight hrest sectionName lineNo cfg
  rwa [List.append_nil, hstrip] at hrun

/-- A quote that is not closed stays. -/
theorem stripQuotes_of_open {text : StdString} (hne : text ≠ []) (hquote : quote ∉ text) :
    stripQuotes (quote :: text) = .ok (quote :: text) := by
  rw [stripQuotes]
  refine if_neg fun h => hquote ?_
  rw [List.getLast?_cons_of_ne_nil hne] at h
  exact List.mem_of_getLast? h.2

/-- With one, the comment begins there: what is in front of it keeps its quote, unless it is
nothing else. -/
theorem exec_parseLine_quotedLine_of_semicolon (hkey : IsPlainKey key)
    (hvalue : IsQuotable value) (hsemicolon : semicolon ∈ value) (sectionName : StdString)
    (lineNo : ℕ) (cfg : ConfigIni) :
    (∃ what, exec (Views.parseLine (quotedLine key value) sectionName lineNo) cfg =
        (.error (.undefinedBehaviour what), cfg)) ∨
      ∃ text, exec (Views.parseLine (quotedLine key value) sectionName lineNo) cfg =
        (.ok sectionName, cfg.assign sectionName key (quote :: text)) := by
  obtain ⟨shown, hidden, rfl, hshown⟩ := List.eq_append_cons_of_mem hsemicolon
  obtain ⟨blank, happend, hblank⟩ := exists_eq_trim_append (p := isspace) (l := quote :: shown)
    (by rintro c ⟨⟩; rfl)
  have htight := tight_trim isspace (quote :: shown)
  -- the quote is no blank, so it is the first character of what is left
  cases htrim : Scanning.trim isspace (quote :: shown) with
  | nil =>
    rw [htrim, List.nil_append] at happend
    exact absurd (hblank quote (by rw [← happend]; exact List.mem_cons_self)) (by decide)
  | cons c text =>
    rw [htrim, List.cons_append] at happend
    rw [htrim] at htight
    obtain ⟨rfl, rfl⟩ := List.cons.inj happend
    have hline : quotedLine key (text ++ blank ++ semicolon :: hidden) =
        assignmentText key [32] [32] (quote :: text) ++
          (blank ++ semicolon :: (hidden ++ [quote])) := by
      simp [quotedLine, assignmentText]
    have htext : ∀ c ∈ text, c ≠ semicolon ∧ c ≠ carriageReturn ∧ c ≠ lineFeed := by
      intro c hc
      have hquotable := hvalue c (by simp [hc])
      exact ⟨fun h => hshown (h ▸ List.mem_append_left _ hc), hquotable.2⟩
    have hrest : ∀ c ∈ (blank ++ semicolon :: (hidden ++ [quote])).takeWhile (· != semicolon),
        isspace c = true := by
      rw [takeWhile_ne_cons fun h => hshown (List.mem_append_right _ h)]
      exact hblank
    rw [hline, exec_parseLine_quote hkey htext htight hrest]
    by_cases hnil : text = []
    · rw [hnil]
      exact .inl ⟨_, rfl⟩
    · rw [stripQuotes_of_open hnil fun h => (hvalue quote (by simp [h])).1 rfl]
      exact .inr ⟨text, rfl⟩

/-- **What quotes protect.** For every key without special characters and every value that can
stand between quotes, parsing the line stores the value as it is in the current section if and
only if the value has no semicolon. -/
theorem parseLine_quoted_iff (hkey : IsPlainKey key) (hvalue : IsQuotable value)
    (sectionName : StdString) (lineNo : ℕ) (cfg : ConfigIni) :
    exec (Views.parseLine (quotedLine key value) sectionName lineNo) cfg =
        (.ok sectionName, cfg.assign sectionName key value) ↔ semicolon ∉ value := by
  constructor
  · intro hstored hsemicolon
    rcases exec_parseLine_quotedLine_of_semicolon hkey hvalue hsemicolon sectionName lineNo cfg with
      ⟨what, hrun⟩ | ⟨text, hrun⟩
    · rw [hrun] at hstored
      cases hstored
    · rw [hrun] at hstored
      have hvalues := congrArg (fun cfg => ConfigIni.value cfg key sectionName)
        (Prod.mk.inj hstored).2
      simp only [value_assign, and_self, if_true, Option.some.injEq] at hvalues
      exact (hvalue quote (by rw [← hvalues]; exact List.mem_cons_self)).1 rfl
  · intro hsemicolon
    exact exec_parseLine_quotedLine hkey hvalue hsemicolon sectionName lineNo cfg

theorem parseLine_quoted_blanks :
    exec (Views.parseLine (quotedLine (lit "k") (lit " a=[b] ")) (lit "s") 1) ∅ =
      (.ok (lit "s"), ConfigIni.assign ∅ (lit "s") (lit "k") (lit " a=[b] ")) := by
  have htight : Tight isspace (lit "k") := ⟨by rintro c ⟨⟩; rfl, by rintro c ⟨⟩; rfl⟩
  have hkey : IsPlainKey (lit "k") := ⟨by decide, forall_mem_of_all (by decide), htight⟩
  have hvalue : IsQuotable (lit " a=[b] ") := forall_mem_of_all (by decide)
  exact (parseLine_quoted_iff hkey hvalue _ _ _).mpr (by decide)

/-- A quoted semicolon: the rest of the value is gone, and its first quote is part of it. -/
theorem parseLine_quoted_semicolon :
    quotedLine (lit "k") (lit "v;w") = lit "k = \"v;w\"" ∧
      exec (Views.parseLine (lit "k = \"v;w\"") (lit "s") 1) ∅ =
        (.ok (lit "s"), ConfigIni.assign ∅ (lit "s") (lit "k") (lit "\"v")) ∧
      exec (Views.parseLine (lit "k = \"v;w\"") (lit "s") 1) ∅ ≠
        (.ok (lit "s"), ConfigIni.assign ∅ (lit "s") (lit "k") (lit "v;w")) := by
  have hrun : exec (Views.parseLine (lit "k = \"v;w\"") (lit "s") 1) ∅ =
      (.ok (lit "s"), ConfigIni.assign ∅ (lit "s") (lit "k") (lit "\"v")) := by
    rfl
  refine ⟨by decide, hrun, ?_⟩
  rw [hrun]
  intro h
  have hvalue := congrArg (fun cfg => ConfigIni.value cfg (lit "k") (lit "s")) (Prod.mk.inj h).2
  simp only [value_assign, and_self, if_true, Option.some.injEq] at hvalue
  revert hvalue
  decide

end ConfigIni

end Bootpd
