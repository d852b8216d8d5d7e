import Bootpd.AddressTexts
import Bootpd.Arguments
import Bootpd.ConfigDocument
import Bootpd.ConfigIniLines
import Bootpd.LexicalCast

/-!
# `main`: from the command line and the file to two servers

`main` finds the configuration file, parses it, lets the lines behind `-O` override it, and makes
the two servers of what it has then. This module has all of that up to the threads.

## The file

The path is the value of `-C`, or `config.ini`. The three tests in front of the parser throw with
the texts of the source. A file that is there and cannot be opened gives a stream that has failed,
and so an empty configuration. The stream is in text mode, and the parser reads what `textOf` makes
of the file.

## The override

Every value of `-O` is handed to `insert_line`. It has no section, so that it writes to the empty
one, whatever section the file ended in; a line that opens a section opens it for itself. So `-O`
reaches the settings of the servers and not those of the clients. A line that cannot be parsed
throws, and what the lines before it have done stays done.

## The addresses

The two servers read `v4_bind_address` in different ways and listen at one address all the same; the
port that the text may have is replaced in both by the port of the server.

## Main definitions

* `Main.readConfig`, `Main.makeServers`, `Main.servers` — `main` in front of the threads
* `Main.overrides`, `Main.configured` — what the lines behind `-O` and the file amount to
* `Main.ListensAt` — where a server listens

## Main results

* `Main.override_exact` — `-O` does not reach the sections of the clients
* `Main.value_of_readConfig` — what is configured, from the file and the command line
* `Main.same_address` — both servers listen at one address, each at its own port
-/

namespace Bootpd

open Imperative

/-- `address_v4::any()`. -/
def AddressV4.any : AddressV4 := ⟨0, 0⟩

namespace Ifstream

/-- What `getline` gets out of a stream, line by line. -/
def characters (s : Ifstream) : StdString :=
  if s.fail then [] else if s.binary then s.content else textOf s.content

end Ifstream

namespace TftpServerV4

variable (platform : Platform) (cfg : ConfigIni)

/-- `value_or<address_v4>`: the constructor of `address_v4` parses the text. -/
def bindAddress (alternative : AddressV4) : Except Exception AddressV4 :=
  match cfg.value (lit "v4_bind_address") [] with
  | none => .ok alternative
  | some text =>
    match platform.parseAddressAndPort text with
    | .ok (addr, port) => .ok ⟨addr, port⟩
    | .error (.badLexicalCast _) => .ok alternative
    | .error e => .error e

/-- `initialize`: the address to listen on, and the root directory. -/
def initializeServer : Except Exception (AddressV4 × Path) := do
  let address ← bindAddress platform cfg .any
  let port ← (IntegralType.signed .w32).valueOr cfg (lit "tftp_listen_port") [] 69
  return (⟨address.addr, .ofInt port⟩,
    .ofString (cfg.valueOr (lit "tftp_base_dir") [] (lit "./")))

end TftpServerV4

namespace Main

/-! ### `main` -/

/-- The path of the configuration file: the value of `-C`, or `config.ini`. -/
def configPath (args : List StdString) : Except Exception Path :=
  Path.ofString <$> (Arguments.ofArgs args).valueOr (lit "-C") (lit "config.ini")

/-- The three tests of the path. -/
def checkPath (fs : Filesystem) (configPath : Path) : Except Exception Unit := do
  if !(← fs.fileExists configPath) then
    throw (.runtimeError (lit "Unable to find file : " ++ configPath.string))
  if !(← fs.isRegularFile configPath) then
    throw (.runtimeError (lit "Not a regular file : " ++ configPath.string))
  if (← fs.fileSize configPath) < 1 then
    throw (.runtimeError (lit "File is empty : " ++ configPath.string))

/-- The constructor of `config_ini`, and the override. -/
def fill (args : List StdString) (iss : StdString) : Imp ConfigIni Exception Unit := do
  ConfigIni.parse iss
  (Arguments.ofArgs args).overrideConfig

/-- `main` in front of the servers. -/
def readConfig (fs : Filesystem) (args : List StdString) : Except Exception ConfigIni := do
  let configPath ← configPath args
  checkPath fs configPath
  let (result, cfg) := exec (fill args (Ifstream.ofPath fs configPath false).characters) ∅
  result
  return cfg

/-- What the servers have before they are started. -/
structure Servers where
  dhcpAddress : AddressV4
  clients : ClientMapType
  tftpAddress : AddressV4
  tftpBaseDir : Path

/-- The constructors of the two servers, the DHCP server first. -/
def makeServers (platform : Platform) (cfg : ConfigIni) : Except Exception Servers := do
  let (dhcpAddress, clients) ← DhcpServerV4.initializeClients platform cfg
  let (tftpAddress, tftpBaseDir) ← TftpServerV4.initializeServer platform cfg
  return ⟨dhcpAddress, clients, tftpAddress, tftpBaseDir⟩

/-- `main` in front of the threads. -/
def servers (fs : Filesystem) (platform : Platform) (args : List StdString) :
    Except Exception Servers := do
  makeServers platform (← readConfig fs args)

/-! ### The override -/

/-- What is wrong with a line that is inserted. -/
def refusal (line : StdString) : Option Exception :=
  match ConfigIni.saying line with
  | .incomplete e => some e
  | .bad => some (ConfigIni.badLine 0 (ConfigIni.lineCore line))
  | _ => none

/-- The assignment on a line. -/
def directive (line : StdString) : Option (StdString × StdString) :=
  match ConfigIni.saying line with
  | .assignment key val => some (key, val)
  | _ => none

/-- Directives belong to the section without a name. -/
def apply (cfg : ConfigIni) (directives : List (StdString × StdString)) : ConfigIni :=
  directives.foldl (fun cfg d => cfg.assign [] d.1 d.2) cfg

/-- **One line that is inserted.** A header is accepted, and has no effect. -/
theorem exec_insertLine (line : StdString) (cfg : ConfigIni) :
    exec (ConfigIni.insertLine line []) cfg =
      ((refusal line).elim (.ok ()) .error, apply cfg (directive line).toList) := by
  have hdoes := ConfigIni.exec_parseLine line [] 0 cfg
  rw [ConfigIni.insertLine, exec_bind, refusal, directive]
  generalize exec (ConfigIni.parseLine line [] 0) cfg = r at hdoes ⊢
  generalize ConfigIni.saying line = saying at hdoes ⊢
  cases hdoes <;> rfl

/-- The lines up to the first that is refused. -/
def accepted (lines : List StdString) : List StdString :=
  lines.takeWhile fun line => (refusal line).isNone

theorem directive_of_refusal {line : StdString} {e : Exception} (h : refusal line = some e) :
    directive line = none := by
  rw [refusal] at h
  rw [directive]
  cases hsaying : ConfigIni.saying line with
  | assignment key val =>
    rw [hsaying] at h
    cases h
  | _ => rfl

/-- **The lines behind `-O`**: those in front of the first bad one are applied, and that one
throws. -/
theorem exec_insertLines (lines : List StdString) (cfg : ConfigIni) :
    exec (lines.forM fun line => ConfigIni.insertLine line []) cfg =
      ((lines.findSome? refusal).elim (.ok ()) .error,
        apply cfg ((accepted lines).filterMap directive)) := by
  induction lines generalizing cfg with
  | nil => rfl
  | cons line lines ih =>
    have hcons : exec ((line :: lines).forM fun line => ConfigIni.insertLine line []) cfg =
        exec (ConfigIni.insertLine line [] >>= fun _ =>
          lines.forM fun line => ConfigIni.insertLine line []) cfg := rfl
    rw [hcons, exec_bind, exec_insertLine, accepted, List.findSome?_cons]
    cases hrefusal : refusal line with
    | some e =>
      rw [directive_of_refusal hrefusal, List.takeWhile_cons_of_neg (by simp [hrefusal])]
      rfl
    | none =>
      rw [List.takeWhile_cons_of_pos (by simp [hrefusal]), ← accepted, List.filterMap_cons]
      show exec (lines.forM fun line => ConfigIni.insertLine line []) _ = _
      rw [ih]
      cases directive line with
      | none => rfl
      | some d => rfl

/-- The lines behind `-O` on a command line. -/
def overrides (args : List StdString) : List StdString := Grouping.group isOption (lit "-O") args

/-- What a store has in its sections, but for the one without a name. -/
def named (cfg : ConfigIni) : StdString → Option (UnorderedMap StdString StdString) :=
  fun s => if s = [] then none else cfg.lookup s

theorem named_apply (cfg : ConfigIni) (directives : List (StdString × StdString)) :
    named (apply cfg directives) = named cfg := by
  induction directives generalizing cfg with
  | nil => rfl
  | cons d directives ih =>
    refine (ih _).trans (funext fun s => ?_)
    rw [named, named]
    split_ifs with hs
    · rfl
    · exact AList.lookup_insert_ne hs

/-- **The override**, for every command line and every store. Without a value behind any `-O` it
throws; else the first bad directive does, and those in front of it have been assigned by then. The
sections that have names, those of the clients, stay as they are. -/
theorem override_exact (args : List StdString) (cfg : ConfigIni) :
    exec (Arguments.ofArgs args).overrideConfig cfg =
      (if lit "-O" ∈ args ∧ overrides args = [] then
          .error (.outOfRange (lit "unordered_map::at"))
        else ((overrides args).findSome? refusal).elim (.ok ()) .error,
        apply cfg ((accepted (overrides args)).filterMap directive)) ∧
      named (exec (Arguments.ofArgs args).overrideConfig cfg).2 = named cfg := by
  have hexec : exec (Arguments.ofArgs args).overrideConfig cfg = (if lit "-O" ∈ args ∧
      overrides args = [] then .error (.outOfRange (lit "unordered_map::at"))
        else ((overrides args).findSome? refusal).elim (.ok ()) .error,
      apply cfg ((accepted (overrides args)).filterMap directive)) := by
    rw [Arguments.exec_overrideConfig, ← overrides, exec_insertLines]
    by_cases hmem : lit "-O" ∈ args
    · rw [if_neg (not_not_intro hmem)]
      by_cases hnil : overrides args = []
      · rw [if_pos hnil, if_pos ⟨hmem, hnil⟩, hnil]
        rfl
      · rw [if_neg hnil, if_neg fun h => hnil h.2]
    · have hnil : overrides args = [] := by
        by_contra hne
        obtain ⟨arg, -, hpart⟩ := Grouping.group_ne_nil_iff.mp hne
        exact hmem (hpart.subset List.mem_cons_self)
      rw [if_pos hmem, if_neg fun h => hmem h.1, hnil]
      rfl
  exact ⟨hexec, by rw [hexec]; exact named_apply cfg _⟩

/-! ### What is configured -/

open ConfigIni

/-- The value of the last directive for a key. -/
def lastDirective (directives : List (StdString × StdString)) (k : StdString) :
    Option StdString := ((directives.filter fun d => d.1 = k).getLast?).map Prod.snd

theorem value_apply (cfg : ConfigIni) (directives : List (StdString × StdString))
    (s k : StdString) : (apply cfg directives).value k s =
      (if s = [] then lastDirective directives k else none).or (cfg.value k s) := by
  induction directives using List.reverseRecOn with
  | nil => split_ifs <;> rfl
  | append_singleton directives d ih =>
    rw [apply, List.foldl_append, List.foldl_cons, List.foldl_nil, value_assign]
    rw [apply] at ih
    rw [ih, lastDirective, lastDirective, List.filter_append]
    by_cases hs : s = []
    · by_cases hk : k = d.1
      · simp [hs, hk]
      · simp [hs, hk, Ne.symm hk]
    · simp [hs]

/-- The sections stay, and the one without a name may come. -/
theorem mem_sections_apply (cfg : ConfigIni) (directives : List (StdString × StdString))
    {s : StdString} (hs : s ∈ cfg.sections) : s ∈ (apply cfg directives).sections := by
  induction directives generalizing cfg with
  | nil => exact hs
  | cons d directives ih => exact ih _ ((mem_sections_assign ..).mpr (.inr hs))

theorem exec_parse_text {doc : List DocLine} (h : ∀ l ∈ doc, l.WellFormed)
    (hcr : ∀ l ∈ doc, l.core.NoReturn) :
    exec (parse (doc.flatMap DocLine.text)) ∅ = (.ok (), assignAll ∅ (assignments [] doc)) := by
  rw [parse, records_text h]
  exact exec_parseLines h hcr [] 0 ∅

/-- The override goes through. -/
structure Overrides (args : List StdString) : Prop where
  some : lit "-O" ∈ args → overrides args ≠ []
  accepted : ∀ line ∈ overrides args, refusal line = none

/-- What the servers are made from. -/
def configured (doc : List DocLine) (args : List StdString) : ConfigIni :=
  apply (assignAll ∅ (assignments [] doc)) ((overrides args).filterMap directive)

theorem value_configured (doc : List DocLine) (args : List StdString) (s k : StdString) :
    (configured doc args).value k s =
      (if s = [] then lastDirective ((overrides args).filterMap directive) k else none).or
        (lastAssigned (assignments [] doc) s k) := by
  rw [configured, value_apply, value_assignAll]
  congr 1
  exact Option.or_none ..

theorem checkPath_eq_ok_iff {fs : Filesystem} {path : Path} {file : File} {readable : Bool}
    (hfile : fs path = .regular file readable) :
    checkPath fs path = .ok () ↔ file.content ≠ [] := by
  have hsize : UInt64.ofNat file.content.length < 1 ↔ file.content = [] := by
    have hlt := file.size_lt
    rw [UInt64.lt_iff_toNat_lt, UInt64.toNat_ofNat_of_lt' (by simp [UInt64.size]; omega),
      ← List.length_eq_zero_iff]
    exact Nat.lt_one_iff
  rw [checkPath, Filesystem.fileExists, Filesystem.isRegularFile, Filesystem.fileSize, hfile]
  show (if UInt64.ofNat file.content.length < 1 then _ else _) = _ ↔ _
  rw [Ne, ← hsize]
  split_ifs with h
  · refine iff_of_false (fun heq => ?_) (not_not_intro h)
    cases heq
  · exact iff_of_true rfl h

/-- The override, with its outcome. -/
theorem exec_fill {doc : List DocLine} (h : ∀ l ∈ doc, l.WellFormed)
    (hcr : ∀ l ∈ doc, l.core.NoReturn) (args : List StdString) :
    (Overrides args ∧ exec (fill args (doc.flatMap DocLine.text)) ∅ =
      (.ok (), configured doc args)) ∨
    ¬Overrides args ∧ ∃ e cfg, exec (fill args (doc.flatMap DocLine.text)) ∅ = (.error e, cfg) := by
  rw [fill, exec_bind_ok (exec_parse_text h hcr), (override_exact args _).1]
  by_cases hsome : lit "-O" ∈ args ∧ overrides args = []
  · rw [if_pos hsome]
    exact .inr ⟨fun hover => hover.some hsome.1 hsome.2, _, _, rfl⟩
  · rw [if_neg hsome]
    cases hfirst : (overrides args).findSome? refusal with
    | some e =>
      obtain ⟨line, hline, hrefusal⟩ := List.exists_of_findSome?_eq_some hfirst
      refine .inr ⟨fun hover => ?_, e, _, rfl⟩
      cases hrefusal.symm.trans (hover.accepted line hline)
    | none =>
      have hnone := List.findSome?_eq_none_iff.mp hfirst
      have hall : accepted (overrides args) = overrides args :=
        List.takeWhile_eq_self_iff.mpr fun line hline => by simp [hnone line hline]
      rw [hall]
      exact .inl ⟨⟨fun hmem hnil => hsome ⟨hmem, hnil⟩, hnone⟩, rfl⟩

/-- **A configuration file that holds a document**: when `main` gets through, and with what. -/
theorem readConfig_eq_ok_iff {fs : Filesystem} {args : List StdString} {path : Path} {file : File}
    (hpath : configPath args = .ok path) (hfile : fs path = .regular file true)
    {doc : List DocLine} (htext : textOf file.content = doc.flatMap DocLine.text)
    (h : ∀ l ∈ doc, l.WellFormed) (hcr : ∀ l ∈ doc, l.core.NoReturn) (cfg : ConfigIni) :
    readConfig fs args = .ok cfg ↔
      file.content ≠ [] ∧ Overrides args ∧ cfg = configured doc args := by
  have hcharacters : (Ifstream.ofPath fs path false).characters = doc.flatMap DocLine.text := by
    rw [← htext, Ifstream.ofPath, hfile]
    rfl
  rw [readConfig, hpath, ← checkPath_eq_ok_iff hfile]
  show (checkPath fs path >>= fun _ => _) = _ ↔ _
  rw [hcharacters]
  cases checkPath fs path with
  | error e => exact iff_of_false (fun heq => nomatch heq) fun heq => nomatch heq.1
  | ok u =>
    rw [and_iff_right rfl]
    show ((exec (fill args (doc.flatMap DocLine.text)) ∅).1 >>= fun _ =>
      .ok (exec (fill args (doc.flatMap DocLine.text)) ∅).2) = _ ↔ _
    rcases exec_fill h hcr args with ⟨hover, hfill⟩ | ⟨hover, e, cfg', hfill⟩ <;> rw [hfill]
    · rw [and_iff_right hover]
      exact ⟨fun heq => (Except.ok.inj heq).symm, fun heq => congrArg Except.ok heq.symm⟩
    · exact iff_of_false (fun heq => nomatch heq) fun heq => hover heq.1

/-- **What is configured.** `main` gets through with a document if it is not empty and the override
goes through. Then every key of every section has the value the document gives it last, but a
directive of the command line counts more for the section without a name. -/
theorem value_of_readConfig {fs : Filesystem} {args : List StdString} {path : Path} {file : File}
    (hpath : configPath args = .ok path) (hfile : fs path = .regular file true)
    {doc : List DocLine} (htext : textOf file.content = doc.flatMap DocLine.text)
    (h : ∀ l ∈ doc, l.WellFormed) (hcr : ∀ l ∈ doc, l.core.NoReturn) :
    ((∃ cfg, readConfig fs args = .ok cfg) ↔ file.content ≠ [] ∧ Overrides args) ∧
      ∀ cfg, readConfig fs args = .ok cfg → ∀ s k, cfg.value k s =
        (if s = [] then lastDirective ((overrides args).filterMap directive) k else none).or
          (lastAssigned (assignments [] doc) s k) := by
  have hiff := readConfig_eq_ok_iff hpath hfile htext h hcr
  refine ⟨⟨?_, fun hboth => ⟨_, (hiff _).mpr ⟨hboth.1, hboth.2, rfl⟩⟩⟩, fun cfg hcfg s k => ?_⟩
  · rintro ⟨cfg, hcfg⟩
    exact ⟨((hiff cfg).mp hcfg).1, ((hiff cfg).mp hcfg).2.1⟩
  · rw [((hiff cfg).mp hcfg).2.2]
    exact value_configured doc args s k

/-- A file with one client. -/
def sampleText : StdString := lit "[00-1b]\r\nboot_file_name = a\r\n"

theorem length_sampleText : sampleText.length < 2 ^ 63 := by decide

def sampleDocument : List DocLine :=
  [⟨[], .header (lit "00-1b"), [], none, false⟩,
    ⟨[], .assignment (lit "boot_file_name") (lit " ") (lit " ") (lit "a"), [], none, false⟩]

theorem wellFormed_sampleDocument : ∀ l ∈ sampleDocument, l.WellFormed := by
  rw [sampleDocument, List.forall_mem_cons, List.forall_mem_singleton]
  have hblanks : Blanks [] := forall_mem_of_all rfl
  have hblank : Blanks (lit " ") := forall_mem_of_all (by decide)
  refine ⟨⟨hblanks, forall_mem_of_all (by decide), hblanks, by simp⟩,
    ⟨hblanks, ⟨?_, hblank, hblank, ?_⟩, hblanks, by simp⟩⟩
  · refine ⟨by decide, forall_mem_of_all (by decide), ?_, ?_, ?_⟩ <;> rintro c ⟨⟩ <;> decide
  · exact isValue_singleton (by decide) (by decide) (by decide)

theorem noReturn_sampleDocument : ∀ l ∈ sampleDocument, l.core.NoReturn := by
  simp [sampleDocument, Core.NoReturn, lit, carriageReturn]

/-- A disk with nothing but the file. -/
def sampleDisk : Filesystem := fun _ => .regular ⟨sampleText, length_sampleText⟩ true

/-- The file, with a port on the command line. -/
theorem value_of_readConfig_sample : ∃ cfg,
    readConfig sampleDisk [lit "bootpd", lit "-O", lit "tftp_listen_port=6969"] = .ok cfg ∧
      cfg.value (lit "tftp_listen_port") [] = some (lit "6969") ∧
      cfg.value (lit "boot_file_name") (lit "00-1b") = some (lit "a") := by
  have hpath : configPath [lit "bootpd", lit "-O", lit "tftp_listen_port=6969"] =
      .ok (.ofString (lit "config.ini")) := by decide
  have h := value_of_readConfig hpath
    (show sampleDisk _ = .regular ⟨sampleText, length_sampleText⟩ true from rfl)
    (show textOf sampleText = sampleDocument.flatMap DocLine.text by decide +kernel)
    wellFormed_sampleDocument noReturn_sampleDocument
  have hoverrides : overrides [lit "bootpd", lit "-O", lit "tftp_listen_port=6969"] =
      [lit "tftp_listen_port=6969"] := by decide +kernel
  obtain ⟨cfg, hcfg⟩ := h.1.mpr ⟨by decide, by simp [hoverrides], by
    rw [hoverrides, List.forall_mem_singleton]
    decide +kernel⟩
  refine ⟨cfg, hcfg, (h.2 cfg hcfg [] _).trans ?_, (h.2 cfg hcfg (lit "00-1b") _).trans ?_⟩
  · decide +kernel
  · decide +kernel

/-! ### Where the servers listen -/

/-- The ports of the servers, from the keys that are there for them. -/
def ListensAt (cfg : ConfigIni) (result : Servers) : Prop :=
  (∃ n : UInt32, lexicalCast (cfg.valueOr (lit "dhcp_listen_port") [] (lit "67")) = .ok n ∧
    result.dhcpAddress.port = n.toUInt16) ∧
  ∃ n : ℤ, (IntegralType.signed .w32).valueOr cfg (lit "tftp_listen_port") [] 69 = .ok n ∧
    result.tftpAddress.port = .ofInt n

/-- **One address**: whatever the text of `v4_bind_address` is, with a port or without, or a name,
the two servers listen at the address it denotes. Its port counts for neither: each server has the
one of its own key. -/
theorem same_address {platform : Platform} {cfg : ConfigIni} {result : Servers}
    (h : makeServers platform cfg = .ok result)
    (hzero : platform.inetPton (lit "0.0.0.0") = some 0) :
    result.tftpAddress.addr = result.dhcpAddress.addr ∧
      (∃ port, platform.Denotes ((cfg.value (lit "v4_bind_address") []).getD (lit "0.0.0.0"))
        ⟨result.dhcpAddress.addr, port⟩) ∧ ListensAt cfg result := by
  obtain ⟨⟨dhcpAddress, clients⟩, hdhcp, h⟩ := bind_eq_ok h
  obtain ⟨⟨tftpAddress, tftpBaseDir⟩, htftp, h⟩ := bind_eq_ok h
  obtain rfl := Except.ok.inj h
  obtain ⟨dhcpPort, hdhcpPort, hdhcp⟩ := bind_eq_ok hdhcp
  obtain ⟨addr, haddr, hdhcp⟩ := bind_eq_ok hdhcp
  obtain ⟨_, -, hdhcp⟩ := bind_eq_ok hdhcp
  obtain ⟨rfl, -⟩ := Prod.mk.inj (Except.ok.inj hdhcp)
  obtain ⟨address, haddress, htftp⟩ := bind_eq_ok htftp
  obtain ⟨tftpPort, htftpPort, htftp⟩ := bind_eq_ok htftp
  obtain ⟨rfl, -⟩ := Prod.mk.inj (Except.ok.inj htftp)
  obtain ⟨⟨addr', port'⟩, hparse, rfl⟩ := map_eq_ok haddr
  show address.addr = addr' ∧ _
  rw [TftpServerV4.bindAddress] at haddress
  rw [valueOr] at hparse
  refine ⟨?_, ⟨port', (platform.parseAddressAndPort_eq_ok_iff ..).mp hparse⟩,
    ⟨dhcpPort, hdhcpPort, rfl⟩, tftpPort, htftpPort, rfl⟩
  cases htext : cfg.value (lit "v4_bind_address") [] with
  | none =>
    rw [htext] at haddress hparse
    obtain rfl := Except.ok.inj haddress
    have hwildcard : platform.Denotes (lit "0.0.0.0") ⟨0, 0⟩ :=
      .host _ 0 (by decide) (.inl hzero)
    rw [Option.getD_none, (platform.parseAddressAndPort_eq_ok_iff ..).mpr hwildcard] at hparse
    exact (Prod.mk.inj (Except.ok.inj hparse)).1
  | some text =>
    rw [htext] at haddress hparse
    dsimp only [Option.getD_some] at haddress hparse
    rw [hparse] at haddress
    obtain rfl := Except.ok.inj haddress
    rfl

/-- An address with a port, and a port for the first server. -/
def withPorts : ConfigIni :=
  apply ∅ [(lit "v4_bind_address", lit "0.0.0.0:8080"), (lit "dhcp_listen_port", lit "6767")]

/-- The servers of such a configuration. -/
theorem same_address_withPorts : ∃ result,
    makeServers DhcpServerV4.samplePlatform withPorts = .ok result ∧
      result.dhcpAddress = ⟨0, 6767⟩ ∧ result.tftpAddress = ⟨0, 69⟩ ∧
      (result.tftpAddress.addr = result.dhcpAddress.addr ∧
        (∃ port, DhcpServerV4.samplePlatform.Denotes
          ((withPorts.value (lit "v4_bind_address") []).getD (lit "0.0.0.0"))
            ⟨result.dhcpAddress.addr, port⟩) ∧ ListensAt withPorts result) := by
  have haddresses : (makeServers DhcpServerV4.samplePlatform withPorts).map
      (fun result => (result.dhcpAddress, result.tftpAddress)) = .ok (⟨0, 6767⟩, ⟨0, 69⟩) := by
    decide +kernel
  obtain ⟨result, hresult, heq⟩ := map_eq_ok haddresses
  obtain ⟨hdhcp, htftp⟩ := Prod.mk.inj heq
  exact ⟨result, hresult, hdhcp, htftp,
    same_address hresult (by simp [DhcpServerV4.samplePlatform])⟩

end Main

end Bootpd
