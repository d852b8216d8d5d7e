import Bootpd.DhcpConfiguration
import Bootpd.DhcpOptionsValues

/-!
# Texts in `dhcp_options_v4`

`set(code, text)` makes a buffer as long as the string object. A longer text does not fit and the
writer throws, a shorter one is followed by zeros. Three options of a client are made so: the host
name, the domain name and the boot file.

## The size of a string object

It is `sizeof(std::string)` for two of the texts and `sizeof(std::string_view)` for the third, and
is decided by the compiler and the library. `Platform` has both, and nothing is assumed about them
but what a buffer can hold. So the statement is about every size, and says that the option is the
text exactly when the text is as long as the object. With the sizes of the usual libraries no host
name of another length is sent as it is written.

`initialize` stops at the first text that is too long, and the server does not start. For a
configuration it has to be said of every section, and of keys besides the texts only that they can
be parsed.

## Main definitions

* `fitText` — what an entry holds behind `set`
* `DhcpOptionsV4.StoresText` — the option is the text, and no other changes
* `DhcpServerV4.textOptions`, `DhcpServerV4.KeepsTexts` — the three texts, and that all arrive

## Main results

* `DhcpOptionsV4.exec_setArgs_text` — what `set` does with a text
* `DhcpOptionsV4.storesText_iff_length_eq` — when the option is the text
* `DhcpServerV4.keepsTexts_iff_exactTexts` — when the table of clients has the configured texts
-/

namespace Bootpd

open Imperative

namespace DhcpOptionsV4

variable {options : DhcpOptionsV4} {code : UInt8} {i : Fin 254} {size : ℕ} {text : StdString}

/-! ### One option -/

theorem exec_writeAll_singleton (arg : Argument) (s : SerdesWriter .network) :
    exec (Argument.writeAll [arg]) s = exec arg.write s := by
  have hone : Argument.writeAll [arg] = arg.write >>= fun _ => pure () := rfl
  rw [hone, exec_bind]
  rcases exec arg.write s with ⟨_ | _, s'⟩ <;> rfl

theorem totalSize_text (size : ℕ) (text : StdString) :
    Argument.totalSize [.text size text] = size := by
  simp [Argument.totalSize, Argument.text]

/-- What the entry holds after `set`: the text, cut or filled up with zeros. -/
def fitText (size : ℕ) (text : StdString) : StdString :=
  text.take size ++ List.replicate (size - text.length) 0

/-- **`set` with a text.** A text that does not fit leaves its front in the entry. -/
theorem exec_setArgs_text (options : DhcpOptionsV4) (text : StdString) (hsize : size ≤ 255)
    (hi : slot code = .ok i) :
    ∃ hle, exec (setArgs code [.text size text]) options =
      (if text.length ≤ size then .ok true else .error SerdesWriter.notEnoughSpace,
        options.put i ⟨fitText size text, hle⟩) := by
  have htotal : Argument.totalSize [.text size text] ≤ 255 := by rwa [totalSize_text]
  by_cases hlen : text.length ≤ size
  · have hrun : exec (Argument.writeAll [.text size text])
        ⟨[], List.replicate (Argument.totalSize [.text size text]) 0⟩ =
        (.ok (), ⟨text, List.replicate (size - text.length) 0⟩) := by
      have hemits := SerdesWriter.emits_bytes (o := .network) text ⟨[], List.replicate size 0⟩
        (by rwa [List.length_replicate])
      rw [List.nil_append, List.drop_replicate] at hemits
      rw [exec_writeAll_singleton, totalSize_text]
      exact hemits
    obtain ⟨hle, hset⟩ := @exec_setArgs options code i _ htotal hi _ _ _ hrun
    have hfit : fitText size text = text ++ List.replicate (size - text.length) 0 := by
      rw [fitText, List.take_of_length_le hlen]
    refine ⟨by rwa [hfit], ?_⟩
    rw [hset, if_pos hlen]
    simp only [hfit]
    rfl
  · have hrun : exec (Argument.writeAll [.text size text])
        ⟨[], List.replicate (Argument.totalSize [.text size text]) 0⟩ =
        (.error SerdesWriter.notEnoughSpace, ⟨text.take size, []⟩) := by
      have hthrows := SerdesWriter.exec_bytes_of_lt (o := .network) text
        ⟨[], List.replicate size 0⟩ (by rw [List.length_replicate]; omega)
      rw [List.nil_append, List.length_replicate] at hthrows
      rw [exec_writeAll_singleton, totalSize_text]
      exact hthrows
    obtain ⟨hle, hset⟩ := @exec_setArgs options code i _ htotal hi _ _ _ hrun
    have hfit : fitText size text = text.take size ++ [] := by
      rw [fitText, Nat.sub_eq_zero_of_le (by omega), List.replicate_zero]
    refine ⟨by rwa [hfit], ?_⟩
    rw [hset, if_neg hlen]
    simp only [hfit]
    rfl

/-- `set` refuses an object that is too large. -/
theorem exec_setArgs_text_of_lt (options : DhcpOptionsV4) (text : StdString)
    (hsize : 255 < size) :
    exec (setArgs code [.text size text]) options = (.ok false, options) := by
  have htotal : ¬Argument.totalSize [.text size text] ≤ 255 := by
    rw [totalSize_text]
    omega
  rw [setArgs, dif_neg htotal]
  rfl

/-- `initialize_client` keeps no table a throw leaves behind. -/
theorem setText_eq (options : DhcpOptionsV4) (hcode : HasSlot code) (size : ℕ)
    (text : StdString) :
    options.setText code size text =
      (fun _ => (exec (setArgs code [.text size text]) options).2) <$>
        (exec (setArgs code [.text size text]) options).1 := by
  obtain ⟨i, hi, -⟩ := slot_eq_ok hcode
  by_cases hsize : size ≤ 255
  · obtain ⟨hle, hset⟩ := exec_setArgs_text options text hsize hi
    rw [setText, dif_pos hsize, hi, hset]
    by_cases hlen : text.length ≤ size
    · rw [if_pos hlen]
      simp only [fitText, List.take_of_length_le hlen, bind, Except.bind, dif_pos hlen]
      rfl
    · rw [if_neg hlen]
      simp only [bind, Except.bind, dif_neg hlen]
      rfl
  · rw [setText, dif_neg hsize, exec_setArgs_text_of_lt options text (Nat.lt_of_not_le hsize)]
    rfl

/-- `set(code, text)` returns true, the option is the text, and no other option changes. -/
def StoresText (options : DhcpOptionsV4) (code : UInt8) (size : ℕ) (text : StdString) : Prop :=
  ∃ options', exec (setArgs code [.text size text]) options = (.ok true, options') ∧
    options'.get code = .ok text ∧
    ∀ code', code' ≠ code → options'.get code' = options.get code'

theorem fitText_eq_iff (size : ℕ) (text : StdString) :
    fitText size text = text ↔ text.length = size := by
  constructor
  · intro h
    have hlength := congrArg List.length h
    rw [fitText, List.length_append, List.length_take, List.length_replicate] at hlength
    omega
  · rintro rfl
    rw [fitText, List.take_length, Nat.sub_self, List.replicate_zero, List.append_nil]

/-- **When an option is the text**: when the text is exactly as long as its string object. -/
theorem storesText_iff_length_eq (options : DhcpOptionsV4) (hcode : HasSlot code)
    (hlen : text.length ≤ 255) : StoresText options code size text ↔ text.length = size := by
  obtain ⟨i, hi, rfl⟩ := slot_eq_ok hcode
  constructor
  · rintro ⟨options', hset, hget, -⟩
    by_cases hsize : size ≤ 255
    · obtain ⟨hle, hrun⟩ := exec_setArgs_text options text hsize hi
      obtain ⟨-, rfl⟩ := Prod.mk.inj (hrun.symm.trans hset)
      rw [get_codeOf, values_put] at hget
      exact (fitText_eq_iff size text).mp (Except.ok.inj hget)
    · rw [exec_setArgs_text_of_lt options text (Nat.lt_of_not_le hsize)] at hset
      cases hset
  · intro hsize
    obtain ⟨hle, hrun⟩ := exec_setArgs_text options text (hsize ▸ hlen) hi
    rw [if_pos hsize.le] at hrun
    refine ⟨_, hrun, ?_, fun code' h => get_put_of_ne _ _ h⟩
    rw [get_codeOf, values_put]
    exact congrArg Except.ok ((fitText_eq_iff size text).mpr hsize)

/-! ### Setting an entry, when it works -/

theorem setNumber_eq_ok (options : DhcpOptionsV4) (arg : UInt32) (hi : slot code = .ok i) :
    options.setNumber code arg = .ok (options.store i (some (numberBuffer arg))) := by
  rw [setNumber, set, dif_pos (by simp [Scalar.size]), hi]
  rfl

theorem setText_eq_ok (options : DhcpOptionsV4) (hi : slot code = .ok i)
    (hlen : text.length ≤ size) :
    options.setText code size text = .ok (options.store i (textBuffer size text)) := by
  rw [setText]
  by_cases hsize : size ≤ 255
  · rw [dif_pos hsize, hi, textBuffer, dif_pos ⟨hsize, hlen⟩]
    simp only [bind, Except.bind, dif_pos hlen]
    rfl
  · rw [dif_neg hsize, textBuffer, dif_neg fun h => hsize h.1]
    rfl

/-- The entry of a text that is exactly as long as its object. -/
theorem map_bytes_textBuffer_iff (hlen : text.length ≤ 255) :
    (textBuffer size text).map OptionBuffer.bytes = some text ↔ text.length = size := by
  constructor
  · intro h
    by_cases hfit : size ≤ 255 ∧ text.length ≤ size
    · rw [textBuffer, dif_pos hfit, Option.map_some] at h
      have hlength := congrArg List.length (Option.some.inj h)
      rw [List.length_append, List.length_replicate] at hlength
      omega
    · rw [textBuffer, dif_neg hfit] at h
      cases h
  · rintro rfl
    rw [textBuffer, dif_pos ⟨hlen, le_rfl⟩, Option.map_some]
    simp

end DhcpOptionsV4

/-! ### The texts of a client -/

namespace DhcpServerV4

open DhcpOptionsV4

variable {platform : Platform} {cfg : ConfigIni} {sectionName : StdString} {params : OfferParams}

/-- An option made from a text: its entry, the key of the text, and the size of the object. -/
structure TextOption where
  i : Fin 254
  keyname : String
  size : ℕ

/-- The host name, the domain name and the boot file. -/
def textOptions (platform : Platform) : List TextOption :=
  [⟨⟨11, by decide⟩, "server_host_name", platform.sizeofString⟩,
    ⟨⟨14, by decide⟩, "domain_name", platform.sizeofStringView⟩,
    ⟨⟨66, by decide⟩, "boot_file_name", platform.sizeofString⟩]

/-- Every configured text satisfies `P`. -/
def ForConfigured (platform : Platform) (cfg : ConfigIni) (sectionName : StdString)
    (P : TextOption → StdString → Prop) : Prop :=
  ∀ option ∈ textOptions platform, ∀ text,
    cfg.value (lit option.keyname) sectionName = some text → P option text

/-- The other keys of a section: what is parsed can be parsed. -/
structure Accepted (platform : Platform) (cfg : ConfigIni) (sectionName : StdString) : Prop where
  addresses : ∀ keyname ∈ ["v4_client_address", "v4_your_address", "v4_gateway_address",
      "v4_subnet_mask"],
    ∃ address, addressOr platform cfg sectionName keyname (lit "0.0.0.0") = .ok address
  servers : ∃ serverAddress server,
    addressOr platform cfg sectionName "v4_server_address" (lit "0.0.0.0") = .ok serverAddress ∧
    platform.inetNtop serverAddress = .ok server ∧
    ∀ keyname ∈ ["v4_router_address", "v4_log_server_address", "v4_dhcp_server_address"],
      ∃ address, addressOr platform cfg sectionName keyname server = .ok address
  leaseTime : ∃ n, cfg.numberOr (lit "address_lease_time") sectionName 172800 = .ok n
  renewalTime : ∃ n, cfg.numberOr (lit "address_renewal_time") sectionName 86400 = .ok n
  rebindingTime : ∃ n, cfg.numberOr (lit "address_rebinding_time") sectionName 7200 = .ok n

theorem exists_bind_ok {α β : Type} {x : Except Exception α} {a : α} {f : α → Except Exception β}
    (hx : x = .ok a) (hf : ∃ b, f a = .ok b) : ∃ b, (x >>= f) = .ok b := by
  rw [hx]
  exact hf

/-- **`initialize_client`** returns for accepted keys and texts that fit their objects. -/
theorem exists_initializeClient (h : Accepted platform cfg sectionName)
    (hhost : (cfg.valueOr (lit "server_host_name") sectionName []).length ≤ platform.sizeofString)
    (hdomain : (cfg.valueOr (lit "domain_name") sectionName (lit "localhost")).length ≤
      platform.sizeofStringView)
    (hboot : (cfg.valueOr (lit "boot_file_name") sectionName []).length ≤ platform.sizeofString) :
    ∃ params, initializeClient platform cfg sectionName = .ok params := by
  obtain ⟨serverAddress, server, hserver, hntop, hservers⟩ := h.servers
  obtain ⟨clientAddress, hclient⟩ := h.addresses "v4_client_address" (by simp)
  obtain ⟨yourAddress, hyour⟩ := h.addresses "v4_your_address" (by simp)
  obtain ⟨gatewayAddress, hgateway⟩ := h.addresses "v4_gateway_address" (by simp)
  obtain ⟨subnetMask, hmask⟩ := h.addresses "v4_subnet_mask" (by simp)
  obtain ⟨router, hrouter⟩ := hservers "v4_router_address" (by simp)
  obtain ⟨logServer, hlog⟩ := hservers "v4_log_server_address" (by simp)
  obtain ⟨dhcpServer, hdhcp⟩ := hservers "v4_dhcp_server_address" (by simp)
  obtain ⟨leaseTime, hlease⟩ := h.leaseTime
  obtain ⟨renewalTime, hrenewal⟩ := h.renewalTime
  obtain ⟨rebindingTime, hrebinding⟩ := h.rebindingTime
  exact exists_bind_ok hclient <| exists_bind_ok hyour <| exists_bind_ok hserver <|
    exists_bind_ok hgateway <| exists_bind_ok hmask <|
    exists_bind_ok (setNumber_eq_ok _ _ (slot_codeOf 0)) <|
    exists_bind_ok hntop <| exists_bind_ok hrouter <|
    exists_bind_ok (setNumber_eq_ok _ _ (slot_codeOf 2)) <|
    exists_bind_ok hntop <| exists_bind_ok hlog <|
    exists_bind_ok (setNumber_eq_ok _ _ (slot_codeOf 6)) <|
    exists_bind_ok (setText_eq_ok _ (slot_codeOf 11) hhost) <|
    exists_bind_ok (setText_eq_ok _ (slot_codeOf 14) hdomain) <|
    exists_bind_ok hlease <| exists_bind_ok (setNumber_eq_ok _ _ (slot_codeOf 50)) <|
    exists_bind_ok hntop <| exists_bind_ok hdhcp <|
    exists_bind_ok (setNumber_eq_ok _ _ (slot_codeOf 53)) <|
    exists_bind_ok hrenewal <| exists_bind_ok (setNumber_eq_ok _ _ (slot_codeOf 57)) <|
    exists_bind_ok hrebinding <| exists_bind_ok (setNumber_eq_ok _ _ (slot_codeOf 58)) <|
    exists_bind_ok (setText_eq_ok _ (slot_codeOf 66) hboot) ⟨_, rfl⟩

/-- Every configured text of the section is what its option holds. -/
def HoldsTexts (platform : Platform) (cfg : ConfigIni) (sectionName : StdString)
    (params : OfferParams) : Prop :=
  ForConfigured platform cfg sectionName fun option text =>
    (params.dhcpOptions.values option.i).map OptionBuffer.bytes = some text

/-- Every configured text of the section is exactly as long as its object. -/
def ExactTexts (platform : Platform) (cfg : ConfigIni) (sectionName : StdString) : Prop :=
  ForConfigured platform cfg sectionName fun option text => text.length = option.size

/-- Every configured text of the section fits an option. -/
def FittingTexts (platform : Platform) (cfg : ConfigIni) (sectionName : StdString) : Prop :=
  ForConfigured platform cfg sectionName fun _ text => text.length ≤ 255

theorem holdsTexts_iff_exactTexts
    (h : initializeClient platform cfg sectionName = .ok params)
    (hfit : FittingTexts platform cfg sectionName) :
    HoldsTexts platform cfg sectionName params ↔ ExactTexts platform cfg sectionName := by
  obtain ⟨_, _, _, -, -, -, hwith⟩ := initializeClient_eq_ok h
  -- the entry of each option is the buffer of the text in effect
  have hentry : ∀ option ∈ textOptions platform, ∀ text,
      cfg.value (lit option.keyname) sectionName = some text →
      params.dhcpOptions.values option.i = textBuffer option.size text := by
    simp only [textOptions, List.forall_mem_cons]
    refine ⟨?_, ?_, ?_, by simp⟩
    · intro text htext
      show params.dhcpOptions.values 11 = _
      rw [hwith.hostName, hwith.serverHostName, ConfigIni.valueOr, htext, Option.getD_some]
    · intro text htext
      show params.dhcpOptions.values 14 = _
      rw [hwith.domainName, ConfigIni.valueOr, htext, Option.getD_some]
    · intro text htext
      show params.dhcpOptions.values 66 = _
      rw [hwith.bootFile, hwith.bootFileName, ConfigIni.valueOr, htext, Option.getD_some]
  refine forall₄_congr fun option hoption text htext => ?_
  show (params.dhcpOptions.values option.i).map OptionBuffer.bytes = some text ↔
    text.length = option.size
  rw [hentry option hoption text htext]
  exact map_bytes_textBuffer_iff (hfit option hoption text htext)

/-- A configured text is in effect, and otherwise the default is. -/
theorem length_valueOr_le {keyname alternative : StdString} {size : ℕ}
    (hconfigured : ∀ text, cfg.value keyname sectionName = some text → text.length = size)
    (halternative : alternative.length ≤ size) :
    (cfg.valueOr keyname sectionName alternative).length ≤ size := by
  rw [ConfigIni.valueOr]
  cases htext : cfg.value keyname sectionName with
  | none => exact halternative
  | some text => exact (hconfigured text htext).le

theorem exists_initializeClient_of_exactTexts (h : Accepted platform cfg sectionName)
    (hdefault : (lit "localhost").length ≤ platform.sizeofStringView)
    (hexact : ExactTexts platform cfg sectionName) :
    ∃ params, initializeClient platform cfg sectionName = .ok params := by
  have hexact' := hexact
  simp only [ExactTexts, ForConfigured, textOptions, List.forall_mem_cons] at hexact'
  obtain ⟨hhost, hdomain, hboot, -⟩ := hexact'
  exact exists_initializeClient h (length_valueOr_le hhost (Nat.zero_le _))
    (length_valueOr_le hdomain hdefault) (length_valueOr_le hboot (Nat.zero_le _))

/-! ### The texts of the table -/

/-- A configuration all of whose keys but the texts are accepted. -/
structure AcceptedConfig (platform : Platform) (cfg : ConfigIni) : Prop where
  listenPort : ∃ port, lexicalCast (cfg.valueOr (lit "dhcp_listen_port") [] (lit "67")) = .ok port
  bindAddress : ∃ address, platform.parseAddress
    (cfg.valueOr (lit "v4_bind_address") [] (lit "0.0.0.0")) = .ok address
  sections : ∀ name ∈ cfg.sections, Accepted platform cfg (lowercase name)

/-- `initialize` returns, and the entry of each section holds its configured texts. -/
def KeepsTexts (platform : Platform) (cfg : ConfigIni) : Prop :=
  ∃ address clients, initializeClients platform cfg = .ok (address, clients) ∧
    ∀ name ∈ cfg.sections, ∃ params, clients.lookup name = some params ∧
      HoldsTexts platform cfg (lowercase name) params

theorem exists_foldlM_addClient {names : List StdString}
    (h : ∀ name ∈ names, ∃ params, initializeClient platform cfg (lowercase name) = .ok params)
    (clients : ClientMapType) :
    ∃ clients', names.foldlM (addClient platform cfg) clients = .ok clients' := by
  induction names generalizing clients with
  | nil => exact ⟨clients, rfl⟩
  | cons name names ih =>
    rw [List.forall_mem_cons] at h
    obtain ⟨⟨params, hparams⟩, hnames⟩ := h
    have hadd : addClient platform cfg clients name = .ok (clients.insert name params) := by
      rw [addClient, hparams]
      rfl
    rw [List.foldlM_cons]
    exact exists_bind_ok hadd (ih hnames _)

/-- **The configured texts are in the table** just when each is exactly as long as its object. -/
theorem keepsTexts_iff_exactTexts (h : AcceptedConfig platform cfg)
    (hdefault : (lit "localhost").length ≤ platform.sizeofStringView)
    (hfit : ∀ name ∈ cfg.sections, FittingTexts platform cfg (lowercase name)) :
    KeepsTexts platform cfg ↔
      ∀ name ∈ cfg.sections, ExactTexts platform cfg (lowercase name) := by
  constructor
  · rintro ⟨address, clients, hinit, hkeeps⟩ name hname
    obtain ⟨params, hlookup, hholds⟩ := hkeeps name hname
    obtain ⟨params', hparams⟩ := initializeClient_of_mem hinit hname
    rw [lookup_initializeClients hinit, if_pos hname, hparams] at hlookup
    cases hlookup
    exact (holdsTexts_iff_exactTexts hparams (hfit name hname)).mp hholds
  · intro hexact
    have hclient : ∀ name ∈ cfg.sections,
        ∃ params, initializeClient platform cfg (lowercase name) = .ok params := fun name hname =>
      exists_initializeClient_of_exactTexts (h.sections name hname) hdefault (hexact name hname)
    obtain ⟨port, hport⟩ := h.listenPort
    obtain ⟨address, haddress⟩ := h.bindAddress
    obtain ⟨clients, hclients⟩ := exists_foldlM_addClient hclient ∅
    obtain ⟨⟨bound, table⟩, hinit⟩ : ∃ r, initializeClients platform cfg = .ok r :=
      exists_bind_ok hport <| exists_bind_ok haddress <| exists_bind_ok hclients ⟨_, rfl⟩
    refine ⟨bound, table, hinit, ?_⟩
    intro name hname
    obtain ⟨params, hparams⟩ := hclient name hname
    refine ⟨params, ?_, (holdsTexts_iff_exactTexts hparams (hfit name hname)).mpr
      (hexact name hname)⟩
    rw [lookup_initializeClients hinit, if_pos hname, hparams]
    rfl

/-- **When text options hold exactly the text.** `set` stores a text as it is just when the text
is exactly as long as its string object; so the client table has the configured texts just when
each of them is. -/
theorem string_options_iff (platform : Platform)
    (hdefault : (lit "localhost").length ≤ platform.sizeofStringView) :
    (∀ (options : DhcpOptionsV4) (code : UInt8) (size : ℕ) (text : StdString),
      HasSlot code → text.length ≤ 255 →
        (StoresText options code size text ↔ text.length = size)) ∧
      ∀ cfg, AcceptedConfig platform cfg →
        (∀ name ∈ cfg.sections, FittingTexts platform cfg (lowercase name)) →
        (KeepsTexts platform cfg ↔
          ∀ name ∈ cfg.sections, ExactTexts platform cfg (lowercase name)) :=
  ⟨fun options _ _ _ hcode hlen => storesText_iff_length_eq options hcode hlen,
    fun _ haccepted hfit => keepsTexts_iff_exactTexts haccepted hdefault hfit⟩

/-- A configuration with a boot file for one client. -/
def bootFileConfig (text : StdString) : ConfigIni :=
  ConfigIni.assign ∅ (lit "00-1b") (lit "boot_file_name") text

theorem value_bootFileConfig (text keyname s : StdString) :
    (bootFileConfig text).value keyname s =
      if s = lit "00-1b" ∧ keyname = lit "boot_file_name" then some text else none := by
  rw [bootFileConfig, ConfigIni.value_assign]
  rfl

theorem valueOr_bootFileConfig (text s alternative : StdString) {keyname : StdString}
    (h : keyname ≠ lit "boot_file_name") :
    (bootFileConfig text).valueOr keyname s alternative = alternative := by
  rw [ConfigIni.valueOr, value_bootFileConfig, if_neg fun hboth => h hboth.2]
  rfl

theorem acceptedConfig_bootFileConfig (text : StdString) :
    AcceptedConfig samplePlatform (bootFileConfig text) := by
  have hzero : samplePlatform.parseAddress (lit "0.0.0.0") = .ok 0 := by decide +kernel
  have haddress : ∀ keyname : String, lit keyname ≠ lit "boot_file_name" → ∀ s,
      addressOr samplePlatform (bootFileConfig text) s keyname (lit "0.0.0.0") = .ok 0 := by
    intro keyname hkeyname s
    rw [addressOr, valueOr_bootFileConfig _ _ _ hkeyname, hzero]
  have hnumber : ∀ keyname : String, lit keyname ≠ lit "boot_file_name" → ∀ s alternative,
      (bootFileConfig text).numberOr (lit keyname) s alternative = .ok alternative := by
    intro keyname hkeyname s alternative
    rw [ConfigIni.numberOr, ConfigIni.valueAs, value_bootFileConfig,
      if_neg fun hboth => hkeyname hboth.2]
    rfl
  have hsections : ∀ name ∈ (bootFileConfig text).sections,
      Accepted samplePlatform (bootFileConfig text) (lowercase name) := by
    intro name _
    refine ⟨?_, ⟨0, lit "0.0.0.0", haddress _ (by decide) _, rfl, ?_⟩,
      ⟨_, hnumber _ (by decide) _ _⟩, ⟨_, hnumber _ (by decide) _ _⟩,
      ⟨_, hnumber _ (by decide) _ _⟩⟩
    · simp only [List.forall_mem_cons]
      exact ⟨⟨0, haddress _ (by decide) _⟩, ⟨0, haddress _ (by decide) _⟩,
        ⟨0, haddress _ (by decide) _⟩, ⟨0, haddress _ (by decide) _⟩, by simp⟩
    · simp only [List.forall_mem_cons]
      exact ⟨⟨0, haddress _ (by decide) _⟩, ⟨0, haddress _ (by decide) _⟩,
        ⟨0, haddress _ (by decide) _⟩, by simp⟩
  refine ⟨⟨67, ?_⟩, ⟨0, ?_⟩, hsections⟩
  · rw [valueOr_bootFileConfig _ _ _ (by decide)]
    decide +kernel
  · rw [valueOr_bootFileConfig _ _ _ (by decide), hzero]

/-- Its only text is the boot file. -/
theorem forConfigured_bootFileConfig {text : StdString} {P : TextOption → StdString → Prop}
    (h : P ⟨66, "boot_file_name", 32⟩ text) (s : StdString) :
    ForConfigured samplePlatform (bootFileConfig text) s P := by
  simp only [ForConfigured, textOptions, List.forall_mem_cons, value_bootFileConfig]
  refine ⟨?_, ?_, ?_, by simp⟩
  · intro text' h'
    rw [if_neg fun hboth => absurd hboth.2 (by decide)] at h'
    cases h'
  · intro text' h'
    rw [if_neg fun hboth => absurd hboth.2 (by decide)] at h'
    cases h'
  · intro text' h'
    split at h'
    · cases h'
      exact h
    · cases h'

/-- Texts of 32 bytes are kept. -/
theorem string_options_iff_full :
    StoresText empty 12 32 (List.replicate 32 97) ∧
      KeepsTexts samplePlatform (bootFileConfig (List.replicate 32 97)) :=
  ⟨((string_options_iff samplePlatform (by decide)).1 empty 12 32 _ (by decide)
    (by decide)).mpr (by decide),
    ((string_options_iff samplePlatform (by decide)).2 _ (acceptedConfig_bootFileConfig _)
      fun _ _ => forConfigured_bootFileConfig (by decide) _).mpr
        fun _ _ => forConfigured_bootFileConfig (by decide) _⟩

/-- **A shorter text** has zeros behind it, **a longer one** makes `set` throw, and a boot file of
five bytes is not what its option holds. -/
theorem not_string_options :
    (HasSlot 15 ∧ (lit "localhost").length ≤ 255 ∧
        ¬StoresText empty 15 samplePlatform.sizeofStringView (lit "localhost")) ∧
      (exec (setArgs 12 [.text samplePlatform.sizeofString (List.replicate 33 97)]) empty).1 =
        .error SerdesWriter.notEnoughSpace ∧
      AcceptedConfig samplePlatform (bootFileConfig (lit "a.efi")) ∧
      (∀ name ∈ (bootFileConfig (lit "a.efi")).sections,
        FittingTexts samplePlatform (bootFileConfig (lit "a.efi")) (lowercase name)) ∧
      ¬KeepsTexts samplePlatform (bootFileConfig (lit "a.efi")) := by
  have haccepted := acceptedConfig_bootFileConfig (lit "a.efi")
  have hfit : ∀ name ∈ (bootFileConfig (lit "a.efi")).sections,
      FittingTexts samplePlatform (bootFileConfig (lit "a.efi")) (lowercase name) :=
    fun _ _ => forConfigured_bootFileConfig (by decide) _
  refine ⟨⟨by decide, by decide, ?_⟩, ?_, haccepted, hfit, ?_⟩
  · intro h
    exact absurd ((storesText_iff_length_eq empty (by decide) (by decide)).mp h) (by decide)
  · obtain ⟨hle, hset⟩ := exec_setArgs_text empty (List.replicate 33 97)
      (show samplePlatform.sizeofString ≤ 255 by decide) (slot_codeOf 11)
    exact congrArg Prod.fst hset
  · intro h
    have hexact := (keepsTexts_iff_exactTexts haccepted (by decide) hfit).mp h (lit "00-1b")
      (by decide) ⟨66, "boot_file_name", 32⟩ (by simp [textOptions, samplePlatform]) (lit "a.efi")
      (by rw [value_bootFileConfig, if_pos ⟨by decide, rfl⟩])
    exact absurd hexact (by decide)

end DhcpServerV4

end Bootpd
