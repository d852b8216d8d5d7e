import Bootpd.ConfigIni
import Bootpd.DhcpServerV4

/-!
# `dhcp_server_v4::initialize`: the client table from the configuration

Every section of the configuration becomes an entry of `m_clients`. The entry is filed under the
name of the section as it is written, its values are read from the section of the same name in
lower case, and a request looks for the lower-case name: three spellings, of which the second and
the third agree.

## What the system and the compiler decide

Addresses are parsed by the operating system. `Platform` has what the program asks it for, and the
two sizes that `dhcp_options_v4::set` takes from the compiler: a text becomes an option as long as
the string object, with zeros behind the text.

## Values

Each value has a key and a default. A text that is no address throws, and `initialize` with it. A
number goes through `lexical_cast`: text behind it makes the default take its place, and a text
without a number, or with one that is too large, throws out of `value_or`. The casts that are needed
here are those to 32 bits; `LexicalCast` has all of them.

The section without a name has the settings of the servers, and is an entry of the table like the
others, which no request ever looks for.

## Main definitions

* `Platform` — the parameters
* `DhcpServerV4.initializeClient`, `DhcpServerV4.initializeClients` — an entry, and the table
* `DhcpServerV4.BuiltFrom` — an entry built from the keys of a section
* `DhcpServerV4.FoundFrom` — the entry that a packet finds is built from one

## Main results

* `DhcpServerV4.initializeClient_eq_ok` — what an entry is built from
* `DhcpServerV4.lookup_initializeClients` — the table has one entry for each section, under its name
* `DhcpServerV4.found_iff` — when a client is found with the values of its section
-/

namespace Bootpd

/-! ### `lexical_cast` -/

/-- The prefix of a number and the base it stands for. `0B` is not recognised. -/
def takeBase : StdString → StdString × ℕ
  | 48 :: 120 :: what => (what, 16)
  | 48 :: 88 :: what => (what, 16)
  | 48 :: 111 :: what => (what, 8)
  | 48 :: 79 :: what => (what, 8)
  | 48 :: 98 :: what => (what, 2)
  | what => (what, 10)

/-- `lexical_cast<T>` for an unsigned `T` of up to 32 bits, in front of the cast to `T`. -/
def lexicalCast (what : StdString) : Except Exception UInt32 := do
  let (what, base) := takeBase what
  let (value, offs) ← stoul base what
  if offs ≠ what.length then
    throw (.badLexicalCast (lit "Invalid value: " ++ what))
  return value

namespace ConfigIni

/-- `value_or` for a text. -/
def valueOr (cfg : ConfigIni) (keyname sectionName alternative : StdString) : StdString :=
  (cfg.value keyname sectionName).getD alternative

/-- `value_as<std::uint32_t>`: only `bad_lexical_cast` is caught. -/
def valueAs (cfg : ConfigIni) (keyname sectionName : StdString) :
    Except Exception (Option UInt32) :=
  match cfg.value keyname sectionName with
  | none => .ok none
  | some text =>
    match lexicalCast text with
    | .ok value => .ok (some value)
    | .error (.badLexicalCast _) => .ok none
    | .error e => .error e

/-- `value_or<std::uint32_t>`. -/
def numberOr (cfg : ConfigIni) (keyname sectionName : StdString) (alternative : UInt32) :
    Except Exception UInt32 :=
  (fun value => value.getD alternative) <$> cfg.valueAs keyname sectionName

end ConfigIni

/-! ### Addresses -/

/-- What the program takes from the operating system and from the compiler. -/
structure Platform where
  /-- `inet_pton`, in host order. -/
  inetPton : StdString → Option UInt32
  /-- `inet_ntop`, or the exception thrown where it fails. -/
  inetNtop : UInt32 → Except Exception StdString
  /-- `v4_resolve_single`: a name service. -/
  resolveSingle : StdString → Except Exception UInt32
  /-- `sizeof(std::string)`. -/
  sizeofString : ℕ
  /-- `sizeof(std::string_view)`. -/
  sizeofStringView : ℕ

namespace Platform

variable (platform : Platform)

/-- The port behind a colon. -/
def parsePort (tmp : StdString) : Except Exception UInt32 :=
  if tmp.isEmpty then .ok 0
  else do
    let (port, idx) ← stoul 10 tmp
    if idx ≠ tmp.length ∨ port > 65535 then
      throw (.logicError (tmp ++ lit " is not a valid port number."))
    return port

/-- `v4_parse_address_and_port`. The system reads a text up to its NUL. -/
def parseAddressAndPort (what : StdString) : Except Exception (UInt32 × UInt16) := do
  let port ← match what.dropWhile (· != 58) with
    | [] => .ok 0
    | _ :: tmp => parsePort tmp
  let tmp := (what.takeWhile (· != 58)).takeWhile (· != 0)
  let address ← match platform.inetPton tmp with
    | some address => .ok address
    | none => platform.resolveSingle tmp
  return (address, port.toUInt16)

/-- `v4_parse_address`. -/
def parseAddress (what : StdString) : Except Exception UInt32 :=
  Prod.fst <$> platform.parseAddressAndPort what

end Platform

namespace DhcpOptionsV4

/-- `set(code, arg)` for an `arg` that is a string object of `size` bytes: the buffer is that long,
and the writer puts the text at its start. -/
def setText (options : DhcpOptionsV4) (code : UInt8) (size : ℕ) (text : StdString) :
    Except Exception DhcpOptionsV4 :=
  if hsize : size ≤ 255 then do
    let i ← slot code
    if hle : text.length ≤ size then
      return options.put i ⟨text ++ List.replicate (size - text.length) 0, by
        rw [List.length_append, List.length_replicate]
        omega⟩
    else throw SerdesWriter.notEnoughSpace
  else .ok options

/-- `set(code, arg)` for a number, without the result nobody reads. -/
def setNumber (options : DhcpOptionsV4) (code : UInt8) (arg : UInt32) :
    Except Exception DhcpOptionsV4 :=
  Prod.snd <$> options.set code arg

end DhcpOptionsV4

/-! ### The table -/

namespace DhcpServerV4

variable (platform : Platform) (cfg : ConfigIni)

/-- `v4_parse_address(cfg.value_or(mac[keyname], alternative))`. -/
def addressOr (clientMac : StdString) (keyname : String) (alternative : StdString) :
    Except Exception UInt32 :=
  platform.parseAddress (cfg.valueOr (lit keyname) clientMac alternative)

/-- `initialize_client`, for an entry that has just been made. -/
def initializeClient (clientMac : StdString) : Except Exception OfferParams := do
  let unset := lit "0.0.0.0"
  let clientAddress ← addressOr platform cfg clientMac "v4_client_address" unset
  let yourAddress ← addressOr platform cfg clientMac "v4_your_address" unset
  let serverAddress ← addressOr platform cfg clientMac "v4_server_address" unset
  let gatewayAddress ← addressOr platform cfg clientMac "v4_gateway_address" unset
  let serverHostName := cfg.valueOr (lit "server_host_name") clientMac []
  let bootFileName := cfg.valueOr (lit "boot_file_name") clientMac []
  let subnetMask ← addressOr platform cfg clientMac "v4_subnet_mask" unset
  let options ← DhcpOptionsV4.empty.setNumber 0x01 subnetMask
  let server ← platform.inetNtop serverAddress
  let router ← addressOr platform cfg clientMac "v4_router_address" server
  let options ← options.setNumber 0x03 router
  let server ← platform.inetNtop serverAddress
  let logServer ← addressOr platform cfg clientMac "v4_log_server_address" server
  let options ← options.setNumber 0x07 logServer
  let options ← options.setText 0x0C platform.sizeofString serverHostName
  let options ← options.setText 0x0F platform.sizeofStringView
    (cfg.valueOr (lit "domain_name") clientMac (lit "localhost"))
  let leaseTime ← cfg.numberOr (lit "address_lease_time") clientMac 172800
  let options ← options.setNumber 0x33 leaseTime
  let server ← platform.inetNtop serverAddress
  let dhcpServer ← addressOr platform cfg clientMac "v4_dhcp_server_address" server
  let options ← options.setNumber 0x36 dhcpServer
  let renewalTime ← cfg.numberOr (lit "address_renewal_time") clientMac 86400
  let options ← options.setNumber 0x3A renewalTime
  let rebindingTime ← cfg.numberOr (lit "address_rebinding_time") clientMac 7200
  let options ← options.setNumber 0x3B rebindingTime
  let dhcpOptions ← options.setText 0x43 platform.sizeofString bootFileName
  return ⟨clientAddress, yourAddress, serverAddress, gatewayAddress, bootFileName, serverHostName,
    dhcpOptions⟩

/-- One pass of the loop of `initialize`. -/
def addClient (clients : ClientMapType) (clientMac : StdString) :
    Except Exception ClientMapType := do
  let params ← initializeClient platform cfg (lowercase clientMac)
  return clients.insert clientMac params

/-- `initialize`: the address to listen on, and the table. -/
def initializeClients : Except Exception (AddressV4 × ClientMapType) := do
  let port ← lexicalCast (cfg.valueOr (lit "dhcp_listen_port") [] (lit "67"))
  let address ← platform.parseAddress (cfg.valueOr (lit "v4_bind_address") [] (lit "0.0.0.0"))
  let clients ← cfg.sections.foldlM (addClient platform cfg) ∅
  return (⟨address, port.toUInt16⟩, clients)

end DhcpServerV4

/-! ### The options of an entry -/

namespace DhcpOptionsV4

/-- The value of an option that holds a number. -/
def numberBuffer (arg : UInt32) : OptionBuffer :=
  ⟨Scalar.encode .network arg, by simp [Scalar.size]⟩

/-- The value of an option that holds a text in an object of `size` bytes. -/
def textBuffer (size : ℕ) (text : StdString) : Option OptionBuffer :=
  if h : size ≤ 255 ∧ text.length ≤ size then
    some ⟨text ++ List.replicate (size - text.length) 0, by
      rw [List.length_append, List.length_replicate]
      omega⟩
  else none

/-- An entry gets a value, if there is one. -/
def store (options : DhcpOptionsV4) (i : Fin 254) (buffer : Option OptionBuffer) :
    DhcpOptionsV4 :=
  buffer.elim options (options.put i)

theorem values_store (options : DhcpOptionsV4) (i j : Fin 254) (buffer : Option OptionBuffer) :
    (options.store i buffer).values j =
      if j = i then buffer.or (options.values j) else options.values j := by
  cases buffer with
  | none => simp [store]
  | some buffer =>
    by_cases hj : j = i
    · subst hj
      simp [store]
    · rw [if_neg hj]
      exact options.values_put_of_ne hj buffer

variable {options options' : DhcpOptionsV4} {code : UInt8} {i : Fin 254}

theorem eq_store_of_setNumber {arg : UInt32} (h : options.setNumber code arg = .ok options')
    (hi : slot code = .ok i) : options' = options.store i (some (numberBuffer arg)) := by
  rw [setNumber, set, dif_pos (by simp [Scalar.size]), hi] at h
  exact (Except.ok.inj h).symm

theorem eq_store_of_setText {size : ℕ} {text : StdString}
    (h : options.setText code size text = .ok options') (hi : slot code = .ok i) :
    options' = options.store i (textBuffer size text) := by
  rw [setText] at h
  by_cases hsize : size ≤ 255
  · rw [dif_pos hsize] at h
    obtain ⟨j, hj, h⟩ := bind_eq_ok h
    obtain rfl := Except.ok.inj (hi.symm.trans hj)
    split at h
    · rename_i hle
      rw [textBuffer, dif_pos ⟨hsize, hle⟩]
      exact (Except.ok.inj h).symm
    · cases h
  · rw [dif_neg hsize] at h
    obtain rfl := Except.ok.inj h
    rw [textBuffer, dif_neg fun h => hsize h.1]
    rfl

end DhcpOptionsV4

namespace DhcpServerV4

open DhcpOptionsV4

/-! ### What an entry is built from -/

variable {platform : Platform} {cfg : ConfigIni} {sectionName : StdString} {params : OfferParams}

/-- `n` is the number the key of the section holds, or the default of a key the section lacks. -/
def NumberFrom (cfg : ConfigIni) (sectionName : StdString) (keyname : String)
    (alternative n : UInt32) : Prop :=
  match cfg.value (lit keyname) sectionName with
  | none => n = alternative
  | some text => lexicalCast text = .ok n

/-- Option `i` of an entry is the address the key of the section holds, or that of the default. -/
def AddressOption (platform : Platform) (cfg : ConfigIni) (sectionName : StdString)
    (params : OfferParams) (i : Fin 254) (keyname : String) (alternative : StdString) : Prop :=
  ∃ address, addressOr platform cfg sectionName keyname alternative = .ok address ∧
    params.dhcpOptions.values i = some (numberBuffer address)

/-- What the texts and the addresses of an entry are built from, and its three times. -/
structure BuiltWith (platform : Platform) (cfg : ConfigIni) (sectionName : StdString)
    (params : OfferParams) (leaseTime renewalTime rebindingTime : UInt32) : Prop where
  clientAddress : addressOr platform cfg sectionName "v4_client_address" (lit "0.0.0.0") =
    .ok params.clientAddress
  yourAddress : addressOr platform cfg sectionName "v4_your_address" (lit "0.0.0.0") =
    .ok params.yourAddress
  serverAddress : addressOr platform cfg sectionName "v4_server_address" (lit "0.0.0.0") =
    .ok params.serverAddress
  gatewayAddress : addressOr platform cfg sectionName "v4_gateway_address" (lit "0.0.0.0") =
    .ok params.gatewayAddress
  serverHostName : params.serverHostName = cfg.valueOr (lit "server_host_name") sectionName []
  bootFileName : params.bootFileName = cfg.valueOr (lit "boot_file_name") sectionName []
  subnetMask : AddressOption platform cfg sectionName params 0 "v4_subnet_mask" (lit "0.0.0.0")
  /-- The address of the server is the default of three options. -/
  servers : ∃ server, platform.inetNtop params.serverAddress = .ok server ∧
    AddressOption platform cfg sectionName params 2 "v4_router_address" server ∧
    AddressOption platform cfg sectionName params 6 "v4_log_server_address" server ∧
    AddressOption platform cfg sectionName params 53 "v4_dhcp_server_address" server
  hostName : params.dhcpOptions.values 11 =
    textBuffer platform.sizeofString params.serverHostName
  domainName : params.dhcpOptions.values 14 = textBuffer platform.sizeofStringView
    (cfg.valueOr (lit "domain_name") sectionName (lit "localhost"))
  leaseTime : params.dhcpOptions.values 50 = some (numberBuffer leaseTime)
  renewalTime : params.dhcpOptions.values 57 = some (numberBuffer renewalTime)
  rebindingTime : params.dhcpOptions.values 58 = some (numberBuffer rebindingTime)
  bootFile : params.dhcpOptions.values 66 = textBuffer platform.sizeofString params.bootFileName
  /-- No other option is set. -/
  unset : ∀ i : Fin 254, i ∉ ([0, 2, 6, 11, 14, 50, 53, 57, 58, 66] : List (Fin 254)) →
    params.dhcpOptions.values i = none

/-- **An entry built from the keys of a section**, with defaults for the keys it lacks. -/
def BuiltFrom (platform : Platform) (cfg : ConfigIni) (sectionName : StdString)
    (params : OfferParams) : Prop :=
  ∃ leaseTime renewalTime rebindingTime,
    NumberFrom cfg sectionName "address_lease_time" 172800 leaseTime ∧
    NumberFrom cfg sectionName "address_renewal_time" 86400 renewalTime ∧
    NumberFrom cfg sectionName "address_rebinding_time" 7200 rebindingTime ∧
    BuiltWith platform cfg sectionName params leaseTime renewalTime rebindingTime

/-- **`initialize_client`**, when it returns. -/
theorem initializeClient_eq_ok (h : initializeClient platform cfg sectionName = .ok params) :
    ∃ leaseTime renewalTime rebindingTime,
      cfg.numberOr (lit "address_lease_time") sectionName 172800 = .ok leaseTime ∧
      cfg.numberOr (lit "address_renewal_time") sectionName 86400 = .ok renewalTime ∧
      cfg.numberOr (lit "address_rebinding_time") sectionName 7200 = .ok rebindingTime ∧
      BuiltWith platform cfg sectionName params leaseTime renewalTime rebindingTime := by
  rw [initializeClient] at h
  obtain ⟨clientAddress, hclient, h⟩ := bind_eq_ok h
  obtain ⟨yourAddress, hyour, h⟩ := bind_eq_ok h
  obtain ⟨serverAddress, hserver, h⟩ := bind_eq_ok h
  obtain ⟨gatewayAddress, hgateway, h⟩ := bind_eq_ok h
  obtain ⟨subnetMask, hmask, h⟩ := bind_eq_ok h
  obtain ⟨o₁, ho₁, h⟩ := bind_eq_ok h
  obtain ⟨server, hntop, h⟩ := bind_eq_ok h
  obtain ⟨router, hrouter, h⟩ := bind_eq_ok h
  obtain ⟨o₂, ho₂, h⟩ := bind_eq_ok h
  obtain ⟨server₂, hntop₂, h⟩ := bind_eq_ok h
  obtain rfl := Except.ok.inj (hntop.symm.trans hntop₂)
  obtain ⟨logServer, hlog, h⟩ := bind_eq_ok h
  obtain ⟨o₃, ho₃, h⟩ := bind_eq_ok h
  obtain ⟨o₄, ho₄, h⟩ := bind_eq_ok h
  obtain ⟨o₅, ho₅, h⟩ := bind_eq_ok h
  obtain ⟨leaseTime, hlease, h⟩ := bind_eq_ok h
  obtain ⟨o₆, ho₆, h⟩ := bind_eq_ok h
  obtain ⟨server₃, hntop₃, h⟩ := bind_eq_ok h
  obtain rfl := Except.ok.inj (hntop.symm.trans hntop₃)
  obtain ⟨dhcpServer, hdhcp, h⟩ := bind_eq_ok h
  obtain ⟨o₇, ho₇, h⟩ := bind_eq_ok h
  obtain ⟨renewalTime, hrenewal, h⟩ := bind_eq_ok h
  obtain ⟨o₈, ho₈, h⟩ := bind_eq_ok h
  obtain ⟨rebindingTime, hrebinding, h⟩ := bind_eq_ok h
  obtain ⟨o₉, ho₉, h⟩ := bind_eq_ok h
  obtain ⟨o₁₀, ho₁₀, h⟩ := bind_eq_ok h
  obtain rfl := Except.ok.inj h
  have hvalues : ∀ i, o₁₀.values i = _ := fun i => by
    rw [eq_store_of_setText ho₁₀ (slot_codeOf 66), eq_store_of_setNumber ho₉ (slot_codeOf 58),
      eq_store_of_setNumber ho₈ (slot_codeOf 57), eq_store_of_setNumber ho₇ (slot_codeOf 53),
      eq_store_of_setNumber ho₆ (slot_codeOf 50), eq_store_of_setText ho₅ (slot_codeOf 14),
      eq_store_of_setText ho₄ (slot_codeOf 11), eq_store_of_setNumber ho₃ (slot_codeOf 6),
      eq_store_of_setNumber ho₂ (slot_codeOf 2), eq_store_of_setNumber ho₁ (slot_codeOf 0)]
  refine ⟨leaseTime, renewalTime, rebindingTime, hlease, hrenewal, hrebinding, hclient, hyour,
    hserver, hgateway, rfl, rfl, ⟨subnetMask, hmask, ?_⟩, ⟨server, hntop, ⟨router, hrouter, ?_⟩,
    ⟨logServer, hlog, ?_⟩, dhcpServer, hdhcp, ?_⟩, ?_, ?_, ?_, ?_, ?_, ?_, fun i hi => ?_⟩
  all_goals rw [hvalues]
  all_goals simp only [values_store]
  -- the last goal is about all the other entries
  case refine_11 =>
    simp only [List.mem_cons, List.not_mem_nil, or_false, not_or] at hi
    simp [hi, DhcpOptionsV4.empty]
  all_goals simp [DhcpOptionsV4.empty]

/-- The numbers of a section: what follows one makes `value_or` take the default instead. -/
def TimesParse (cfg : ConfigIni) (sectionName : StdString) : Prop :=
  ∀ keyname ∈ ["address_lease_time", "address_renewal_time", "address_rebinding_time"],
    ∀ text, cfg.value (lit keyname) sectionName = some text → ∃ n, lexicalCast text = .ok n

theorem numberFrom_of_numberOr {keyname : String} {alternative n : UInt32}
    (h : cfg.numberOr (lit keyname) sectionName alternative = .ok n)
    (hparse : ∀ text, cfg.value (lit keyname) sectionName = some text →
      ∃ n, lexicalCast text = .ok n) : NumberFrom cfg sectionName keyname alternative n := by
  obtain ⟨value, hvalue, rfl⟩ := map_eq_ok h
  rw [NumberFrom]
  rw [ConfigIni.valueAs] at hvalue
  cases htext : cfg.value (lit keyname) sectionName with
  | none =>
    rw [htext] at hvalue
    cases hvalue
    rfl
  | some text =>
    obtain ⟨n, hn⟩ := hparse text htext
    simp only [htext, hn, Except.ok.injEq] at hvalue
    rw [← hvalue]
    exact hn

theorem exists_lexicalCast_of_numberFrom {keyname : String} {alternative n : UInt32}
    (h : NumberFrom cfg sectionName keyname alternative n) :
    ∀ text, cfg.value (lit keyname) sectionName = some text → ∃ n, lexicalCast text = .ok n := by
  intro text htext
  rw [NumberFrom, htext] at h
  exact ⟨n, h⟩

theorem builtFrom_of_initializeClient
    (h : initializeClient platform cfg sectionName = .ok params)
    (htimes : TimesParse cfg sectionName) : BuiltFrom platform cfg sectionName params := by
  obtain ⟨leaseTime, renewalTime, rebindingTime, hlease, hrenewal, hrebinding, hwith⟩ :=
    initializeClient_eq_ok h
  exact ⟨leaseTime, renewalTime, rebindingTime,
    numberFrom_of_numberOr hlease (htimes _ (by simp)),
    numberFrom_of_numberOr hrenewal (htimes _ (by simp)),
    numberFrom_of_numberOr hrebinding (htimes _ (by simp)), hwith⟩

theorem BuiltFrom.timesParse (h : BuiltFrom platform cfg sectionName params) :
    TimesParse cfg sectionName := by
  obtain ⟨_, _, _, hlease, hrenewal, hrebinding, -⟩ := h
  simp only [TimesParse, List.forall_mem_cons]
  exact ⟨exists_lexicalCast_of_numberFrom hlease, exists_lexicalCast_of_numberFrom hrenewal,
    exists_lexicalCast_of_numberFrom hrebinding, by simp⟩

/-! ### The table -/

/-- The loop over the sections, from any table. -/
theorem lookup_foldlM_addClient {names : List StdString} {clients clients' : ClientMapType}
    (h : names.foldlM (addClient platform cfg) clients = .ok clients') (key : StdString) :
    clients'.lookup key = if key ∈ names then
      (initializeClient platform cfg (lowercase key)).toOption else clients.lookup key := by
  induction names generalizing clients with
  | nil =>
    cases h
    rfl
  | cons name names ih =>
    rw [List.foldlM_cons] at h
    obtain ⟨clients₁, hadd, h⟩ := bind_eq_ok h
    obtain ⟨params, hparams, hadd⟩ := bind_eq_ok hadd
    cases hadd
    rw [ih h]
    by_cases hkey : key = name
    · subst hkey
      simp [hparams, Except.toOption]
    · simp [hkey, AList.lookup_insert_ne]

/-- **The table** has an entry for each section, under its name as it is written, with the values
of the section of that name in lower case. -/
theorem lookup_initializeClients {address : AddressV4} {clients : ClientMapType}
    (h : initializeClients platform cfg = .ok (address, clients)) (key : StdString) :
    clients.lookup key = if key ∈ cfg.sections then
      (initializeClient platform cfg (lowercase key)).toOption else none := by
  obtain ⟨_, -, h⟩ := bind_eq_ok h
  obtain ⟨_, -, h⟩ := bind_eq_ok h
  obtain ⟨_, hfold, h⟩ := bind_eq_ok h
  cases h
  exact lookup_foldlM_addClient hfold key

theorem initializeClient_of_foldlM {names : List StdString} {clients clients' : ClientMapType}
    (h : names.foldlM (addClient platform cfg) clients = .ok clients') {name : StdString}
    (hname : name ∈ names) :
    ∃ params, initializeClient platform cfg (lowercase name) = .ok params := by
  induction names generalizing clients with
  | nil => cases hname
  | cons name' names ih =>
    rw [List.foldlM_cons] at h
    obtain ⟨_, hadd, h⟩ := bind_eq_ok h
    rcases List.mem_cons.mp hname with rfl | hname
    · obtain ⟨params, hparams, -⟩ := bind_eq_ok hadd
      exact ⟨params, hparams⟩
    · exact ih h hname

/-- And every section has been read. -/
theorem initializeClient_of_mem {address : AddressV4} {clients : ClientMapType}
    (h : initializeClients platform cfg = .ok (address, clients)) {name : StdString}
    (hname : name ∈ cfg.sections) :
    ∃ params, initializeClient platform cfg (lowercase name) = .ok params := by
  obtain ⟨_, -, h⟩ := bind_eq_ok h
  obtain ⟨_, -, h⟩ := bind_eq_ok h
  obtain ⟨_, hfold, -⟩ := bind_eq_ok h
  exact initializeClient_of_foldlM hfold hname

/-! ### Finding a client -/

/-- An address printed as dash-separated hex bytes. -/
def dashedHex (address : StdString) : StdString := (lit "-").intercalate (address.map toHex)

theorem dashedHex_cons (front : UInt8) (rest : StdString) :
    dashedHex (front :: rest) = toHex front ++ rest.flatMap fun byte => lit "-" ++ toHex byte := by
  induction rest generalizing front with
  | nil => simp [dashedHex]
  | cons byte rest ih =>
    rw [dashedHex, List.map_cons, List.map_cons, List.intercalate_cons_cons, ← List.map_cons,
      ← dashedHex, ih, List.flatMap_cons]
    simp

/-- The bytes of the hardware address of a packet. -/
def addressBytes (packet : DhcpPacketV4) : StdString :=
  packet.clientHardwareAddress.toList.take packet.hardwareAddressLength.toNat

/-- The key of a packet whose hardware address has 1 to 16 bytes. -/
theorem clientKey_eq_ok {packet : DhcpPacketV4}
    (hlen : 1 ≤ packet.hardwareAddressLength.toNat ∧ packet.hardwareAddressLength.toNat ≤ 16) :
    clientKey packet = .ok (lowercase (dashedHex (addressBytes packet))) := by
  have hread : packet.hardwareAddress.read = .ok (addressBytes packet) := if_pos hlen.2
  have hbytes : (addressBytes packet).length = packet.hardwareAddressLength.toNat := by
    rw [addressBytes, List.length_take, List.Vector.toList_length, min_eq_left hlen.2]
  obtain ⟨front, rest, hcons⟩ : ∃ front rest, addressBytes packet = front :: rest := by
    refine List.exists_cons_of_ne_nil fun hnil => ?_
    rw [hnil, List.length_nil] at hbytes
    omega
  have hsize : ¬packet.hardwareAddress.size < 1 := Nat.not_lt.mpr hlen.1
  rw [clientKey, macAddressToString, if_neg hsize, hread, hcons, dashedHex_cons]
  rfl

theorem tolower_tolower (c : UInt8) : tolower (tolower c) = tolower c := by
  by_cases h : 65 ≤ c ∧ c ≤ 90
  · have htolower : tolower c = c + 32 := if_pos h
    have hhigh : ¬(65 ≤ c + 32 ∧ c + 32 ≤ 90) := by
      have h65 : (65 : UInt8).toNat = 65 := rfl
      have h90 : (90 : UInt8).toNat = 90 := rfl
      have h32 : (32 : UInt8).toNat = 32 := rfl
      rw [UInt8.le_iff_toNat_le, UInt8.le_iff_toNat_le] at h ⊢
      rw [UInt8.toNat_add]
      omega
    rw [htolower, tolower, if_neg hhigh]
  · have htolower : tolower c = c := if_neg h
    rw [htolower, htolower]

theorem lowercase_lowercase (s : StdString) : lowercase (lowercase s) = lowercase s := by
  rw [lowercase, lowercase, List.map_map]
  exact List.map_congr_left fun c _ => tolower_tolower c

/-- The entry a packet finds in the table is built from the keys of a section. -/
def FoundFrom (platform : Platform) (cfg : ConfigIni) (clients : ClientMapType)
    (packet : DhcpPacketV4) (name : StdString) : Prop :=
  ∃ key params, clientKey packet = .ok key ∧ clients.lookup key = some params ∧
    BuiltFrom platform cfg name params

/-- **When a client is found with the values of its section.** One section has a name that is the
hardware address of the packet but for the case of letters. The lookup finds an entry built from it
just when the name has no capital letters, and nothing stands behind its three numbers. -/
theorem found_iff {address : AddressV4} {clients : ClientMapType}
    (h : initializeClients platform cfg = .ok (address, clients)) {packet : DhcpPacketV4}
    (hlen : 1 ≤ packet.hardwareAddressLength.toNat ∧ packet.hardwareAddressLength.toNat ≤ 16)
    {name : StdString} (hname : name ∈ cfg.sections)
    (hmatch : lowercase name = lowercase (dashedHex (addressBytes packet)))
    (honly : ∀ other ∈ cfg.sections,
      lowercase other = lowercase (dashedHex (addressBytes packet)) → other = name) :
    FoundFrom platform cfg clients packet name ↔ lowercase name = name ∧ TimesParse cfg name := by
  have hkey := clientKey_eq_ok hlen
  rw [← hmatch] at hkey honly
  constructor
  · rintro ⟨key, params, hkey', hlookup, hbuilt⟩
    obtain rfl := Except.ok.inj (hkey.symm.trans hkey')
    rw [lookup_initializeClients h] at hlookup
    have hmem : lowercase name ∈ cfg.sections := by
      by_contra hnot
      rw [if_neg hnot] at hlookup
      cases hlookup
    exact ⟨honly _ hmem (lowercase_lowercase name), hbuilt.timesParse⟩
  · rintro ⟨hlower, htimes⟩
    obtain ⟨params, hparams⟩ := initializeClient_of_mem h hname
    rw [hlower] at hparams
    refine ⟨name, params, by rw [hkey, hlower], ?_, builtFrom_of_initializeClient hparams htimes⟩
    rw [lookup_initializeClients h, if_pos hname, hlower, hparams]
    rfl

/-- A platform that knows the address `0.0.0.0`. -/
def samplePlatform : Platform where
  inetPton s := if s = lit "0.0.0.0" then some 0 else none
  inetNtop address := if address = 0 then .ok (lit "0.0.0.0")
    else .error (.runtimeError (lit "unable to convert address to string"))
  resolveSingle s := .error (.runtimeError (s ++ lit " cannot be resolved"))
  sizeofString := 32
  sizeofStringView := 16

/-- A configuration with a boot file for one client. -/
def sampleConfig (name : StdString) : ConfigIni :=
  ConfigIni.assign ∅ name (lit "boot_file_name") (lit "a.efi")

/-- A packet with the hardware address `00-1B`. -/
def samplePacket : DhcpPacketV4 :=
  { DhcpPacketV4.default with
    hardwareAddressLength := 2
    clientHardwareAddress := ⟨0x00 :: 0x1b :: List.replicate 14 0, rfl⟩ }

theorem exists_of_isOk {ε α : Type} {r : Except ε α} (h : r.isOk = true) : ∃ a, r = .ok a := by
  cases r with
  | error e => cases h
  | ok a => exact ⟨a, rfl⟩

set_option maxRecDepth 4000 in
theorem found_iff_lower : ∃ clients,
    FoundFrom samplePlatform (sampleConfig (lit "00-1b")) clients samplePacket (lit "00-1b") := by
  obtain ⟨⟨address, clients⟩, h⟩ := exists_of_isOk
    (show (initializeClients samplePlatform (sampleConfig (lit "00-1b"))).isOk = true by
      decide +kernel)
  refine ⟨clients, (found_iff h (by decide) (by decide) (by decide) (by decide)).mpr
    ⟨by decide, ?_⟩⟩
  have hnone : ∀ keyname ∈ ["address_lease_time", "address_renewal_time",
      "address_rebinding_time"],
      (sampleConfig (lit "00-1b")).value (lit keyname) (lit "00-1b") = none := by
    decide +kernel
  intro keyname hkeyname text htext
  rw [hnone keyname hkeyname] at htext
  cases htext

set_option maxRecDepth 4000 in
/-- **A section in capital letters**: its client is never found. -/
theorem not_found_upper : ∃ address clients,
    initializeClients samplePlatform (sampleConfig (lit "00-1B")) = .ok (address, clients) ∧
      lit "00-1B" ∈ (sampleConfig (lit "00-1B")).sections ∧
      lowercase (lit "00-1B") = lowercase (dashedHex (addressBytes samplePacket)) ∧
      (∀ other ∈ (sampleConfig (lit "00-1B")).sections, other = lit "00-1B") ∧
      ¬FoundFrom samplePlatform (sampleConfig (lit "00-1B")) clients samplePacket
        (lit "00-1B") := by
  obtain ⟨⟨address, clients⟩, h⟩ := exists_of_isOk
    (show (initializeClients samplePlatform (sampleConfig (lit "00-1B"))).isOk = true by
      decide +kernel)
  refine ⟨address, clients, h, by decide, by decide, by decide, ?_⟩
  rintro ⟨key, params, hkey, hlookup, -⟩
  rw [clientKey_eq_ok (by decide)] at hkey
  obtain rfl := Except.ok.inj hkey
  rw [lookup_initializeClients h, if_neg (by decide)] at hlookup
  cases hlookup

end DhcpServerV4

end Bootpd
