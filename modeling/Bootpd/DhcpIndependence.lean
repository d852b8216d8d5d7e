import Bootpd.DhcpReply
import Bootpd.DhcpConfiguration

/-!
# What the table of the DHCP server does not depend on

`config_ini` keeps its sections in an `std::unordered_map`, and `initialize` goes through them in
the order of the iteration. An entry of the table is made of one section, so neither that order nor
any other section has a part in it.

Two configurations are compared that have the same sections with the same values, in any order. Both
make a table or neither does, since a section that cannot be read is refused wherever it stands. The
tables have the same entries under the same names. A responder sees no more of a table than the
entry that it looks up, so it does the same with both, for a datagram and for a queue of them.

The exception of a configuration that is refused may be that of another section, and is not
compared.

## Main results

* `DhcpServerV4.lookup_congr` — an entry is made of its section
* `DhcpServerV4.order_irrelevant` — the order of the sections makes no difference
-/

namespace Bootpd

open Imperative

namespace DhcpServerV4

variable {platform : Platform} {cfg cfg' : ConfigIni}

/-- **An entry is made of its section.** -/
theorem initializeClient_congr {clientMac : StdString}
    (h : ∀ k, cfg'.value k clientMac = cfg.value k clientMac) :
    initializeClient platform cfg' clientMac = initializeClient platform cfg clientMac := by
  have hvalueOr (k alternative : StdString) :
      cfg'.valueOr k clientMac alternative = cfg.valueOr k clientMac alternative := by
    rw [ConfigIni.valueOr, ConfigIni.valueOr, h]
  have hnumberOr (k : StdString) (alternative : UInt32) :
      cfg'.numberOr k clientMac alternative = cfg.numberOr k clientMac alternative := by
    rw [ConfigIni.numberOr, ConfigIni.numberOr, ConfigIni.valueAs, ConfigIni.valueAs, h]
  simp only [initializeClient, addressOr, hvalueOr, hnumberOr]

/-- The loop over the sections gets through if every section does. -/
theorem foldlM_addClient_isOk {names : List StdString} (clients : ClientMapType)
    (h : ∀ name ∈ names, ∃ params, initializeClient platform cfg (lowercase name) = .ok params) :
    ∃ clients', names.foldlM (addClient platform cfg) clients = .ok clients' := by
  induction names generalizing clients with
  | nil => exact ⟨clients, rfl⟩
  | cons name names ih =>
    rw [List.forall_mem_cons] at h
    obtain ⟨⟨params, hparams⟩, hrest⟩ := h
    rw [List.foldlM_cons, addClient, hparams]
    exact ih _ hrest

/-- **Nobody else's section**: what two stores have in the section of a client decides its entry,
whatever they have in the others. -/
theorem lookup_congr {address address' : AddressV4} {clients clients' : ClientMapType}
    (h : initializeClients platform cfg = .ok (address, clients))
    (h' : initializeClients platform cfg' = .ok (address', clients')) {key : StdString}
    (hsection : key ∈ cfg'.sections ↔ key ∈ cfg.sections)
    (hvalue : ∀ k, cfg'.value k (lowercase key) = cfg.value k (lowercase key)) :
    clients'.lookup key = clients.lookup key := by
  rw [lookup_initializeClients h', lookup_initializeClients h, initializeClient_congr hvalue]
  simp only [hsection]

/-- Another order gets through as well. -/
theorem initializeClients_congr (hvalue : ∀ s k, cfg'.value k s = cfg.value k s)
    (hsections : cfg'.sections.Perm cfg.sections) {address : AddressV4} {clients : ClientMapType}
    (h : initializeClients platform cfg = .ok (address, clients)) :
    ∃ clients', initializeClients platform cfg' = .ok (address, clients') := by
  have hvalueOr (k s alternative : StdString) :
      cfg'.valueOr k s alternative = cfg.valueOr k s alternative := by
    rw [ConfigIni.valueOr, ConfigIni.valueOr, hvalue]
  have hall : ∀ name ∈ cfg'.sections,
      ∃ params, initializeClient platform cfg' (lowercase name) = .ok params := by
    intro name hname
    rw [initializeClient_congr fun k => hvalue (lowercase name) k]
    exact initializeClient_of_mem h (hsections.subset hname)
  obtain ⟨clients', hfold⟩ := foldlM_addClient_isOk ∅ hall
  rw [initializeClients] at h
  obtain ⟨port, hport, h⟩ := bind_eq_ok h
  obtain ⟨addr, haddr, h⟩ := bind_eq_ok h
  obtain ⟨_, -, h⟩ := bind_eq_ok h
  obtain ⟨rfl, -⟩ := Prod.mk.inj (Except.ok.inj h)
  refine ⟨clients', ?_⟩
  rw [initializeClients, hvalueOr, hport]
  show (platform.parseAddress _ >>= _) = _
  rw [hvalueOr, haddr]
  show (cfg'.sections.foldlM (addClient platform cfg') ∅ >>= _) = _
  rw [hfold]
  rfl

/-- The server looks its clients up, and does nothing else with the table. -/
theorem threadOutgoing_congr {clients clients' : ClientMapType}
    (h : ∀ key, clients'.lookup key = clients.lookup key) (sys : System) (source : AddressV4)
    (bits : List UInt8) :
    threadOutgoing sys clients' source bits = threadOutgoing sys clients source bits := by
  rw [threadOutgoing, threadOutgoing, respond, respond]
  simp only [h]

theorem answerAll_congr {clients clients' : ClientMapType}
    (h : ∀ key, clients'.lookup key = clients.lookup key) (sys : System)
    (packets : List (AddressV4 × List UInt8)) :
    answerAll sys clients' packets = answerAll sys clients packets := by
  induction packets with
  | nil => rfl
  | cons packet packets ih => rw [answerAll, answerAll, threadOutgoing_congr h, ih]

/-- **The order of the sections** makes no difference. A store with the same values, and with its
sections in another order, makes a server that listens at the same address, and does the same with
any datagrams. -/
theorem order_irrelevant (hvalue : ∀ s k, cfg'.value k s = cfg.value k s)
    (hsections : cfg'.sections.Perm cfg.sections) {address : AddressV4} {clients : ClientMapType}
    (h : initializeClients platform cfg = .ok (address, clients)) :
    ∃ clients', initializeClients platform cfg' = .ok (address, clients') ∧
      ∀ sys packets, answerAll sys clients' packets = answerAll sys clients packets := by
  obtain ⟨clients', h'⟩ := initializeClients_congr hvalue hsections h
  refine ⟨clients', h', fun sys => answerAll_congr (fun key => ?_) sys⟩
  exact lookup_congr h h' hsections.mem_iff fun k => hvalue (lowercase key) k

/-- Two clients. -/
def twoClients : ConfigIni :=
  (ConfigIni.assign ∅ (lit "00-01") (lit "domain_name") (lit "a")).assign (lit "00-02")
    (lit "domain_name") (lit "b")

/-- The same, in another order. -/
def twoClientsSwapped : ConfigIni :=
  (ConfigIni.assign ∅ (lit "00-02") (lit "domain_name") (lit "b")).assign (lit "00-01")
    (lit "domain_name") (lit "a")

theorem order_irrelevant_two : ∃ address clients clients',
    initializeClients samplePlatform twoClients = .ok (address, clients) ∧
      initializeClients samplePlatform twoClientsSwapped = .ok (address, clients') ∧
      ∀ sys packets, answerAll sys clients' packets = answerAll sys clients packets := by
  have hok : (initializeClients samplePlatform twoClients).isOk = true := by decide +kernel
  obtain ⟨⟨address, clients⟩, h⟩ := exists_of_isOk hok
  have hvalue : ∀ s k, twoClientsSwapped.value k s = twoClients.value k s := by
    intro s k
    rw [twoClientsSwapped, twoClients, ConfigIni.value_assign, ConfigIni.value_assign,
      ConfigIni.value_assign, ConfigIni.value_assign]
    by_cases h₁ : s = lit "00-01"
    · subst h₁
      simp [show lit "00-01" ≠ lit "00-02" by decide]
    · simp [h₁]
  obtain ⟨clients', h', hanswers⟩ := order_irrelevant hvalue (by decide) h
  exact ⟨address, clients, clients', h, h', hanswers⟩

end DhcpServerV4

end Bootpd
