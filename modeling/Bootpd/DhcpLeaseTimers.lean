import Bootpd.DhcpConfiguration

/-!
# The timers of a lease

An offer has three times: of the lease (option 51), after which the client renews it (58), and
after which the client asks any server for it (59). Each has its own key in the section and its own
default. The defaults are 172800, 86400 and 7200 seconds: a client that follows them would ask any
server long before it renews.

They are in order if a client renews before it asks any server, and asks before the lease is over.
What an offer says depends on the keys that its section sets and on the defaults of those it does
not, and `TimesFit` is the condition on these, by whether the time of rebinding is set. A section
that sets none of them has the defaults, which do not fit.

All three options are in every offer, since their codes are among those that no one has to ask for.

## Main definitions

* `DhcpServerV4.TimersOrdered` — the times of an offer are in order
* `DhcpServerV4.setIn`, `DhcpServerV4.TimesFit` — what a section sets, and that it fits

## Main results

* `DhcpServerV4.times_of_makeOffer` — the times of an offer are those of its section
* `DhcpServerV4.timersOrdered_iff` — when they are in order
-/

namespace Bootpd

open Imperative DhcpOptionsV4

namespace DhcpOptionsV4

/-- An option that holds a number is read as that number. -/
theorem value_of_numberBuffer {options : DhcpOptionsV4} {i : Fin 254} {n : UInt32}
    (h : options.values i = some (numberBuffer n)) :
    options.value UInt32 (codeOf i) = .ok (some n) := by
  have hrange : ¬(codeOf i < 1 ∨ codeOf i > 254) := by
    rw [outside_iff, not_not]
    exact hasSlot_codeOf i
  have hread := SerdesReader.exec_scalar_append (o := .network) (Scalar.encode .network n) [] n
  rw [List.append_nil] at hread
  rw [value, if_neg hrange, slot_codeOf]
  simp only [bind, Except.bind, h, numberBuffer, SerdesReader.ofBits, hread]
  rfl

end DhcpOptionsV4

namespace DhcpServerV4

/-- The times of an offer are in order: of renewal, of rebinding and of the lease. -/
def TimersOrdered (offer : DhcpPacketV4) : Prop :=
  ∃ renewal rebinding lease, offer.options.value UInt32 58 = .ok (some renewal) ∧
    offer.options.value UInt32 59 = .ok (some rebinding) ∧
    offer.options.value UInt32 51 = .ok (some lease) ∧ renewal ≤ rebinding ∧ rebinding ≤ lease

/-- The number a section sets a key to, if any. -/
def setIn (cfg : ConfigIni) (sectionName : StdString) (keyname : String) : Option UInt32 :=
  (cfg.valueAs (lit keyname) sectionName).toOption.join

/-- The times a section sets fit each other and the defaults of those it does not set. A section
without a time of rebinding has to set one of renewal, of at most two hours. -/
def TimesFit (renewal rebinding lease : Option UInt32) : Prop :=
  match rebinding with
  | some time => renewal.getD 86400 ≤ time ∧ time ≤ lease.getD 172800
  | none => (∃ time ∈ renewal, time ≤ 7200) ∧ ∀ time ∈ lease, 7200 ≤ time

variable {platform : Platform} {cfg : ConfigIni} {clients : ClientMapType} {address : AddressV4}
  {name : StdString} {params : OfferParams} {source offer : DhcpPacketV4}
  {renewal rebinding lease : Option UInt32}

/-- The times fit if those of the offer, set or not, are in order. -/
theorem timesFit_iff : TimesFit renewal rebinding lease ↔
    renewal.getD 86400 ≤ rebinding.getD 7200 ∧ rebinding.getD 7200 ≤ lease.getD 172800 := by
  cases rebinding with
  | some time => exact Iff.rfl
  | none =>
    refine and_congr ?_ ?_
    · cases renewal with
      | none => simp
      | some time => simp
    · cases lease with
      | none => simp
      | some time => simp

theorem setIn_of_numberOr {keyname : String} {sectionName : StdString} {alternative n : UInt32}
    (h : cfg.numberOr (lit keyname) sectionName alternative = .ok n) :
    n = (setIn cfg sectionName keyname).getD alternative := by
  obtain ⟨value, hvalue, rfl⟩ := map_eq_ok h
  rw [setIn, hvalue]
  rfl

/-- **The times of an offer** are those of the client's section, or their defaults. -/
theorem times_of_makeOffer (h : initializeClients platform cfg = .ok (address, clients))
    (hparams : clients.lookup name = some params) (hoffer : makeOffer source params = .ok offer) :
    offer.options.value UInt32 58 =
        .ok (some ((setIn cfg (lowercase name) "address_renewal_time").getD 86400)) ∧
      offer.options.value UInt32 59 =
        .ok (some ((setIn cfg (lowercase name) "address_rebinding_time").getD 7200)) ∧
      offer.options.value UInt32 51 =
        .ok (some ((setIn cfg (lowercase name) "address_lease_time").getD 172800)) := by
  rw [lookup_initializeClients h] at hparams
  split_ifs at hparams
  have hbuilt : initializeClient platform cfg (lowercase name) = .ok params := by
    cases hclient : initializeClient platform cfg (lowercase name) with
    | error e => rw [hclient] at hparams; cases hparams
    | ok params' => rw [hclient] at hparams; rw [Option.some.inj hparams]
  obtain ⟨leaseTime, renewalTime, rebindingTime, hlease, hrenewal, hrebinding, hwith⟩ :=
    initializeClient_eq_ok hbuilt
  rw [← setIn_of_numberOr hlease, ← setIn_of_numberOr hrenewal, ← setIn_of_numberOr hrebinding]
  have hisOffer := isOffer_of_makeOffer source.options.requestedParameters_eq hoffer
  have hread : ∀ {i n}, codeOf i ∈ offeredOptions →
      params.dhcpOptions.values i = some (numberBuffer n) →
      offer.options.value UInt32 (codeOf i) = .ok (some n) := fun hi hn =>
    value_of_numberBuffer ((hisOffer.values_offered hi).trans hn)
  exact ⟨hread (i := 57) (by decide) hwith.renewalTime,
    hread (i := 58) (by decide) hwith.rebindingTime, hread (i := 50) (by decide) hwith.leaseTime⟩

/-- The times a packet carries are the only ones. -/
theorem timersOrdered_iff_of_values {renewal rebinding lease : UInt32}
    (hrenewal : offer.options.value UInt32 58 = .ok (some renewal))
    (hrebinding : offer.options.value UInt32 59 = .ok (some rebinding))
    (hlease : offer.options.value UInt32 51 = .ok (some lease)) :
    TimersOrdered offer ↔ renewal ≤ rebinding ∧ rebinding ≤ lease := by
  constructor
  · rintro ⟨renewal', rebinding', lease', hrenewal', hrebinding', hlease', hle⟩
    obtain rfl := Option.some.inj (Except.ok.inj (hrenewal.symm.trans hrenewal'))
    obtain rfl := Option.some.inj (Except.ok.inj (hrebinding.symm.trans hrebinding'))
    obtain rfl := Option.some.inj (Except.ok.inj (hlease.symm.trans hlease'))
    exact hle
  · intro hle
    exact ⟨_, _, _, hrenewal, hrebinding, hlease, hle⟩

/-- **When the timers are ordered.** For every configuration that is accepted, every client and
every packet that gets an offer: if and only if the times the client's section sets fit. -/
theorem timersOrdered_iff (h : initializeClients platform cfg = .ok (address, clients))
    (hparams : clients.lookup name = some params) (hoffer : makeOffer source params = .ok offer) :
    TimersOrdered offer ↔ TimesFit (setIn cfg (lowercase name) "address_renewal_time")
      (setIn cfg (lowercase name) "address_rebinding_time")
      (setIn cfg (lowercase name) "address_lease_time") := by
  obtain ⟨hrenewal, hrebinding, hlease⟩ := times_of_makeOffer h hparams hoffer
  rw [timesFit_iff, timersOrdered_iff_of_values hrenewal hrebinding hlease]

/-! ### Two sections -/

/-- What `initialize` and `make_offer` make of a configuration, for the client `00-1B`. -/
def sampleOffer (cfg : ConfigIni) : Except Exception DhcpPacketV4 := do
  let (_, clients) ← initializeClients samplePlatform cfg
  match clients.lookup (lit "00-1b") with
  | none => throw (.runtimeError (lit "No configuration found for client : 00-1b"))
  | some params => makeOffer samplePacket params

theorem sampleOffer_eq_ok (h : sampleOffer cfg = .ok offer) : ∃ address clients params,
    initializeClients samplePlatform cfg = .ok (address, clients) ∧
      clients.lookup (lit "00-1b") = some params ∧ makeOffer samplePacket params = .ok offer := by
  obtain ⟨⟨address, clients⟩, hinit, h⟩ := bind_eq_ok h
  dsimp only at h
  split at h
  · cases h
  · rename_i params hparams
    exact ⟨address, clients, params, hinit, hparams, h⟩

set_option maxRecDepth 4000 in
/-- A section with a time of renewal of an hour. -/
theorem timersOrdered_hour : ∃ offer,
    sampleOffer (ConfigIni.assign ∅ (lit "00-1b") (lit "address_renewal_time") (lit "3600")) =
      .ok offer ∧ TimersOrdered offer := by
  obtain ⟨offer, hoffer⟩ := exists_of_isOk
    (show (sampleOffer (ConfigIni.assign ∅ (lit "00-1b") (lit "address_renewal_time")
      (lit "3600"))).isOk = true by decide +kernel)
  obtain ⟨address, clients, params, hinit, hparams, hmake⟩ := sampleOffer_eq_ok hoffer
  refine ⟨offer, hoffer, (timersOrdered_iff hinit hparams hmake).mpr ?_⟩
  rw [timesFit_iff]
  decide +kernel

set_option maxRecDepth 4000 in
/-- **A section that sets no time**: its client is to renew after a day and to ask any server
after two hours. -/
theorem not_timersOrdered_unset : ∃ offer,
    sampleOffer (sampleConfig (lit "00-1b")) = .ok offer ∧ ¬TimersOrdered offer := by
  obtain ⟨offer, hoffer⟩ := exists_of_isOk
    (show (sampleOffer (sampleConfig (lit "00-1b"))).isOk = true by decide +kernel)
  obtain ⟨address, clients, params, hinit, hparams, hmake⟩ := sampleOffer_eq_ok hoffer
  obtain ⟨hrenewal, hrebinding, hlease⟩ := times_of_makeOffer hinit hparams hmake
  refine ⟨offer, hoffer, ?_⟩
  rw [timersOrdered_iff_of_values hrenewal hrebinding hlease]
  decide +kernel

end DhcpServerV4

end Bootpd
