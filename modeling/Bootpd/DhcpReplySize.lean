import Bootpd.DhcpConfiguration
import Bootpd.DhcpReply
import Mathlib.Algebra.BigOperators.Fin
import Mathlib.Algebra.Order.BigOperators.Group.Finset

/-!
# How long a reply is

A reply has at most the options of the client's entry and its message type, and the entry has ten
options: seven numbers, and three texts that are as long as the string objects they come from. So a
reply is never cut into pieces on its way, whatever the configuration says and the client asks for.

## The bound

Each option of a number takes six bytes, a text the size of its object and two more, or nothing when
that is too much for an option. With the fixed header, the cookie, the end marker and the message
type this is `replyBound`, a number of the platform. No option has more than 255 bytes, so the bound
is itself bounded, for every platform.

What is bounded is every datagram that is given to `sendto`, also one that it refuses. So the bound
can serve as the length for which sockets are asked to work, in the theorems that need sockets which
do.

## Main definitions

* `DhcpServerV4.Attempted` — a datagram that a log says was sent, or was tried to
* `DhcpServerV4.replyBound` — the bound

## Main results

* `DhcpServerV4.logs_respond_replies` — what is sent, as the packet that it is the bytes of
* `DhcpServerV4.length_reply_le` — how long it is
-/

namespace Bootpd

open Imperative SocketUdp DhcpOptionsV4

namespace DhcpServerV4

/-! ### What is sent -/

/-- A datagram that a log says was sent, or was tried to. -/
def Attempted (es : List Event) (d : Datagram) : Prop :=
  .sent d ∈ es ∨ ∃ e, .sendFailed d e ∈ es

theorem attempted_append {es es' : List Event} {d : Datagram} (h : Attempted (es ++ es') d) :
    Attempted es d ∨ Attempted es' d := by
  rcases h with h | ⟨e, h⟩
  · exact (List.mem_append.mp h).imp .inl .inl
  · exact (List.mem_append.mp h).imp (fun h => .inr ⟨e, h⟩) fun h => .inr ⟨e, h⟩

theorem AtMostOne.of_attempted {A : Datagram → Prop} {es : List Event} {d : Datagram}
    (h : AtMostOne A es) (hd : Attempted es d) : A d := by
  cases h with
  | none => simp [Attempted] at hd
  | sent h =>
    obtain rfl : d = _ := by simpa [Attempted] using hd
    exact h
  | sendFailed e h =>
    obtain rfl : d = _ := by simpa [Attempted] using hd
    exact h

/-- **What handling a datagram logs**, whatever is in it. -/
theorem logs_respond_replies (sys : System) (clients : ClientMapType) (source : AddressV4)
    (bits : List UInt8) : Logs IoState.log (respond sys clients source bits)
      fun _ es => AtMostOne (RepliesWith clients source bits) es := by
  rw [respond]
  refine logs_liftExcept_bind (fun _ _ => .none) fun request hrequest => ?_
  by_cases hopcode : request.opcode = dhcpOpcodeRequest
  · rw [if_neg (not_not.mpr hopcode)]
    refine logs_liftExcept_bind (fun _ _ => .none) fun reply? hreply => ?_
    cases reply? with
    | false => exact Logs.pure .none
    | true =>
      refine logs_liftExcept_bind (fun _ _ => .none) fun key hkey => ?_
      cases hparams : clients.lookup key with
      | none => exact Logs.throw .none
      | some params =>
        refine logs_liftExcept_bind (fun _ _ => .none) fun offer hoffer => ?_
        refine logs_liftExcept_bind (fun _ _ => .none) fun reply hset => ?_
        have hreplies : RepliesWith clients source bits
            ⟨{ AddressV4.everyone with port := source.port }, reply.bits⟩ :=
          ⟨request, key, params, offer, reply, hrequest, hopcode, hreply, hkey, hparams, hoffer,
            hset, rfl⟩
        refine (logs_send reply.serialize_eq _).mono fun r es hes => ?_
        cases hes with
        | sent => exact .sent hreplies
        | failed e => exact .sendFailed e hreplies
  · rw [if_pos hopcode]
    exact Logs.pure .none

/-- It is the answer. -/
theorem RepliesWith.answers {clients : ClientMapType} {source : AddressV4} {bits : List UInt8}
    {d : Datagram} (h : RepliesWith clients source bits d) : Answers clients source bits d := by
  obtain ⟨request, key, params, offer, reply, hrequest, hopcode, hreply, hkey, hparams, hoffer,
    hset, rfl⟩ := h
  have hlist := request.options.requestedParameters_eq
  -- an offer that is made asks for options there are
  have hslots := (isOffer_of_makeOffer hlist hoffer).slots
  obtain ⟨reply', hset', hisReply⟩ := isReply_of_makeOffer hoffer hlist hslots hreply
  obtain rfl := Except.ok.inj (hset.symm.trans hset')
  exact answers_bits source hrequest hopcode hkey hparams hlist hisReply

/-! ### How long it is -/

/-- An option with its code and its length. -/
def optionSize (value : Option OptionBuffer) : ℕ :=
  value.elim 0 fun buffer => buffer.bytes.length + 2

/-- A text out of an object of `size` bytes: all of the object, or nothing. -/
def textSize (size : ℕ) : ℕ := if size ≤ 255 then size + 2 else 0

/-- The header, the cookie and the end, the message type, seven numbers and three texts. -/
def replyBound (platform : Platform) : ℕ :=
  236 + 5 + 3 + 7 * 6 + 2 * textSize platform.sizeofString + textSize platform.sizeofStringView

theorem textSize_le (size : ℕ) : textSize size ≤ 257 := by
  rw [textSize]
  split_ifs
  · omega
  · omega

/-- Far below the 1472 bytes of an Ethernet frame. -/
theorem replyBound_le (platform : Platform) : replyBound platform ≤ 1057 := by
  have hstring := textSize_le platform.sizeofString
  have hview := textSize_le platform.sizeofStringView
  rw [replyBound]
  omega

theorem optionSize_textBuffer (size : ℕ) (text : StdString) :
    optionSize (textBuffer size text) ≤ textSize size := by
  rw [textBuffer, textSize]
  split_ifs with h hsize
  · show (text ++ List.replicate (size - text.length) 0).length + 2 ≤ size + 2
    rw [List.length_append, List.length_replicate]
    omega
  · exact absurd h.1 hsize
  · exact Nat.zero_le _
  · exact Nat.zero_le _

theorem optionSize_numberBuffer (arg : UInt32) : optionSize (some (numberBuffer arg)) = 6 := by
  show (Scalar.encode .network arg).length + 2 = 6
  rw [Scalar.length_encode]
  rfl

variable {platform : Platform} {cfg : ConfigIni} {name : StdString} {params : OfferParams}
  {leaseTime renewalTime rebindingTime : UInt32}

theorem length_bits_eq (p : DhcpPacketV4) :
    p.bits.length = 236 + 5 + ∑ i, optionSize (p.options.values i) := by
  rw [p.length_bits, DhcpPacketV4.serdesSizeHint, DhcpOptionsV4.serdesSizeHint, Fin.sum_univ_def]
  show 1 + 4 + ((List.finRange 254).map fun i => optionSize (p.options.values i)).sum + _ + _ + _ +
    _ + _ + _ + _ + _ + _ + _ + _ + _ + _ + _ = _
  omega

/-- All the options of an entry. -/
theorem BuiltWith.sum_optionSize_le
    (h : BuiltWith platform cfg name params leaseTime renewalTime rebindingTime) :
    ∑ i, optionSize (params.dhcpOptions.values i) ≤
      7 * 6 + 2 * textSize platform.sizeofString + textSize platform.sizeofStringView := by
  have hunset (i : Fin 254) (_ : i ∈ Finset.univ)
      (hi : i ∉ ({0, 2, 6, 11, 14, 50, 53, 57, 58, 66} : Finset (Fin 254))) :
      optionSize (params.dhcpOptions.values i) = 0 := by
    rw [h.unset i (by simpa using hi)]
    rfl
  have hnumber (i : Fin 254) (keyname : String) (alternative : StdString)
      (hoption : AddressOption platform cfg name params i keyname alternative) :
      optionSize (params.dhcpOptions.values i) = 6 := by
    obtain ⟨address, -, hvalue⟩ := hoption
    rw [hvalue, optionSize_numberBuffer]
  obtain ⟨server, -, hrouter, hlogServer, hdhcpServer⟩ := h.servers
  have hhostName := optionSize_textBuffer platform.sizeofString params.serverHostName
  have hdomain := optionSize_textBuffer platform.sizeofStringView
    (cfg.valueOr (lit "domain_name") name (lit "localhost"))
  have hbootFile := optionSize_textBuffer platform.sizeofString params.bootFileName
  rw [← Finset.sum_subset (Finset.subset_univ _) hunset]
  simp only [Finset.sum_insert, Finset.sum_singleton, Finset.mem_insert, Finset.mem_singleton,
    h.hostName, h.domainName, h.bootFile, h.leaseTime, h.renewalTime, h.rebindingTime,
    hnumber _ _ _ h.subnetMask, hnumber _ _ _ hrouter, hnumber _ _ _ hlogServer,
    hnumber _ _ _ hdhcpServer, optionSize_numberBuffer, Fin.reduceEq, or_self,
    not_false_eq_true]
  omega

/-- The message type is the only option of a reply that is not the entry's. -/
theorem values_of_setReplyType {request offer reply : DhcpPacketV4}
    (hreply : isDiscoverOrRequest request = .ok true)
    (hset : setReplyType request offer = .ok reply) : ∃ buffer : OptionBuffer,
    buffer.bytes.length = 1 ∧
      reply.options.values = Function.update offer.options.values 52 (some buffer) := by
  obtain ⟨msgType, -, hmessageType⟩ := setReplyType_eq hreply
  rw [hmessageType, DhcpPacketV4.setMessageType, DhcpOptionsV4.setMessageType_eq] at hset
  obtain rfl := Except.ok.inj hset
  exact ⟨_, rfl, rfl⟩

/-- **The length of a reply.** -/
theorem length_reply_le {address : AddressV4} {clients : ClientMapType} {source : AddressV4}
    {bits : List UInt8} {d : Datagram}
    (hclients : initializeClients platform cfg = .ok (address, clients))
    (h : RepliesWith clients source bits d) : d.bits.length ≤ replyBound platform := by
  obtain ⟨request, key, params, offer, reply, -, -, hreply, -, hparams, hoffer, hset, rfl⟩ := h
  rw [lookup_initializeClients hclients] at hparams
  split_ifs at hparams with hmem
  obtain ⟨params', hinitialize, hsome⟩ : ∃ params',
      initializeClient platform cfg (lowercase key) = .ok params' ∧ params' = params := by
    cases hresult : initializeClient platform cfg (lowercase key) with
    | error e =>
      rw [hresult] at hparams
      cases hparams
    | ok params' =>
      rw [hresult] at hparams
      exact ⟨params', rfl, Option.some.inj hparams⟩
  subst hsome
  obtain ⟨_, _, _, -, -, -, hbuilt⟩ := initializeClient_eq_ok hinitialize
  have hoptions := hbuilt.sum_optionSize_le
  have hvalues := (isOffer_of_makeOffer request.options.requestedParameters_eq hoffer).values
  obtain ⟨buffer, hlength, hupdate⟩ := values_of_setReplyType hreply hset
  have hle : ∑ i, optionSize (reply.options.values i) ≤
      3 + ∑ i, optionSize (params'.dhcpOptions.values i) := by
    rw [hupdate, ← Finset.add_sum_erase _ _ (Finset.mem_univ 52), Function.update_self]
    refine Nat.add_le_add (by rw [optionSize, Option.elim_some, hlength]) ?_
    refine (Finset.sum_le_sum fun i hi => ?_).trans
      (Finset.sum_le_sum_of_subset (Finset.erase_subset 52 Finset.univ))
    rw [Function.update_of_ne (Finset.ne_of_mem_erase hi), hvalues]
    split_ifs
    · exact le_rfl
    · exact Nat.zero_le _
  rw [length_bits_eq, replyBound]
  omega

end DhcpServerV4

end Bootpd
