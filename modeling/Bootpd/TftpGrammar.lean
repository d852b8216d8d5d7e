import Bootpd.SerdesGrammar
import Bootpd.TftpPacket

/-!
# The grammar of the TFTP packets

What the decoder of `bootpd/tftp_packet.cpp` accepts, for any bytes the network can deliver, and
that it takes back every packet its encoder writes. The grammar is stated on its own, without a
cursor; dictionaries are compared as maps, since the order of iteration is nobody's business.

## The grammar

`Derives bits p` has one rule for each kind of packet: the opcode in network order, then strings
that end with a NUL and contain none, pairs of such strings up to the end of the datagram, or
numbers of two bytes. Where the source does not look at the rest of the datagram, the rule has any
rest. A name that comes twice among the options has its first text.

Soundness goes by the readers: each reader of the decoder accepts the bytes of a piece, and what it
accepts is the piece. Completeness is the same lemmas read the other way, since `Accepts` says both.

Two packets are the `Same` when their dictionaries have the same texts under the same names. A
packet that is written and read back is the same and need not be equal. A string with a NUL in it
comes back cut, so the strings of the packet must have none.

## Main definitions

* `TftpPacket.Derives` — the grammar
* `TftpPacket.Same`, `TftpPacket.StringsNulFree` — equality up to the order of the options, and
  strings that can be written

## Main results

* `TftpPacket.ofBits_iff_derives` — the decoder accepts its grammar and nothing else
* `TftpPacket.ofBits_serialize` — every packet without NULs in its strings is read back
-/

namespace Bootpd

open Imperative SerdesReader

namespace TftpPacket

/-! ### The grammar -/

/-- A string that can be sent with a NUL behind it. -/
def NulFree (s : StdString) : Prop := (0 : UInt8) ∉ s

instance (s : StdString) : Decidable (NulFree s) := inferInstanceAs (Decidable (¬_))

/-- A pair of strings on the wire. -/
def pairBits (pair : StdString × StdString) : List UInt8 := (pair.1 ++ [0]) ++ (pair.2 ++ [0])

/-- Pairs of strings without NULs. -/
def NulFreePairs (pairs : List (StdString × StdString)) : Prop :=
  ∀ pair ∈ pairs, NulFree pair.1 ∧ NulFree pair.2

/-- `options` is the dictionary in which the first pair with a given name wins. -/
def FirstWins (pairs : List (StdString × StdString)) (options : DictionaryType) : Prop :=
  ∀ name, options.lookup name = pairs.lookup name

/-- The opcodes the decoder has a case for. -/
def Known (op : UInt16) : Prop :=
  op = tftpOpcodeRrq ∨ op = tftpOpcodeWrq ∨ op = tftpOpcodeData ∨ op = tftpOpcodeAck ∨
    op = tftpOpcodeError ∨ op = tftpOpcodeOack

/-- **The grammar**: the packets some bytes stand for. -/
inductive Derives : List UInt8 → TftpPacket → Prop
  | rrq {filename xfermode pairs options} (hfilename : NulFree filename)
      (hxfermode : NulFree xfermode) (hpairs : NulFreePairs pairs)
      (hoptions : FirstWins pairs options) :
    Derives (Scalar.encode .network tftpOpcodeRrq ++
      (filename ++ 0 :: (xfermode ++ 0 :: pairs.flatMap pairBits)))
      (.rrq ⟨filename, xfermode, options⟩)
  | wrq {filename xfermode pairs options} (hfilename : NulFree filename)
      (hxfermode : NulFree xfermode) (hpairs : NulFreePairs pairs)
      (hoptions : FirstWins pairs options) :
    Derives (Scalar.encode .network tftpOpcodeWrq ++
      (filename ++ 0 :: (xfermode ++ 0 :: pairs.flatMap pairBits)))
      (.wrq ⟨filename, xfermode, options⟩)
  | data (blockId : UInt16) (data : List UInt8) :
    Derives (Scalar.encode .network tftpOpcodeData ++ (Scalar.encode .network blockId ++ data))
      (.data ⟨blockId, data⟩)
  | ack (blockId : UInt16) (rest : List UInt8) :
    Derives (Scalar.encode .network tftpOpcodeAck ++ (Scalar.encode .network blockId ++ rest))
      (.ack ⟨blockId⟩)
  | error (errorCode : ErrorCategoryType) {errorString} (rest : List UInt8)
      (hstring : NulFree errorString) :
    Derives (Scalar.encode .network tftpOpcodeError ++
      (Scalar.encode .network errorCode ++ (errorString ++ 0 :: rest)))
      (.error ⟨errorCode, errorString⟩)
  | oack {pairs options} (hpairs : NulFreePairs pairs) (hoptions : FirstWins pairs options) :
    Derives (Scalar.encode .network tftpOpcodeOack ++ pairs.flatMap pairBits) (.oack ⟨options⟩)
  | other {op} (rest : List UInt8) (hop : ¬Known op) :
    Derives (Scalar.encode .network op ++ rest) .monostate

/-- Equality of packets, with the dictionaries compared as maps. -/
inductive Same : TftpPacket → TftpPacket → Prop
  | refl (packet : TftpPacket) : Same packet packet
  | rrq {filename xfermode options options'}
      (h : ∀ name, AList.lookup name options = AList.lookup name options') :
    Same (.rrq ⟨filename, xfermode, options⟩) (.rrq ⟨filename, xfermode, options'⟩)
  | wrq {filename xfermode options options'}
      (h : ∀ name, AList.lookup name options = AList.lookup name options') :
    Same (.wrq ⟨filename, xfermode, options⟩) (.wrq ⟨filename, xfermode, options'⟩)
  | oack {options options'} (h : ∀ name, AList.lookup name options = AList.lookup name options') :
    Same (.oack ⟨options⟩) (.oack ⟨options'⟩)

/-! ### The dictionary that is read -/

/-- The dictionary the option loops build. -/
def dictionary (pairs : List (StdString × StdString)) : DictionaryType :=
  pairs.foldl (fun options pair => options.emplace pair.1 pair.2) ∅

theorem lookup_foldl_emplace (pairs : List (StdString × StdString)) (options : DictionaryType)
    (name : StdString) :
    (pairs.foldl (fun options pair => options.emplace pair.1 pair.2) options).lookup name =
      (options.lookup name).or (pairs.lookup name) := by
  induction pairs generalizing options with
  | nil => simp
  | cons pair pairs ih =>
    obtain ⟨option, value⟩ := pair
    rw [List.foldl_cons, ih, UnorderedMap.lookup_emplace, List.lookup_cons]
    by_cases h : name = option
    · subst h
      rw [if_pos rfl, beq_self_eq_true]
      cases AList.lookup name options <;> rfl
    · rw [if_neg h, beq_false_of_ne h]

/-- **The first pair wins.** -/
theorem firstWins_dictionary (pairs : List (StdString × StdString)) :
    FirstWins pairs (dictionary pairs) := by
  intro name
  rw [dictionary, lookup_foldl_emplace, AList.lookup_empty, Option.none_or]

/-! ### The formats of the parts -/

theorem accepts_readOption (options : DictionaryType) :
    Accepts (readOption options) fun input options' rest =>
      ∃ pair : StdString × StdString, (NulFree pair.1 ∧ NulFree pair.2) ∧
        input = pairBits pair ++ rest ∧ options' = options.emplace pair.1 pair.2 := by
  refine (accepts_asciiz.bind fun option =>
    accepts_asciiz.map (f := fun value => options.emplace option value)).congr
      fun input options' rest => ?_
  constructor
  · rintro ⟨option, mid, ⟨hoption, rfl⟩, value, ⟨hvalue, rfl⟩, rfl⟩
    exact ⟨(option, value), ⟨hoption, hvalue⟩, by simp [pairBits], rfl⟩
  · rintro ⟨⟨option, value⟩, ⟨hoption, hvalue⟩, rfl, rfl⟩
    exact ⟨option, value ++ 0 :: rest, ⟨hoption, by simp [pairBits]⟩, value, ⟨hvalue, rfl⟩, rfl⟩

/-- The option loops read pairs to the end of the packet. -/
theorem accepts_readOptions :
    Accepts readOptions fun input options rest => rest = [] ∧
      ∃ pairs, NulFreePairs pairs ∧ input = pairs.flatMap pairBits ∧
        options = dictionary pairs := by
  refine Accepts.whileNotEmpty consumes_readOption (fun pair => ?_) accepts_readOption ∅
  simp [pairBits]

/-- The loop of DATA reads every byte that is left. -/
theorem accepts_readData :
    Accepts (whileNotEmpty readDataByte []) fun input data rest => rest = [] ∧ data = input := by
  have hbyte : ∀ data, Accepts (readDataByte data) fun input data' rest =>
      ∃ byte : UInt8, True ∧ input = [byte] ++ rest ∧ data' = data ++ [byte] := by
    intro data
    refine (accepts_byte.map (f := fun byte => data ++ [byte])).congr fun input data' rest => ?_
    constructor
    · rintro ⟨byte, rfl, rfl⟩
      exact ⟨byte, trivial, rfl, rfl⟩
    · rintro ⟨byte, -, rfl, rfl⟩
      exact ⟨byte, rfl, rfl⟩
  refine (Accepts.whileNotEmpty consumes_readDataByte (fun byte => List.cons_ne_nil byte [])
    hbyte []).congr fun input data rest => ?_
  constructor
  · rintro ⟨rfl, items, -, rfl, rfl⟩
    rw [foldl_push, List.flatMap_singleton', List.nil_append]
    exact ⟨rfl, rfl⟩
  · rintro ⟨rfl, rfl⟩
    refine ⟨rfl, data, fun _ _ => trivial, ?_, ?_⟩
    · rw [List.flatMap_singleton']
    · rw [foldl_push, List.nil_append]

/-- The part RRQ and WRQ share: two strings and the options. -/
theorem accepts_readRequest (f : StdString → StdString → DictionaryType → TftpPacket) :
    Accepts (do
      let filename ← asciiz
      let xfermode ← asciiz
      let options ← readOptions
      return f filename xfermode options) fun input packet rest => rest = [] ∧
        ∃ filename xfermode pairs, NulFree filename ∧ NulFree xfermode ∧ NulFreePairs pairs ∧
          input = filename ++ 0 :: (xfermode ++ 0 :: pairs.flatMap pairBits) ∧
          packet = f filename xfermode (dictionary pairs) := by
  refine (accepts_asciiz.bind fun filename => accepts_asciiz.bind fun xfermode =>
    accepts_readOptions.map (f := fun options => f filename xfermode options)).congr
      fun input packet rest => ?_
  constructor
  · rintro ⟨filename, _, ⟨hf, rfl⟩, xfermode, _, ⟨hx, rfl⟩, _, ⟨rfl, pairs, hp, rfl, rfl⟩, rfl⟩
    exact ⟨rfl, filename, xfermode, pairs, hf, hx, hp, rfl, rfl⟩
  · rintro ⟨rfl, filename, xfermode, pairs, hf, hx, hp, rfl, rfl⟩
    exact ⟨filename, _, ⟨hf, rfl⟩, xfermode, _, ⟨hx, rfl⟩, _, ⟨rfl, pairs, hp, rfl, rfl⟩, rfl⟩

theorem accepts_readAck :
    Accepts (do
      let blockId ← scalar UInt16
      return TftpPacket.ack ⟨blockId⟩ : Reader .network TftpPacket) fun input packet rest =>
        ∃ blockId, input = Scalar.encode .network blockId ++ rest ∧ packet = .ack ⟨blockId⟩ :=
  (accepts_scalar Scalar.onto_uint16).map

theorem accepts_readDataPacket :
    Accepts (do
      let blockId ← scalar UInt16
      let data ← whileNotEmpty readDataByte []
      return TftpPacket.data ⟨blockId, data⟩) fun input packet rest => rest = [] ∧
        ∃ blockId data, input = Scalar.encode .network blockId ++ data ∧
          packet = .data ⟨blockId, data⟩ := by
  refine ((accepts_scalar Scalar.onto_uint16).bind fun blockId =>
    accepts_readData.map (f := fun data => TftpPacket.data ⟨blockId, data⟩)).congr
      fun input packet rest => ?_
  constructor
  · rintro ⟨blockId, _, rfl, _, ⟨rfl, rfl⟩, rfl⟩
    exact ⟨rfl, blockId, _, rfl, rfl⟩
  · rintro ⟨rfl, blockId, data, rfl, rfl⟩
    exact ⟨blockId, data, rfl, data, ⟨rfl, rfl⟩, rfl⟩

theorem accepts_readError :
    Accepts (do
      let errorCode ← scalar UInt16
      let errorString ← asciiz
      return TftpPacket.error ⟨errorCode, errorString⟩ : Reader .network TftpPacket)
        fun input packet rest => ∃ errorCode errorString, NulFree errorString ∧
          input = Scalar.encode .network errorCode ++ (errorString ++ 0 :: rest) ∧
          packet = .error ⟨errorCode, errorString⟩ := by
  refine ((accepts_scalar Scalar.onto_uint16).bind fun errorCode =>
    accepts_asciiz.map (f := fun errorString => TftpPacket.error ⟨errorCode, errorString⟩)).congr
      fun input packet rest => ?_
  constructor
  · rintro ⟨errorCode, _, rfl, errorString, ⟨hstring, rfl⟩, rfl⟩
    exact ⟨errorCode, errorString, hstring, rfl, rfl⟩
  · rintro ⟨errorCode, errorString, hstring, rfl, rfl⟩
    exact ⟨errorCode, _, rfl, errorString, ⟨hstring, rfl⟩, rfl⟩

/-! ### The decoder against the grammar -/

/-- What the `switch` returns is derived. -/
theorem derives_of_exec {op : UInt16} {d input : List UInt8} {packet : TftpPacket}
    {s' : SerdesReader .network} (h : exec (readPayload op) ⟨d, input⟩ = (.ok packet, s')) :
    Derives (Scalar.encode .network op ++ input) packet := by
  rw [readPayload] at h
  split_ifs at h with hrrq hwrq hdata hack herror hoack
  · obtain ⟨-, _, _, pairs, hf, hx, hp, hinput, rfl⟩ :=
      (accepts_readRequest fun f x o => .rrq ⟨f, x, o⟩).derives h
    rw [hrrq, hinput]
    exact Derives.rrq hf hx hp (firstWins_dictionary pairs)
  · obtain ⟨-, _, _, pairs, hf, hx, hp, hinput, rfl⟩ :=
      (accepts_readRequest fun f x o => .wrq ⟨f, x, o⟩).derives h
    rw [hwrq, hinput]
    exact Derives.wrq hf hx hp (firstWins_dictionary pairs)
  · obtain ⟨-, blockId, data, hinput, rfl⟩ := accepts_readDataPacket.derives h
    rw [hdata, hinput]
    exact Derives.data blockId data
  · obtain ⟨blockId, hinput, rfl⟩ := accepts_readAck.derives h
    rw [hack, hinput]
    exact Derives.ack blockId _
  · obtain ⟨errorCode, _, hstring, hinput, rfl⟩ := accepts_readError.derives h
    rw [herror, hinput]
    exact Derives.error errorCode _ hstring
  · obtain ⟨_, ⟨-, pairs, hp, hinput, rfl⟩, rfl⟩ :=
      (accepts_readOptions.map (f := fun o => TftpPacket.oack ⟨o⟩)).derives h
    rw [hoack, hinput]
    exact Derives.oack hp (firstWins_dictionary pairs)
  · cases h
    refine Derives.other input ?_
    rintro (h | h | h | h | h | h)
    exacts [hrrq h, hwrq h, hdata h, hack h, herror h, hoack h]

theorem derives_of_ofBits {bits : List UInt8} {packet : TftpPacket}
    (h : ofBits bits = .ok packet) : Derives bits packet := by
  have hread : exec read (SerdesReader.ofBits bits) =
      (.ok packet, (exec read (SerdesReader.ofBits bits)).2) := Prod.ext h rfl
  rw [read] at hread
  obtain ⟨op, s, hop, hpayload⟩ := exec_bind_eq_ok hread
  have hbits : bits = Scalar.encode .network op ++ s.curr :=
    (accepts_scalar Scalar.onto_uint16).derives hop
  rw [hbits]
  exact derives_of_exec hpayload

theorem sameLookup {pairs : List (StdString × StdString)} {options : DictionaryType}
    (h : FirstWins pairs options) (name : StdString) :
    (dictionary pairs).lookup name = options.lookup name :=
  (firstWins_dictionary pairs name).trans (h name).symm

/-- A read request without NULs in its strings, as it is read. -/
theorem ofBits_rrq {filename xfermode : StdString} {pairs : List (StdString × StdString)}
    (hfilename : NulFree filename) (hxfermode : NulFree xfermode) (hpairs : NulFreePairs pairs) :
    ofBits (Scalar.encode .network tftpOpcodeRrq ++
      (filename ++ 0 :: (xfermode ++ 0 :: pairs.flatMap pairBits))) =
        .ok (.rrq ⟨filename, xfermode, dictionary pairs⟩) := by
  rw [ofBits_encode, readPayload, if_pos rfl, (accepts_readRequest _).ok_iff.mpr
    ⟨rfl, filename, xfermode, pairs, hfilename, hxfermode, hpairs, rfl, rfl⟩]

/-- What is derived is returned. -/
theorem ofBits_of_derives {bits : List UInt8} {packet : TftpPacket} (h : Derives bits packet) :
    ∃ p, ofBits bits = .ok p ∧ Same p packet := by
  cases h with
  | @rrq filename xfermode pairs options hf hx hp ho =>
    exact ⟨.rrq ⟨filename, xfermode, dictionary pairs⟩, ofBits_rrq hf hx hp,
      Same.rrq (sameLookup ho)⟩
  | @wrq filename xfermode pairs options hf hx hp ho =>
    refine ⟨.wrq ⟨filename, xfermode, dictionary pairs⟩, ?_, Same.wrq (sameLookup ho)⟩
    rw [ofBits_encode, readPayload, if_neg (by decide), if_pos rfl,
      (accepts_readRequest _).ok_iff.mpr ⟨rfl, filename, xfermode, pairs, hf, hx, hp, rfl, rfl⟩]
  | data blockId data => exact ⟨_, ofBits_dataBits blockId data, Same.refl _⟩
  | ack blockId rest =>
    refine ⟨_, ?_, Same.refl _⟩
    rw [ofBits_encode]
    exact congrArg Prod.fst (accepts_readAck.ok_iff.mpr ⟨blockId, rfl, rfl⟩)
  | @error errorCode errorString rest hstring =>
    refine ⟨_, ?_, Same.refl _⟩
    rw [ofBits_encode]
    exact congrArg Prod.fst
      (accepts_readError.ok_iff.mpr ⟨errorCode, errorString, hstring, rfl, rfl⟩)
  | @oack pairs options hp ho =>
    refine ⟨.oack ⟨dictionary pairs⟩, ?_, Same.oack (sameLookup ho)⟩
    rw [ofBits_encode]
    exact congrArg Prod.fst
      ((accepts_readOptions.map (f := fun o => TftpPacket.oack ⟨o⟩)).ok_iff.mpr
        ⟨dictionary pairs, ⟨rfl, pairs, hp, rfl, rfl⟩, rfl⟩)
  | @other op rest hop =>
    refine ⟨.monostate, ?_, Same.refl _⟩
    obtain ⟨hrrq, hwrq, hdata, hack, herror, hoack⟩ : op ≠ tftpOpcodeRrq ∧ op ≠ tftpOpcodeWrq ∧
        op ≠ tftpOpcodeData ∧ op ≠ tftpOpcodeAck ∧ op ≠ tftpOpcodeError ∧
          op ≠ tftpOpcodeOack := by
      simpa [Known, not_or] using hop
    rw [ofBits_encode, readPayload, if_neg hrrq, if_neg hwrq, if_neg hdata, if_neg hack,
      if_neg herror, if_neg hoack]
    rfl

/-- The grammar does not see the order of a dictionary. -/
theorem Derives.same {bits : List UInt8} {p packet : TftpPacket} (h : Derives bits p)
    (hsame : Same p packet) : Derives bits packet := by
  cases hsame with
  | refl => exact h
  | rrq hlookup =>
    cases h with
    | rrq hf hx hp ho => exact Derives.rrq hf hx hp fun name => (hlookup name).symm.trans (ho name)
  | wrq hlookup =>
    cases h with
    | wrq hf hx hp ho => exact Derives.wrq hf hx hp fun name => (hlookup name).symm.trans (ho name)
  | oack hlookup =>
    cases h with
    | oack hp ho => exact Derives.oack hp fun name => (hlookup name).symm.trans (ho name)

/-- **The decoder accepts exactly its grammar.** Any bytes that have a derivation are read as the
packet they stand for, all others are refused with "not enough data", and no loop of the decoder
goes round for ever, wherever its cursor stands. -/
theorem ofBits_iff_derives (bits : List UInt8) :
    (∀ packet, Derives bits packet ↔ ∃ p, ofBits bits = .ok p ∧ Same p packet) ∧
      ((∀ packet, ¬Derives bits packet) → ofBits bits = .error notEnoughData) ∧
      (bits.length < 2 → ofBits bits = .error notEnoughData) ∧
      (∀ value s, Halts (asciizBody (o := .network)) value s) ∧
      (∀ options s, Halts (notEmptyBody readOption) options s) ∧
      ∀ data s, Halts (notEmptyBody readDataByte) data s := by
  have hnone : (∀ packet, ¬Derives bits packet) → ofBits bits = .error notEnoughData := by
    intro hnone
    cases hbits : ofBits bits with
    | ok packet => exact absurd (derives_of_ofBits hbits) (hnone packet)
    | error e => rw [ofBits_error hbits]
  refine ⟨fun packet => ⟨ofBits_of_derives, ?_⟩, hnone, fun hlen => hnone fun packet h => ?_,
    fun value s => Halts.of_decreases decreases_asciizBody value s,
    fun options s => Halts.of_decreases (decreases_notEmptyBody consumes_readOption) options s,
    fun data s => Halts.of_decreases (decreases_notEmptyBody consumes_readDataByte) data s⟩
  · rintro ⟨p, hp, hsame⟩
    exact (derives_of_ofBits hp).same hsame
  · -- every derivation starts with the two bytes of an opcode
    have hsize : ∀ op : UInt16, (Scalar.encode .network op).length = 2 := fun op =>
      Scalar.length_encode _ op
    cases h <;> rw [List.length_append, hsize] at hlen <;> omega

example : ofBits [0, 6, 97, 0, 98, 0, 97, 0, 99, 0] =
    .ok (.oack ⟨UnorderedMap.emplace ∅ [97] [98]⟩) := by rfl

/-! ### What the encoder writes is derived -/

/-- A packet whose strings can be sent with a NUL behind them. -/
def StringsNulFree : TftpPacket → Prop
  | rrq value => NulFree value.filename ∧ NulFree value.xfermode ∧ NulFreePairs value.options.toList
  | wrq value => NulFree value.filename ∧ NulFree value.xfermode ∧ NulFreePairs value.options.toList
  | error value => NulFree value.errorString
  | oack value => NulFreePairs value.options.toList
  | data _ | ack _ | monostate => True

theorem firstWins_toList (options : DictionaryType) : FirstWins options.toList options :=
  fun name => (UnorderedMap.lookup_toList options name).symm

/-- A packet is written as bytes that stand for it. -/
theorem serialize_derives {packet : TftpPacket} (hne : packet ≠ monostate)
    (hnul : packet.StringsNulFree) :
    ∃ bits, serializeToVector packet = .ok bits ∧ Derives bits packet := by
  cases packet with
  | monostate => exact absurd rfl hne
  | rrq value =>
    obtain ⟨hf, hx, hp⟩ := hnul
    exact ⟨_, serialize_rrq value, Derives.rrq hf hx hp (firstWins_toList value.options)⟩
  | wrq value =>
    obtain ⟨hf, hx, hp⟩ := hnul
    exact ⟨_, serialize_wrq value, Derives.wrq hf hx hp (firstWins_toList value.options)⟩
  | data value => exact ⟨_, serialize_data value, Derives.data value.blockId value.data⟩
  | ack value =>
    refine ⟨_, serialize_ack value, ?_⟩
    have h := Derives.ack value.blockId []
    rwa [List.append_nil] at h
  | error value => exact ⟨_, serialize_error value, Derives.error value.errorCode [] hnul⟩
  | oack value =>
    exact ⟨_, serialize_oack value, Derives.oack hnul (firstWins_toList value.options)⟩

/-- **Round trip.** A packet of any of the six kinds, with its dictionary in any order, is written
and read back as an equal packet. -/
theorem ofBits_serialize (packet : TftpPacket) (hne : packet ≠ monostate)
    (hnul : packet.StringsNulFree) :
    ∃ bits p, serializeToVector packet = .ok bits ∧ ofBits bits = .ok p ∧ Same p packet := by
  obtain ⟨bits, hbits, hderives⟩ := serialize_derives hne hnul
  obtain ⟨p, hp, hsame⟩ := ofBits_of_derives hderives
  exact ⟨bits, p, hbits, hp, hsame⟩

/-- A read request with two options. -/
def sampleRrq : TftpPacket :=
  .rrq ⟨lit "a", lit "octet",
    UnorderedMap.emplace (UnorderedMap.emplace ∅ (lit "tsize") (lit "0")) (lit "blksize") (lit "9")⟩

theorem ofBits_serialize_sampleRrq :
    ∃ bits p, serializeToVector sampleRrq = .ok bits ∧ ofBits bits = .ok p ∧ Same p sampleRrq :=
  ofBits_serialize sampleRrq (by decide) (by
    refine ⟨by decide, by decide, ?_⟩
    unfold NulFreePairs
    decide)

end TftpPacket

end Bootpd
