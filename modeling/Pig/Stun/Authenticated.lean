import Pig.Stun.Decisions
import Pig.Stun.Walk

namespace Pig.Stun

open Go

structure SameUpTo (position : Nat) (raw other : Bytes) : Prop where
  le_length : position ≤ raw.length
  le_length_other : position ≤ other.length
  type_eq : raw.window 0 2 = other.window 0 2
  rest_eq : raw.window 4 (position - 4) = other.window 4 (position - 4)

section

variable {raw other : Bytes} {count : Nat}

theorem SameUpTo.window_eq (same : SameUpTo (20 + count) raw other) {start length : Nat}
    (hstart : 4 ≤ start) (hinside : start + length ≤ 20 + count) :
    raw.window start length = other.window start length := by
  have hinner : start - 4 + length ≤ 20 + count - 4 := by omega
  have hwindow : ∀ bytes : Bytes, Bytes.window (bytes.window 4 (20 + count - 4)) (start - 4) length
      = bytes.window start length := by
    intro bytes
    rw [Bytes.window_window _ hinner, Nat.add_sub_cancel' hstart]
  rw [← hwindow raw, same.rest_eq, hwindow other]

theorem SameUpTo.agree (same : SameUpTo (20 + count) raw other) :
    Agree count (.ofBytes (raw.drop 20)) (.ofBytes (other.drop 20)) where
  le_len := by
    have hlength := same.le_length
    rw [Slice.len_ofBytes, List.length_drop]
    omega
  le_len_other := by
    have hlength := same.le_length_other
    rw [Slice.len_ofBytes, List.length_drop]
    omega
  take_eq := same.window_eq (by decide) (Nat.le_refl _)

end

section

variable {data : Slice} {msg : Message}

theorem length_raw_le (hdecode : decodeMessage data = .ok msg) :
    (Slice.ofBytes (msg.raw.drop 20)).len ≤ 65535 := by
  obtain ⟨hlen, -, -, hraw⟩ := decodeMessage_eq_ok hdecode
  have hlength := (headerAt data).length.toNat_lt
  rw [Slice.len_ofBytes, List.length_drop, hraw, List.length_take]
  omega

theorem attributes_of_walk {front : List Attribute} {count : Nat} (hdecode : decodeMessage data =
    .ok msg) (hcount : 20 + count ≤ msg.raw.length) (walk : Walk (.ofBytes (msg.raw.drop 20)) front
    count) :
    ∃ tail, msg.attributes = front ++ tail := by
  obtain ⟨hlen, -, hattributes, hraw⟩ := decodeMessage_eq_ok hdecode
  have hcap := data.len_le
  have hlength := (headerAt data).length.toNat_lt
  have hrawLength : msg.raw.length = 20 + (headerAt data).length.toNat := by
    rw [hraw, List.length_take]
    omega
  have agree : Agree count (.ofBytes (msg.raw.drop 20)) (areaAt data hlen) := by
    refine ⟨?_, ?_, ?_⟩
    · rw [Slice.len_ofBytes, List.length_drop]
      omega
    · change count ≤ (headerAt data).length.toNat
      omega
    · change (msg.raw.drop 20).take count = (data.array.drop 20).take count
      rw [hraw, List.drop_take, List.take_take, Nat.add_sub_cancel_left, Nat.min_eq_left (by omega)]
  have harea := walk.transfer agree (length_raw_le hdecode)
    (by change (headerAt data).length.toNat ≤ 65535; omega)
  rw [decodeAttributes_of_walk harea, bind_eq_ok] at hattributes
  obtain ⟨tail, -, htail⟩ := hattributes
  exact ⟨tail, (Except.ok.inj htail).symm⟩

theorem header_eq_raw (hdecode : decodeMessage data = .ok msg) :
    20 ≤ msg.raw.length ∧ msg.header.authenticated = {
      type := UInt16.ofNat (msg.raw.window 0 2).toNatBE
      length := 0
      magicCookie := UInt32.ofNat (msg.raw.window 4 4).toNatBE
      transactionID := .copyOf 12 (msg.raw.window 8 12) } := by
  obtain ⟨hlen, hheader, -, hraw⟩ := decodeMessage_eq_ok hdecode
  have hcap := data.len_le
  constructor
  · rw [hraw, List.length_take]
    omega
  · rw [hheader, hraw, Bytes.window_take _ (by omega),
      Bytes.window_take _ (by omega), Bytes.window_take _ (by omega)]
    rfl

end

theorem SameUpTo.header_eq {data other : Slice} {msg another : Message} {count : Nat}
    (same : SameUpTo (20 + count) msg.raw another.raw) (hdecode : decodeMessage data = .ok msg)
    (hdecodeOther : decodeMessage other = .ok another) :
    msg.header.authenticated = another.header.authenticated := by
  rw [(header_eq_raw hdecode).2, (header_eq_raw hdecodeOther).2, same.type_eq,
    same.window_eq (by decide) (by omega), same.window_eq (by decide) (by omega)]

theorem suppliedAddress_messageIntegrity (txID : FixedBytes 12)
    (before tail : List Attribute) (digest : FixedBytes 20) :
    suppliedAddress txID (before ++ [.messageIntegrity digest]) tail =
      suppliedAddress txID before tail := by
  have hfind : ∀ kind, kind ≠ .messageIntegrity → findKind kind (before ++
      [.messageIntegrity digest]) = findKind kind before := by
    intro kind hkind
    rw [findKind, findKind, List.find?_append, List.find?_cons_of_neg]
    · exact Option.or_none
    · exact fun hfound => hkind (of_decide_eq_true hfound).symm
  rw [suppliedAddress, suppliedAddress, addressSource, addressSource,
    hfind _ (by decide), hfind _ (by decide)]

theorem hasKind_append {kind : Kind} {front tail : List Attribute} :
    hasKind kind (front ++ tail) ↔ hasKind kind front ∨ hasKind kind tail := by
  simp only [hasKind, List.mem_append, or_and_right, exists_or]

theorem hasKind_messageIntegrity {before tail : List Attribute} {digest : FixedBytes 20} :
    hasKind .iceUseCandidate (before ++ [.messageIntegrity digest] ++ tail) ↔
      hasKind .iceUseCandidate before ∨ hasKind .iceUseCandidate tail := by
  have hdigest : ¬ hasKind .iceUseCandidate [.messageIntegrity digest] := by
    simp [hasKind, Attribute.kind]
  rw [hasKind_append, hasKind_append, or_iff_left hdigest]

theorem findKind_of_not_hasKind {kind : Kind} {attrs : List Attribute}
    (hnone : ¬ hasKind kind attrs) : findKind kind attrs = none := by
  rw [findKind, List.find?_eq_none]
  intro attr hattr hkind
  exact hnone ⟨attr, hattr, of_decide_eq_true hkind⟩

def Silent (attrs : List Attribute) : Prop := ¬ hasKind .iceUseCandidate attrs ∧ ¬ hasKind
  .xorMappedAddress attrs ∧ ¬ hasKind .mappedAddress attrs

theorem suppliedAddress_of_silent (txID : FixedBytes 12)
    {before tail : List Attribute} (hsilent : Silent tail) :
    suppliedAddress txID before tail = suppliedAddress txID before [] := by
  obtain ⟨-, hxor, hmapped⟩ := hsilent
  rw [suppliedAddress, suppliedAddress, addressSource, addressSource,
    findKind_of_not_hasKind hxor, findKind_of_not_hasKind hmapped]
  rfl

/-- Two messages that are decoded and pass the integrity check with the same
credentials, and whose bytes are the same up to and including a
MESSAGE-INTEGRITY attribute. -/
structure SharedFront (algorithms : Algorithms) (auth : Option AuthConfig)
    (before : List Attribute) (digest : FixedBytes 20)
    (msg another : Message) : Prop where
  decoded : ∃ data, decodeMessage data = .ok msg
  decodedOther : ∃ data, decodeMessage data = .ok another
  same : ∃ count, Walk (.ofBytes (msg.raw.drop 20)) (before ++ [.messageIntegrity digest]) count ∧
    SameUpTo (20 + count) msg.raw another.raw
  integrity : validateShortTermIntegrity algorithms msg auth = .ok ()
  integrityOther : validateShortTermIntegrity algorithms another auth = .ok ()

section

variable (algorithms : Algorithms) (agent : BindingAgent)

def SameNomination (sent : Bool) (msg another : Message) : Prop := agent.handleRequest algorithms
  msg sent = .ok true ↔ agent.handleRequest algorithms another sent = .ok true

def SameAddress (txID : FixedBytes 12) (msg another : Message) : Prop := returnedAddress algorithms
  agent.handleOptions txID msg = returnedAddress algorithms agent.handleOptions txID another

/-- If such a request is answered at all, USE-CANDIDATE is found in both or in
neither, among those of the two that are acceptable. -/
def NominationUnaffected (sent : Bool) (before tail tailOther : List Attribute)
  (msg another : Message) : Prop := Answers algorithms agent msg.header.authenticated sent →
  (Acceptable algorithms agent.handleOptions msg ∧ (hasKind .iceUseCandidate before ∨ hasKind
  .iceUseCandidate tail) ↔ Acceptable algorithms agent.handleOptions another ∧
  (hasKind .iceUseCandidate before ∨ hasKind .iceUseCandidate tailOther))

/-- If such a response is expected at all, both supply the same address, if
they are acceptable. -/
def AddressUnaffected (txID : FixedBytes 12) (before tail tailOther : List Attribute)
  (msg another : Message) : Prop := Expects msg.header.authenticated txID → ∀ address,
  (Acceptable algorithms agent.handleOptions msg ∧ suppliedAddress txID before tail = some address ↔
  Acceptable algorithms agent.handleOptions another ∧ suppliedAddress txID before tailOther = some
  address)

variable {algorithms agent} {msg another : Message}
  {before tail tailOther : List Attribute} {digest : FixedBytes 20}

theorem SharedFront.attributes_eq
    (shared : SharedFront algorithms agent.handleOptions.auth before digest msg another) :
    ∃ tail tailOther, msg.attributes = before ++ [.messageIntegrity digest] ++ tail ∧
      another.attributes = before ++ [.messageIntegrity digest] ++ tailOther ∧
      msg.header.authenticated = another.header.authenticated := by
  obtain ⟨data, hdecode⟩ := shared.decoded
  obtain ⟨other, hdecodeOther⟩ := shared.decodedOther
  obtain ⟨count, walk, same⟩ := shared.same
  obtain ⟨tail, htail⟩ := attributes_of_walk hdecode same.le_length walk
  obtain ⟨tailOther, htailOther⟩ := attributes_of_walk hdecodeOther same.le_length_other
    (walk.transfer same.agree (length_raw_le hdecode) (length_raw_le hdecodeOther))
  exact ⟨tail, tailOther, htail, htailOther, same.header_eq hdecode hdecodeOther⟩

variable (htail : msg.attributes = before ++ [.messageIntegrity digest] ++ tail)
  (htailOther : another.attributes = before ++ [.messageIntegrity digest] ++ tailOther)
  (hheader : msg.header.authenticated = another.header.authenticated)
  (shared : SharedFront algorithms agent.handleOptions.auth before digest msg another)

include htail htailOther hheader shared

theorem sameNomination_iff (sent : Bool) :
    SameNomination algorithms agent sent msg another ↔
      NominationUnaffected algorithms agent sent before tail tailOther msg
        another := by
  rw [SameNomination, NominationUnaffected, handleRequest_iff shared.integrity,
    handleRequest_iff shared.integrityOther, ← hheader, and_congr_right_iff,
    htail, htailOther, ← hasKind_messageIntegrity, ← hasKind_messageIntegrity]
  rfl

theorem sameAddress_iff (txID : FixedBytes 12) :
    SameAddress algorithms agent txID msg another ↔
      AddressUnaffected algorithms agent txID before tail tailOther msg
        another := by
  rw [SameAddress, AddressUnaffected, Option.ext_iff, forall_comm]
  refine forall_congr' fun address => ?_
  rw [returnedAddress_iff shared.integrity, returnedAddress_iff shared.integrityOther, ← hheader,
    and_congr_right_iff, mappedAddrPort_iff htail, mappedAddrPort_iff htailOther,
    suppliedAddress_messageIntegrity, suppliedAddress_messageIntegrity]
  refine forall_congr' fun expects => ?_
  have htxID : msg.header.transactionID = txID := expects.transactionID
  have htxIDOther : another.header.transactionID = txID :=
    (congrArg Header.transactionID hheader).symm.trans htxID
  rw [htxID, htxIDOther]

end

/-- The decisions on two messages with the same authenticated part, compared by
what each of them has behind it. -/
theorem authenticated_decisions_iff (algorithms : Algorithms)
    (agent : BindingAgent) (sent : Bool) (txID : FixedBytes 12)
    (before : List Attribute) (digest : FixedBytes 20) (msg another : Message)
    (shared : SharedFront algorithms agent.handleOptions.auth before digest msg another) :
    ∃ tail tailOther, msg.attributes = before ++ [.messageIntegrity digest] ++ tail ∧
      another.attributes = before ++ [.messageIntegrity digest] ++ tailOther ∧
      (SameNomination algorithms agent sent msg another ↔ NominationUnaffected algorithms agent sent
      before tail tailOther msg another) ∧ (SameAddress algorithms agent txID msg another ↔
      AddressUnaffected algorithms agent txID before tail tailOther msg another) ∧
      (Silent tail → Silent tailOther → (Acceptable algorithms agent.handleOptions msg ↔ Acceptable
      algorithms agent.handleOptions another) → SameNomination algorithms agent sent msg another ∧
      SameAddress algorithms agent txID msg another) := by
  obtain ⟨tail, tailOther, htail, htailOther, hheader⟩ := shared.attributes_eq
  have hnomination := sameNomination_iff htail htailOther hheader shared sent
  have haddress := sameAddress_iff htail htailOther hheader shared txID
  refine ⟨tail, tailOther, htail, htailOther, hnomination, haddress, ?_⟩
  intro hsilent hsilentOther hacceptable
  refine ⟨hnomination.mpr fun _ => ?_, haddress.mpr fun _ address => ?_⟩
  · rw [or_iff_left hsilent.1, or_iff_left hsilentOther.1, hacceptable]
  · rw [suppliedAddress_of_silent txID hsilent, suppliedAddress_of_silent txID hsilentOther,
      hacceptable]

/-! A request and a response, each with and without an attribute appended by
someone who does not know the password. -/

def requestDigest : Bytes := [0xde, 0xa9, 0x0f, 0x0f, 0x84, 0x7d, 0x1a, 0x45, 0xa8, 0xbd, 0xb9,
  0x85, 0x77, 0xe2, 0xe2, 0x36, 0x72, 0x97, 0x10, 0xe0]

def responseDigest : Bytes := [0x8f, 0x57, 0xa4, 0xfa, 0x3f, 0x00, 0xb2, 0x6c, 0x8a, 0x14, 0xd2,
  0x2b, 0xcd, 0x3f, 0xb8, 0x80, 0xaa, 0x64, 0x4e, 0x39]

/-- HMAC-SHA1 with the key "pw" and CRC-32 as they are on these messages, told
apart by the number of bytes covered. -/
def sampleAlgorithms : Algorithms where
  sha1 := {
    size := 20
    hmac := fun _ message =>
      if message.length = 28 then requestDigest else responseDigest
    length_hmac := by
      intro key message
      split <;> rfl }
  size_sha1 := rfl
  crc32 := fun message =>
    match message.length with
    | 52 => 0xc27a4f7e
    | 56 => 0x6f4db3e0
    | 64 => 0xa3212c67
    | _ => 0x7e6ff704
  opaqueString := fun text => text

def sampleAgent : BindingAgent where
  remoteAddr := some (.udp [10, 0, 0, 2] 5000)
  requestOptions := none
  handleOptions := {
    auth := some ⟨[0x62, 0x3a, 0x61], [0x70, 0x77], [], []⟩
    ice := some ⟨0, false, 0, 0x12345678⟩
    requireFingerprint := true }

def sampleTxID : FixedBytes 12 := .copyOf 12 [1, 2, 3, 4, 5, 6, 7, 8, 9, 10, 11, 12]

def sampleMessage (msgType length : UInt16) (attributes : List Attribute)
    (encoding : Bytes) : Message where
  header := ⟨msgType, length, magicCookie, sampleTxID⟩
  attributes := attributes
  raw := (Header.mk msgType length magicCookie sampleTxID).serializeTo ++ encoding
  fingerprint := false

def requestFront : Bytes :=
  [0x00, 0x06, 0x00, 0x03, 0x62, 0x3a, 0x61, 0x00, 0x00, 0x08, 0x00, 0x14] ++ requestDigest

def request : Message := sampleMessage 0x0001 40 [.username [0x62, 0x3a, 0x61], .messageIntegrity
    (.copyOf 20 requestDigest), .fingerprint 0x912e1a30] (requestFront ++
    [0x80, 0x28, 0x00, 0x04, 0x91, 0x2e, 0x1a, 0x30])

def nominatingRequest : Message := sampleMessage 0x0001 44 [.username [0x62, 0x3a, 0x61],
    .messageIntegrity (.copyOf 20 requestDigest), .iceUseCandidate, .fingerprint 0x3c19e6ae]
    (requestFront ++ [0x00, 0x25, 0x00, 0x00, 0x80, 0x28, 0x00, 0x04, 0x3c, 0x19, 0xe6, 0xae])

def responseFront : Bytes := [0x00, 0x06, 0x00, 0x03, 0x62, 0x3a, 0x61, 0x00, 0x00, 0x01, 0x00,
  0x08, 0x00, 0x01, 0x1f, 0x90, 0x0a, 0x00, 0x00, 0x01, 0x00, 0x08, 0x00, 0x14] ++ responseDigest

def mappedValue : Bytes := [0x00, 0x01, 0x1f, 0x90, 0x0a, 0x00, 0x00, 0x01]

def xorValue : Bytes := [0x00, 0x01, 0x3b, 0x18, 0x27, 0x14, 0xa2, 0x44]

def response : Message := sampleMessage 0x0101 52 [.username [0x62, 0x3a, 0x61], .mappedAddress
    mappedValue, .messageIntegrity (.copyOf 20 responseDigest), .fingerprint 0xf0757929]
    (responseFront ++ [0x80, 0x28, 0x00, 0x04, 0xf0, 0x75, 0x79, 0x29])

def redirectingResponse : Message := sampleMessage 0x0101 64 [.username [0x62, 0x3a, 0x61],
    .mappedAddress mappedValue, .messageIntegrity (.copyOf 20 responseDigest), .xorMappedAddress
    xorValue, .fingerprint 0x2d3ba24a] (responseFront ++ [0x00, 0x20, 0x00, 0x08] ++ xorValue ++
    [0x80, 0x28, 0x00, 0x04, 0x2d, 0x3b, 0xa2, 0x4a])

theorem sharedFront_request : SharedFront sampleAlgorithms sampleAgent.handleOptions.auth
      [.username [0x62, 0x3a, 0x61]] (.copyOf 20 requestDigest) request nominatingRequest where
  decoded := ⟨.ofBytes request.raw, by decide +kernel⟩
  decodedOther := ⟨.ofBytes nominatingRequest.raw, by decide +kernel⟩
  same := ⟨_, .decoded (by decide +kernel) (.decoded (by decide +kernel) (.here _)),
    ⟨by decide +kernel, by decide +kernel, by decide +kernel,
      by decide +kernel⟩⟩
  integrity := by decide +kernel
  integrityOther := by decide +kernel

theorem sharedFront_response : SharedFront sampleAlgorithms sampleAgent.handleOptions.auth
      [.username [0x62, 0x3a, 0x61], .mappedAddress mappedValue]
      (.copyOf 20 responseDigest) response redirectingResponse where
  decoded := ⟨.ofBytes response.raw, by decide +kernel⟩
  decodedOther := ⟨.ofBytes redirectingResponse.raw, by decide +kernel⟩
  same := ⟨_, .decoded (by decide +kernel) (.decoded (by decide +kernel)
      (.decoded (by decide +kernel) (.here _))),
    ⟨by decide +kernel, by decide +kernel, by decide +kernel,
      by decide +kernel⟩⟩
  integrity := by decide +kernel
  integrityOther := by decide +kernel

/-- Appended behind the MESSAGE-INTEGRITY, USE-CANDIDATE nominates the agent and
XOR-MAPPED-ADDRESS replaces the address. -/
theorem exists_not_sameDecisions : (SharedFront sampleAlgorithms sampleAgent.handleOptions.auth
    [.username [0x62, 0x3a, 0x61]] (.copyOf 20 requestDigest) request nominatingRequest ∧
    sampleAgent.handleRequest sampleAlgorithms request true = .ok false ∧ sampleAgent.handleRequest
    sampleAlgorithms nominatingRequest true = .ok true ∧ ¬ SameNomination sampleAlgorithms
    sampleAgent true request nominatingRequest) ∧ SharedFront sampleAlgorithms
    sampleAgent.handleOptions.auth [.username [0x62, 0x3a, 0x61], .mappedAddress mappedValue]
    (.copyOf 20 responseDigest) response redirectingResponse ∧ returnedAddress sampleAlgorithms
    sampleAgent.handleOptions sampleTxID response = some ([10, 0, 0, 1], 8080) ∧ returnedAddress
    sampleAlgorithms sampleAgent.handleOptions sampleTxID redirectingResponse = some
    ([6, 6, 6, 6], 6666) ∧ ¬ SameAddress sampleAlgorithms sampleAgent sampleTxID response
        redirectingResponse := by
  have hplain : sampleAgent.handleRequest sampleAlgorithms request true =
      .ok false := by decide +kernel
  have hnominates : sampleAgent.handleRequest sampleAlgorithms
      nominatingRequest true = .ok true := by decide +kernel
  have haddress : returnedAddress sampleAlgorithms sampleAgent.handleOptions
      sampleTxID response = some ([10, 0, 0, 1], 8080) := by decide +kernel
  have hredirects : returnedAddress sampleAlgorithms sampleAgent.handleOptions
      sampleTxID redirectingResponse = some ([6, 6, 6, 6], 6666) := by
    decide +kernel
  refine ⟨⟨sharedFront_request, hplain, hnominates, fun hsame => ?_⟩,
    sharedFront_response, haddress, hredirects, fun hsame => ?_⟩
  · cases hplain.symm.trans (hsame.mpr hnominates)
  · rw [SameAddress, haddress, hredirects] at hsame
    exact absurd hsame (by decide)

theorem authenticated_decisions_iff_request : ∃ tail tailOther, request.attributes =
  [.username [0x62, 0x3a, 0x61]] ++ [.messageIntegrity (.copyOf 20 requestDigest)] ++ tail ∧
  nominatingRequest.attributes = [.username [0x62, 0x3a, 0x61]] ++
  [.messageIntegrity (.copyOf 20 requestDigest)] ++ tailOther ∧ (SameNomination sampleAlgorithms
  sampleAgent true request nominatingRequest ↔ NominationUnaffected sampleAlgorithms sampleAgent
  true [.username [0x62, 0x3a, 0x61]] tail tailOther request nominatingRequest) ∧
  (SameAddress sampleAlgorithms sampleAgent sampleTxID request nominatingRequest ↔ AddressUnaffected
  sampleAlgorithms sampleAgent sampleTxID [.username [0x62, 0x3a, 0x61]] tail tailOther request
  nominatingRequest) ∧ (Silent tail → Silent tailOther → (Acceptable sampleAlgorithms
  sampleAgent.handleOptions request ↔ Acceptable sampleAlgorithms sampleAgent.handleOptions
  nominatingRequest) → SameNomination sampleAlgorithms sampleAgent true request nominatingRequest ∧
  SameAddress sampleAlgorithms sampleAgent sampleTxID request nominatingRequest) :=
  authenticated_decisions_iff sampleAlgorithms sampleAgent true sampleTxID
  [.username [0x62, 0x3a, 0x61]] (.copyOf 20 requestDigest) request nominatingRequest
  sharedFront_request

end Pig.Stun
