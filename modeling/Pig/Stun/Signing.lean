import Pig.Stun.Assembly
import Pig.Stun.Authenticated

namespace Pig.Stun

open Go

theorem length_le_area (tlvs : List Tlv) : tlvs.length ≤ (area tlvs).length := by
  induction tlvs with
  | nil => exact Nat.le_refl 0
  | cons tlv tlvs ih =>
    rw [area_cons, List.length_append, tlv.length_bytes, attrSerializedSize, List.length_cons]
    omega

section

variable {message front back : Bytes} {tlv : Tlv} {attrType : Nat}

section

variable (hmessage : message = front ++ (tlv.bytes ++ back))

include hmessage

theorem code_of_message :
    (message.window front.length 2).toNatBE = tlv.code := by
  have hread : message.window front.length 2 = Bytes.ofNatBE 2 tlv.code := by
    rw [hmessage, Tlv.bytes, List.append_assoc, List.append_assoc,
      List.append_assoc, ← List.append_assoc front]
    exact Bytes.window_middle rfl (Bytes.length_ofNatBE _ _)
  rw [hread, Bytes.toNatBE_ofNatBE]
  exact Nat.mod_eq_of_lt tlv.code_lt

theorem length_of_message :
    (message.window (front.length + 2) 2).toNatBE = tlv.value.length := by
  have hread : message.window (front.length + 2) 2 = Bytes.ofNatBE 2 tlv.value.length := by
    rw [hmessage, Tlv.bytes, List.append_assoc, List.append_assoc, List.append_assoc, ←
      List.append_assoc front, ← List.append_assoc (front ++ _)]
    apply Bytes.window_middle
    · rw [List.length_append, Bytes.length_ofNatBE]
    · exact Bytes.length_ofNatBE _ _
  rw [hread, Bytes.toNatBE_ofNatBE]
  exact Nat.mod_eq_of_lt tlv.length_lt

theorem four_le_of_message :
    ¬ message.length < front.length + 4 := by
  rw [hmessage, List.length_append, List.length_append, tlv.length_bytes, attrSerializedSize]
  omega

end

theorem findPosition_step (fuel : Nat) (hmessage : message = front ++ (tlv.bytes ++ back))
    (hcode : tlv.code ≠ attrType) :
    findPosition message attrType (fuel + 1) front.length =
      findPosition message attrType fuel (front ++ tlv.bytes).length := by
  rw [findPosition, if_neg (four_le_of_message hmessage), if_neg (by rwa
    [code_of_message hmessage]), length_of_message hmessage, List.length_append, tlv.length_bytes]

theorem findPosition_area {tlvs : List Tlv} {fuel : Nat} (hmessage : message = front ++
    (area tlvs ++ (tlv.bytes ++ back))) (hbefore : ∀ before ∈ tlvs, before.code ≠ attrType)
    (hcode : tlv.code = attrType) (hfuel : tlvs.length < fuel) :
    findPosition message attrType fuel front.length = some (front.length + (area tlvs).length) := by
  induction tlvs generalizing front fuel with
  | nil =>
    obtain ⟨fuel, rfl⟩ := Nat.exists_eq_succ_of_ne_zero (by omega : fuel ≠ 0)
    change message = front ++ (tlv.bytes ++ back) at hmessage
    rw [findPosition, if_neg (four_le_of_message hmessage),
      if_pos ((code_of_message hmessage).trans hcode)]
    rfl
  | cons before tlvs ih =>
    obtain ⟨fuel, rfl⟩ := Nat.exists_eq_succ_of_ne_zero (by omega : fuel ≠ 0)
    have hlater : message = (front ++ before.bytes) ++ (area tlvs ++ (tlv.bytes ++ back)) := by
      rw [hmessage, area_cons, List.append_assoc, List.append_assoc]
    rw [area_cons, List.append_assoc] at hmessage
    rw [findPosition_step fuel hmessage (hbefore before List.mem_cons_self),
      ih hlater (fun other hother =>
        hbefore other (List.mem_cons_of_mem _ hother))
        (Nat.lt_of_succ_lt_succ hfuel),
      area_cons, List.length_append, List.length_append, Nat.add_assoc]

end

/-! The digest of a message does not depend on its length field, nor on what
stands behind the integrity attribute. -/

def covered (header : Header) (size : Nat) (front : Bytes) : Bytes :=
  { header with length := UInt16.ofNat (front.length + (4 + size)) }.serializeTo ++ front

section

variable (opaqueString : Bytes → Bytes) (hash : Hash)

section

variable {raw : Bytes} {header : Header} {front : List Tlv} {tlv : Tlv} {back password : Bytes}
  {attrType : Kind} (hraw : raw = header.serializeTo ++ (area front ++ (tlv.bytes ++ back)))
  (hpassword : password ≠ []) (hbefore : ∀ before ∈ front, before.code ≠ attrType.code)
  (hcode : tlv.code = attrType.code)

include hraw hpassword hbefore hcode

theorem calculateShortTerm_of_found :
    calculateShortTermMessageIntegrityWithHash opaqueString hash raw password attrType = some
      (hash.hmac (opaqueString password) (covered header hash.size (area front))) := by
  have hheader := length_serializeTo header
  have hposition : findPosition raw attrType.code raw.length 20 = some
      (20 + (area front).length) := by
    have hlength := length_le_area front
    rw [← hheader]
    apply findPosition_area hraw hbefore hcode
    simp only [hraw, List.length_append]
    omega
  have htake : raw.take (20 + (area front).length) = header.serializeTo ++ area front := by
    rw [hraw, ← List.append_assoc]
    apply List.take_left'
    rw [List.length_append, hheader]
  have hlong : ¬ (password = [] ∨ raw.length < 20) := by
    rw [hraw, List.length_append, hheader]
    simp only [hpassword, false_or]
    omega
  rw [calculateShortTermMessageIntegrityWithHash, if_neg hlong]
  simp only [hposition, Option.getD_some, htake, putLength_serializeTo, Nat.add_sub_cancel_left]
  rfl

theorem verifyWithHash_of_found {msg : Message} {value : FixedBytes 20} (hmsg : msg.raw = raw)
    (hfound : msg.findAttribute attrType = some (.messageIntegrity value)) :
    msg.verifyMessageIntegrityWithHash opaqueString hash password attrType =
      .ok (value.bytes = hash.hmac (opaqueString password)
        (covered header hash.size (area front))) := by
  rw [Message.verifyMessageIntegrityWithHash, if_neg hpassword, hfound, hmsg]
  simp only [calculateShortTerm_of_found opaqueString hash hraw hpassword hbefore hcode]

end

end

structure Message.Holds (tlvs : List Tlv) (msg : Message) : Prop where
  raw_eq : msg.raw = msg.header.serializeTo ++ area tlvs
  attributes_eq : msg.attributes = tlvs.filterMap Tlv.decoded

structure Message.WellFormed (msg : Message) : Prop where
  holds : ∃ tlvs, msg.Holds tlvs ∧ msg.header.length.toNat = (area tlvs).length ∧ ∀ tlv ∈ tlvs, ∀
    kind, typeRegistry tlv.code = some kind → kind.layout.lengths tlv.value.length = true

@[simp] theorem Attribute.kind_ofValue (kind : Kind) (value : Bytes) :
    (Attribute.ofValue kind value).kind = kind := by
  cases kind <;> rfl

theorem Tlv.kind_of_decoded {tlv : Tlv} {attr : Attribute}
    (hdecoded : tlv.decoded = some attr) : tlv.code = attr.kind.code := by
  obtain ⟨kind, hregistered, rfl⟩ := Option.map_eq_some_iff.mp hdecoded
  rw [Attribute.kind_ofValue, code_of_typeRegistry hregistered]

theorem Kind.code_injective {kind other : Kind} (heq : kind.code = other.code) : kind = other := by
  have hregistered := typeRegistry_code kind
  rw [heq, typeRegistry_code] at hregistered
  exact (Option.some.inj hregistered).symm

theorem Message.Holds.findAttribute {tlvs : List Tlv} {msg : Message}
    (holds : msg.Holds tlvs) (kind : Kind) :
    msg.findAttribute kind = (tlvs.find? fun tlv => tlv.code = kind.code).bind Tlv.decoded := by
  rw [Message.findAttribute, holds.attributes_eq]
  clear holds
  induction tlvs with
  | nil => rfl
  | cons tlv tlvs ih =>
    cases hdecoded : tlv.decoded with
    | none =>
      have hcode : tlv.code ≠ kind.code := by
        intro hcode
        rw [Tlv.decoded, hcode, typeRegistry_code] at hdecoded
        cases hdecoded
      rw [List.filterMap_cons_none hdecoded, List.find?_cons_of_neg (by simpa using hcode)]
      exact ih
    | some attr =>
      have hcode := Tlv.kind_of_decoded hdecoded
      rw [List.filterMap_cons_some hdecoded]
      by_cases hkind : attr.kind = kind
      · rw [List.find?_cons_of_pos (by simpa using hkind), List.find?_cons_of_pos
          (by simpa [hkind] using hcode), Option.bind_some, hdecoded]
      · have hother : tlv.code ≠ kind.code := fun heq =>
          hkind (Kind.code_injective (hcode.symm.trans heq))
        rw [List.find?_cons_of_neg (by simpa using hkind),
          List.find?_cons_of_neg (by simpa using hother)]
        exact ih

inductive IntegrityVariant where
  | sha1
  | sha256
  deriving DecidableEq, Repr

def IntegrityVariant.kind : IntegrityVariant → Kind
  | .sha1 => .messageIntegrity
  | .sha256 => .messageIntegritySHA256

section

variable (algorithms : Algorithms) (sha256New : Hash)

namespace Message

def verifyMessageIntegritySHA256 (msg : Message) (password : Bytes) : Except IntegrityError Bool :=
  msg.verifyMessageIntegrityWithHash algorithms.opaqueString sha256New password
    .messageIntegritySHA256

def addMessageIntegritySHA256 (msg : Message) (password : Bytes) :
    Except IntegrityFailure Message :=
  msg.addMessageIntegrityWithHash algorithms.opaqueString sha256New password .messageIntegritySHA256

end Message

namespace IntegrityVariant

def add : IntegrityVariant → Message → Bytes → Except Message.IntegrityFailure Message
  | .sha1 => Message.addMessageIntegrity algorithms
  | .sha256 => Message.addMessageIntegritySHA256 algorithms sha256New

def verify : IntegrityVariant → Message → Bytes → Except IntegrityError Bool
  | .sha1 => Message.verifyMessageIntegrity algorithms
  | .sha256 => Message.verifyMessageIntegritySHA256 algorithms sha256New

end IntegrityVariant

/-- The message takes the attribute, which then verifies, and nothing in front
of it changes but the length field. -/
def AddThenVerify (variant : IntegrityVariant) (msg : Message) (password : Bytes) : Prop := ∃ after,
  variant.add algorithms sha256New msg password = .ok after ∧ variant.verify algorithms sha256New
  after password = .ok true ∧ SameUpTo msg.raw.length after.raw msg.raw

end

def Message.MayAppend (msg : Message) (kind : Kind) : Prop :=
  ∀ last ∈ msg.attributes.getLast?, last.kind.mayFollow kind = true

theorem bytes_messageIntegrity (digest : FixedBytes 20) :
    (Attribute.messageIntegrity digest).toTlv.bytes = [0x00, 0x08, 0x00, 0x14] ++ digest.bytes := by
  have hlength := digest.length_eq
  have htake : digest.bytes.take 65535 = digest.bytes := List.take_of_length_le (by omega)
  simp [Tlv.bytes, Attribute.toTlv, Attribute.value, Attribute.getType, Attribute.kind, Kind.code,
    htake, hlength, calculatePadding, Bytes.ofNatBE]

section

variable {tlvs : List Tlv} {msg : Message} {attr : Attribute}

theorem Message.Holds.appendAttribute (holds : msg.Holds tlvs)
    (may : msg.MayAppend attr.kind) (hlength : attr.value.length < 65536) :
    ∃ after, msg.appendAttribute attr = .ok after ∧
      after.header = { msg.header with
        length := msg.header.length + UInt16.ofNat attr.serializeLen } ∧
      after.attributes = msg.attributes ++ [attr] ∧
      after.raw = after.header.serializeTo ++ (area tlvs ++ attr.toTlv.bytes) ∧
      after.fingerprint = msg.fingerprint := by
  have hplain : msg.appendAttribute attr = msg.unsafeAppendAttribute attr := by
    rw [Message.appendAttribute]
    cases hlast : msg.attributes.getLast? with
    | none => rfl
    | some last => simp only [if_pos (may last hlast)]
  rw [hplain, Message.unsafeAppendAttribute, Attribute.serializeTo_eq hlength]
  refine ⟨_, rfl, rfl, rfl, ?_, rfl⟩
  rw [holds.raw_eq, List.append_assoc, putLength_serializeTo]

theorem sameUpTo_serializeTo (header : Header) (length : UInt16) (body more : Bytes) :
    SameUpTo (header.serializeTo ++ body).length ({ header with length }.serializeTo ++
      (body ++ more)) (header.serializeTo ++ body) where
  le_length := by
    simp only [List.length_append, length_serializeTo]
    omega
  le_length_other := Nat.le_refl _
  type_eq := by simp [Bytes.window, Header.serializeTo]
  rest_eq := by
    rw [← List.append_assoc, Bytes.window_append_left]
    · simp [Bytes.window, Header.serializeTo, List.drop_append]
    · simp only [List.length_append, length_serializeTo]
      omega

end

section

variable (algorithms : Algorithms) {sha256New : Hash} {tlvs : List Tlv}
  {msg : Message} {password : Bytes}

structure Message.Signs (password : Bytes) (tlvs : List Tlv) (msg : Message)
    (digest : FixedBytes 20) (after : Message) : Prop where
  header_eq : after.header = { msg.header with length := msg.header.length + 24 }
  attributes_eq : after.attributes = msg.attributes ++ [.messageIntegrity digest]
  raw_eq : after.raw = after.header.serializeTo ++
    (area tlvs ++ (Attribute.messageIntegrity digest).toTlv.bytes)
  fingerprint_eq : after.fingerprint = msg.fingerprint
  digest_eq : (∀ tlv ∈ tlvs, tlv.code ≠ Kind.messageIntegrity.code) → digest.bytes =
    algorithms.sha1.hmac (algorithms.opaqueString password)
      (covered msg.header algorithms.sha1.size (area tlvs))

theorem Message.Holds.addMessageIntegrity (holds : msg.Holds tlvs)
    (may : msg.MayAppend .messageIntegrity) (hpassword : password ≠ []) :
    ∃ after digest, msg.addMessageIntegrity algorithms password = .ok after ∧
      Message.Signs algorithms password tlvs msg digest after := by
  obtain ⟨middle, happend, hheader, hattributes, hraw, hflag⟩ : ∃ middle,
      msg.appendAttribute (.messageIntegrity (.copyOf 20 [])) = .ok middle ∧
        _ := holds.appendAttribute may (by decide)
  have hlong : 20 ≤ middle.raw.length := by
    rw [hraw, List.length_append, length_serializeTo]
    omega
  obtain ⟨digest, hdigest, hcalculate⟩ := calculateIntegrity_eq_some algorithms hpassword hlong
  have hcopy := FixedBytes.bytes_copyOf hdigest
  rw [Message.addMessageIntegrity, Message.addMessageIntegrityWithHash, if_neg hpassword, happend]
  simp only [Except.mapError, ok_bind, hcalculate, hdigest, algorithms.size_sha1, ne_eq,
    not_true_eq_false, if_false, if_neg (Nat.not_lt.mpr hlong)]
  refine ⟨_, .copyOf 20 digest, rfl, hheader, ?_, ?_, hflag, ?_⟩
  · rw [hattributes, List.dropLast_concat]
  · simp only [hraw, bytes_messageIntegrity, hcopy]
    rw [← List.append_assoc, ← List.append_assoc, List.length_append,
      FixedBytes.length_eq, Nat.add_sub_cancel, List.take_left]
    simp only [List.append_assoc]
  · intro hbefore
    have hcode : (Attribute.messageIntegrity (.copyOf 20 [])).toTlv.code =
        Kind.messageIntegrity.code := rfl
    rw [← List.append_nil (Tlv.bytes _)] at hraw
    rw [calculateShortTerm_of_found _ _ hraw hpassword hbefore hcode] at hcalculate
    rw [hcopy, ← Option.some.inj hcalculate, hheader]
    rfl

theorem Message.Holds.integrity_cases (holds : msg.Holds tlvs) :
    ((∀ tlv ∈ tlvs, tlv.code ≠ Kind.messageIntegrity.code) ∧
      msg.findAttribute .messageIntegrity = none) ∨
    ∃ front tlv back value, tlvs = front ++ tlv :: back ∧ (∀ before ∈ front, before.code ≠
      Kind.messageIntegrity.code) ∧ tlv.code = Kind.messageIntegrity.code ∧ msg.findAttribute
      .messageIntegrity = some (.messageIntegrity value) := by
  have hfind := holds.findAttribute .messageIntegrity
  cases hfirst : tlvs.find? fun tlv =>
      tlv.code = Kind.messageIntegrity.code with
  | none =>
    rw [hfirst] at hfind
    exact .inl ⟨by simpa using hfirst, hfind⟩
  | some tlv =>
    obtain ⟨hcode, front, back, htlvs, hbefore⟩ := List.find?_eq_some_iff_append.mp hfirst
    have hcode : tlv.code = Kind.messageIntegrity.code := by simpa using hcode
    rw [hfirst, Option.bind_some, Tlv.decoded, hcode, typeRegistry_code, Option.map_some] at hfind
    exact .inr ⟨front, tlv, back, _, htlvs, by simpa using hbefore, hcode, hfind⟩

theorem hasKind_iff {kind : Kind} :
    hasKind kind msg.attributes ↔ msg.findAttribute kind ≠ none := by
  rw [hasKind, Message.findAttribute, ne_eq, List.find?_eq_none]
  simp

theorem Message.Holds.verify_of_add (holds : msg.Holds tlvs) {after : Message}
    {digest : FixedBytes 20} (hpassword : password ≠ [])
    (signs : Message.Signs algorithms password tlvs msg digest after) :
    after.verifyMessageIntegrity algorithms password = .ok true ↔ (hasKind .messageIntegrity
      msg.attributes → msg.verifyMessageIntegrity algorithms password = .ok true) := by
  have hfound : after.findAttribute .messageIntegrity = (msg.findAttribute .messageIntegrity).or
    (some (.messageIntegrity digest)) := findAttribute_append signs.attributes_eq
  have hraw := signs.raw_eq
  rw [hasKind_iff, Message.verifyMessageIntegrity]
  obtain ⟨hbefore, hnone⟩ | ⟨front, tlv, back, value, rfl, hbefore, hcode,
    hsome⟩ := holds.integrity_cases
  · have hcode : (Attribute.messageIntegrity digest).toTlv.code = Kind.messageIntegrity.code := rfl
    rw [hnone, Option.none_or] at hfound
    rw [← List.append_nil (Tlv.bytes _)] at hraw
    rw [verifyWithHash_of_found _ _ rfl hpassword hbefore hcode hraw hfound,
      signs.digest_eq hbefore, hnone, signs.header_eq]
    exact iff_of_true (congrArg Except.ok (decide_eq_true rfl))
      fun hfalse => absurd rfl hfalse
  · have hareas : area (front ++ tlv :: back) = area front ++ (tlv.bytes ++ area back) := by
      rw [area, List.flatMap_append, List.flatMap_cons]
      rfl
    have hmsg := holds.raw_eq
    rw [hareas] at hmsg
    rw [hareas, List.append_assoc, List.append_assoc] at hraw
    rw [hsome, Option.some_or] at hfound
    rw [Message.verifyMessageIntegrity, verifyWithHash_of_found _ _ rfl hpassword hbefore hcode hraw
      hfound, verifyWithHash_of_found _ _ rfl hpassword hbefore hcode hmsg hsome, hsome,
      signs.header_eq]
    exact ⟨fun hverified _ => hverified,
      fun hverified => hverified (Option.some_ne_none _)⟩

theorem addThenVerify_sha1 (holds : msg.Holds tlvs)
    (may : msg.MayAppend .messageIntegrity) (hpassword : password ≠ []) :
    AddThenVerify algorithms sha256New .sha1 msg password ↔ (hasKind .messageIntegrity
      msg.attributes → msg.verifyMessageIntegrity algorithms password = .ok true) := by
  obtain ⟨after, digest, hadd, signs⟩ := holds.addMessageIntegrity algorithms may hpassword
  rw [← holds.verify_of_add algorithms hpassword signs]
  constructor
  · rintro ⟨other, hother, hverified, -⟩
    cases hother.symm.trans hadd
    exact hverified
  · intro hverified
    refine ⟨after, hadd, hverified, ?_⟩
    rw [signs.raw_eq, holds.raw_eq, signs.header_eq]
    exact sameUpTo_serializeTo _ _ _ _

theorem verifyMessageIntegritySHA256_ne :
    msg.verifyMessageIntegritySHA256 algorithms sha256New password ≠ .ok true := by
  intro hverified
  rw [Message.verifyMessageIntegritySHA256, Message.verifyMessageIntegrityWithHash] at hverified
  split at hverified
  case isTrue => cases hverified
  cases hfound : msg.findAttribute .messageIntegritySHA256 with
  | none =>
    rw [hfound] at hverified
    cases hverified
  | some attr =>
    have hkind := kind_of_findAttribute hfound
    rw [hfound] at hverified
    cases attr <;> first | cases hverified | cases hkind

theorem not_addThenVerify_sha256 : ¬ AddThenVerify algorithms sha256New .sha256 msg password := by
  rintro ⟨after, -, hverified, -⟩
  exact verifyMessageIntegritySHA256_ne algorithms hverified

/-- Adding and verifying agree for the shorter digest only. -/
theorem addThenVerify_iff {variant : IntegrityVariant} (formed : msg.WellFormed)
    (may : msg.MayAppend variant.kind) (hpassword : password ≠ []) :
    AddThenVerify algorithms sha256New variant msg password ↔ variant = .sha1 ∧
        (hasKind .messageIntegrity msg.attributes →
          msg.verifyMessageIntegrity algorithms password = .ok true) := by
  obtain ⟨tlvs, holds, -⟩ := formed.holds
  cases variant with
  | sha1 =>
    rw [addThenVerify_sha1 algorithms holds may hpassword]
    exact (and_iff_right rfl).symm
  | sha256 =>
    refine iff_of_false (not_addThenVerify_sha256 algorithms) ?_
    rintro ⟨hvariant, -⟩
    cases hvariant

end

def sampleSha256 : Hash where
  size := 32
  hmac := fun _ _ =>
    [0x97, 0x80, 0xec, 0x9c, 0x6b, 0x4d, 0x4f, 0xaa, 0x1c, 0xbd, 0x28, 0x0a,
      0x71, 0xd6, 0x4e, 0xb0, 0x3b, 0xc8, 0x4f, 0xb3, 0x8d, 0xce, 0x36, 0xb9,
      0x01, 0x42, 0x68, 0x29, 0xbc, 0x4b, 0xb3, 0xf2]
  length_hmac := fun _ _ => rfl

def unsignedRequest : Message := sampleMessage 0x0001 8 [.username [0x62, 0x3a, 0x61]]
    [0x00, 0x06, 0x00, 0x03, 0x62, 0x3a, 0x61, 0x00]

theorem wellFormed_unsignedRequest : unsignedRequest.WellFormed := by
  refine ⟨[(Attribute.username [0x62, 0x3a, 0x61]).toTlv], ⟨?_, ?_⟩, ?_, ?_⟩
  · decide
  · decide
  · decide
  · rintro tlv htlv kind hkind
    cases List.mem_singleton.mp htlv
    cases hkind
    rfl

theorem mayAppend_unsignedRequest (variant : IntegrityVariant) :
    unsignedRequest.MayAppend variant.kind := by
  rintro last ⟨rfl⟩
  cases variant <;> rfl

theorem addThenVerify_iff_unsignedRequest :
    AddThenVerify sampleAlgorithms sampleSha256 .sha1 unsignedRequest [0x70, 0x77] := by
  refine (addThenVerify_iff sampleAlgorithms wellFormed_unsignedRequest
    (mayAppend_unsignedRequest .sha1) (by decide)).mpr ⟨rfl, ?_⟩
  rintro ⟨attr, hattr, hkind⟩
  cases List.mem_singleton.mp hattr
  cases hkind

/-- The digest does not fit the attribute and overwrites the user name. -/
theorem exists_not_addThenVerify : unsignedRequest.WellFormed ∧ unsignedRequest.MayAppend
  .messageIntegritySHA256 ∧ (∃ after, unsignedRequest.addMessageIntegritySHA256 sampleAlgorithms
  sampleSha256 [0x70, 0x77] = .ok after ∧ after.verifyMessageIntegritySHA256 sampleAlgorithms
  sampleSha256 [0x70, 0x77] = .error .attributeNotFound ∧ unsignedRequest.raw.window 20 8 =
  [0x00, 0x06, 0x00, 0x03, 0x62, 0x3a, 0x61, 0x00] ∧ after.raw.window 20 8 =
  [0x97, 0x80, 0xec, 0x9c, 0x6b, 0x4d, 0x4f, 0xaa]) ∧ ¬ AddThenVerify sampleAlgorithms sampleSha256
  .sha256 unsignedRequest [0x70, 0x77] := ⟨wellFormed_unsignedRequest, mayAppend_unsignedRequest
  .sha256, ⟨_, rfl, by decide +kernel, by decide +kernel, by decide +kernel⟩,
  not_addThenVerify_sha256 sampleAlgorithms⟩

end Pig.Stun
