import Mathlib.Data.List.Chain
import Pig.Stun.Area
import Pig.Stun.Build

namespace Pig.Stun

open Go

/-- The limits of the formats: addresses of either family, an error code whose
hundreds fit a byte, and lengths that fit the length field. -/
def Attribute.WithinLimits : Attribute → Prop
  | .mappedAddress value | .xorMappedAddress value | .otherAddress value =>
    value.length = 8 ∨ value.length = 20
  | .username value | .realm value | .nonce value => value.length < 65536
  | .errorCode code reason =>
    0 ≤ code ∧ code < 25600 ∧ 4 + reason.length < 65536
  | _ => True

instance : DecidablePred Attribute.WithinLimits
  | .mappedAddress _ | .xorMappedAddress _ | .otherAddress _ =>
    inferInstanceAs (Decidable (_ ∨ _))
  | .username _ | .realm _ | .nonce _ => inferInstanceAs (Decidable (_ < _))
  | .errorCode _ _ => inferInstanceAs (Decidable (_ ∧ _ ∧ _))
  | .messageIntegrity _ | .messageIntegritySHA256 _ | .fingerprint _ |
    .icePriority _ | .iceUseCandidate | .iceControlled _ |
    .iceControlling _ | .changeRequest _ => inferInstanceAs (Decidable True)

def Ordered (attrs : List Attribute) : Prop :=
  attrs.IsChain fun last next => last.kind.mayFollow next.kind = true

instance (attrs : List Attribute) : Decidable (Ordered attrs) :=
  inferInstanceAs (Decidable (List.IsChain _ _))

namespace Attribute

variable {attr : Attribute}

theorem WithinLimits.length_lt (hlimits : attr.WithinLimits) : attr.value.length < 65536 := by
  cases attr with
  | mappedAddress | xorMappedAddress | otherAddress =>
    simp only [WithinLimits] at hlimits
    simp only [value]
    omega
  | username | realm | nonce => exact hlimits
  | errorCode code reason =>
    simp only [WithinLimits] at hlimits
    simp only [value, List.length_append, List.length_cons, List.length_nil]
    omega
  | messageIntegrity digest | messageIntegritySHA256 digest =>
    rw [value, digest.length_eq]
    decide
  | _ => simp [value]

theorem WithinLimits.lengths (hlimits : attr.WithinLimits) :
    attr.kind.layout.lengths attr.value.length = true := by
  cases attr with
  | mappedAddress | xorMappedAddress | otherAddress =>
    simpa [WithinLimits, kind, Kind.layout, value] using hlimits
  | messageIntegrity digest | messageIntegritySHA256 digest =>
    rw [value, digest.length_eq]
    rfl
  | _ => simp [kind, Kind.layout, value]

theorem errorCode_bytes {code : Int} (hnonneg : 0 ≤ code) (hlt : code < 25600) :
    ((UInt8.ofInt (code.tdiv 100)).toNat * 100 +
      (UInt8.ofInt (code.tmod 100)).toNat : Int) = code := by
  obtain ⟨number, rfl⟩ := Int.eq_ofNat_of_zero_le hnonneg
  have hbyte : ∀ byte : Nat, byte < 256 → (UInt8.ofInt (byte : Int)).toNat = byte := by
    simp only [UInt8.ofInt, UInt8.toNat_ofNat']
    omega
  have hhigh : (number : Int).tdiv 100 = (number / 100 : Nat) := rfl
  have hlow : (number : Int).tmod 100 = (number % 100 : Nat) := rfl
  rw [hhigh, hlow, hbyte _ (by omega), hbyte _ (by omega)]
  omega

theorem WithinLimits.ofValue_value (hlimits : attr.WithinLimits) :
    ofValue attr.kind attr.value = attr := by
  cases attr with
  | messageIntegrity digest | messageIntegritySHA256 digest =>
    simp only [kind, value, ofValue, FixedBytes.copyOf_bytes]
  | errorCode code reason =>
    obtain ⟨hnonneg, hlt, -⟩ := hlimits
    simp only [kind, value, ofValue]
    congr 1
    exact errorCode_bytes hnonneg hlt
  | fingerprint number | icePriority number | changeRequest number =>
    have hlt : number.toNat < 256 ^ 4 := number.toNat_lt
    simp only [kind, value, ofValue, Bytes.toNatBE_ofNatBE,
      Nat.mod_eq_of_lt hlt, UInt32.ofNat_toNat]
  | iceControlled number | iceControlling number =>
    have hlt : number.toNat < 256 ^ 8 := number.toNat_lt
    simp only [kind, value, ofValue, Bytes.toNatBE_ofNatBE,
      Nat.mod_eq_of_lt hlt, UInt64.ofNat_toNat]
  | _ => rfl

def toTlv (attr : Attribute) : Tlv where
  code := attr.getType
  value := attr.value.take 65535
  padding := List.replicate (calculatePadding (attr.value.take 65535).length) 0
  code_lt := attr.kind.code_lt
  length_lt := by
    rw [List.length_take]
    omega
  length_padding := List.length_replicate

theorem value_toTlv (hlength : attr.value.length < 65536) : attr.toTlv.value = attr.value :=
  List.take_of_length_le (by omega)

theorem serializeTo_eq (hlength : attr.value.length < 65536) :
    attr.serializeTo = .ok attr.toTlv.bytes := by
  have hvalue := value_toTlv hlength
  have hsize : attr.serializeLen = attrSerializedSize attr.value.length := by
    rw [serializeLen, Nat.mod_eq_of_lt hlength]
  rw [serializeTo, hsize, attrSerializedSize, if_pos (by omega), Tlv.bytes,
    hvalue, Nat.add_sub_cancel_left]
  simp only [toTlv] at hvalue ⊢
  rw [hvalue]

theorem registered_toTlv (attr : Attribute) : typeRegistry attr.toTlv.code = some attr.kind :=
  typeRegistry_code attr.kind

theorem WithinLimits.wellFormed (hlimits : attr.WithinLimits) : attr.toTlv.WellFormed := by
  rw [Tlv.WellFormed, registered_toTlv]
  simp only [value_toTlv hlimits.length_lt]
  exact hlimits.lengths

theorem WithinLimits.decoded_toTlv (hlimits : attr.WithinLimits) :
    attr.toTlv.decoded = some attr := by
  rw [Tlv.decoded, registered_toTlv, value_toTlv hlimits.length_lt,
    Option.map_some, hlimits.ofValue_value]

end Attribute

def encoded (attrs : List Attribute) : Bytes := area (attrs.map Attribute.toTlv)

variable (attrs : List Attribute)

theorem encoded_append_singleton (attr : Attribute) :
    encoded (attrs ++ [attr]) = encoded attrs ++ attr.toTlv.bytes := by
  simp [encoded, area]

def headerWith (msgType : UInt16) (txID : FixedBytes 12) (length : UInt16) : Header :=
  { Header.new msgType txID with length }

def headerOf (msgType : UInt16) (txID : FixedBytes 12) (attrs : List Attribute) : Header :=
  headerWith msgType txID (UInt16.ofNat (encoded attrs).length)

theorem putLength_serializeTo (header : Header) (more : Bytes) (length : UInt16) :
    putLength (header.serializeTo ++ more) length = { header with length }.serializeTo ++ more := by
  simp [putLength, Header.serializeTo, List.drop_append]

theorem length_serializeTo (header : Header) : header.serializeTo.length = 20 := by
  simp [Header.serializeTo, header.transactionID.length_eq]

theorem calculateFingerprint_serializeTo (crc32 : Bytes → UInt32)
    (header : Header) (length : UInt16) (more : Bytes) :
    calculateFingerprint crc32 ({ header with length }.serializeTo ++ more) =
      calculateFingerprint crc32 (header.serializeTo ++ more) := by
  rw [calculateFingerprint, calculateFingerprint]
  simp only [putLength_serializeTo, List.length_append, length_serializeTo]

theorem length_encoded_append {attr : Attribute} (hlength : attr.value.length < 65536) :
    (encoded (attrs ++ [attr])).length = (encoded attrs).length + attr.serializeLen := by
  rw [encoded_append_singleton, List.length_append, Tlv.length_bytes, Attribute.value_toTlv hlength,
    Attribute.serializeLen, Nat.mod_eq_of_lt hlength]

namespace Message

structure Assembled (msgType : UInt16) (txID : FixedBytes 12)
    (attrs : List Attribute) (msg : Message) : Prop where
  header_eq : msg.header = headerOf msgType txID attrs
  attributes_eq : msg.attributes = attrs
  raw_eq : ∃ stale : UInt16, msg.raw = (headerWith msgType txID stale).serializeTo ++ encoded attrs

structure Complete (msgType : UInt16) (txID : FixedBytes 12)
    (attrs : List Attribute) (msg : Message) : Prop where
  header_eq : msg.header = headerOf msgType txID attrs
  attributes_eq : msg.attributes = attrs
  raw_eq : msg.raw = (headerOf msgType txID attrs).serializeTo ++ encoded attrs

variable {msgType : UInt16} {txID : FixedBytes 12} {attrs : List Attribute}
  {attr : Attribute} {msg : Message}

theorem Complete.assembled (complete : Complete msgType txID attrs msg) :
    Assembled msgType txID attrs msg where
  header_eq := complete.header_eq
  attributes_eq := complete.attributes_eq
  raw_eq := ⟨_, complete.raw_eq⟩

theorem Assembled.unsafeAppendAttribute (assembled : Assembled msgType txID attrs msg)
    (hlength : attr.value.length < 65536) :
    ∃ after, msg.unsafeAppendAttribute attr = .ok after ∧ Complete msgType txID (attrs ++ [attr])
      after ∧ after.fingerprint = msg.fingerprint := by
  obtain ⟨stale, hraw⟩ := assembled.raw_eq
  have hlengthField : msg.header.length + UInt16.ofNat attr.serializeLen =
      UInt16.ofNat (encoded (attrs ++ [attr])).length := by
    rw [assembled.header_eq, length_encoded_append attrs hlength, UInt16.ofNat_add]
    rfl
  rw [Message.unsafeAppendAttribute, Attribute.serializeTo_eq hlength]
  refine ⟨_, rfl, ⟨?_, ?_, ?_⟩, rfl⟩
  · rw [hlengthField, assembled.header_eq]
    rfl
  · rw [assembled.attributes_eq]
  · rw [hlengthField, hraw, List.append_assoc, putLength_serializeTo, ← encoded_append_singleton]
    rfl

theorem Assembled.appendAttribute (assembled : Assembled msgType txID attrs msg)
    (hlength : attr.value.length < 65536)
    (hfollows : ∀ last ∈ attrs.getLast?, last.kind.mayFollow attr.kind = true) :
    ∃ after, msg.appendAttribute attr = .ok after ∧ Complete msgType txID (attrs ++ [attr]) after ∧
      after.fingerprint = msg.fingerprint := by
  rw [Message.appendAttribute, assembled.attributes_eq]
  cases hlast : attrs.getLast? with
  | none => exact assembled.unsafeAppendAttribute hlength
  | some last =>
    simp only [if_pos (hfollows last hlast)]
    exact assembled.unsafeAppendAttribute hlength

theorem Complete.appendAttributes {more : List Attribute} (complete : Complete msgType txID attrs
    msg) (hordered : Ordered (attrs ++ more)) (hlengths : ∀ attr ∈ more, attr.value.length < 65536)
    :
    ∃ after, more.foldlM Message.appendAttribute msg = .ok after ∧ Complete msgType txID
      (attrs ++ more) after ∧ after.fingerprint = msg.fingerprint := by
  induction more generalizing attrs msg with
  | nil => exact ⟨msg, rfl, by rwa [List.append_nil], rfl⟩
  | cons attr more ih =>
    have hfollows := (List.isChain_append.mp hordered).2.2
    obtain ⟨middle, happend, hmiddle, hflag⟩ := complete.assembled.appendAttribute
        (hlengths attr List.mem_cons_self)
        fun last hlast => hfollows last hlast attr rfl
    rw [List.append_cons] at hordered
    obtain ⟨after, hrest, hafter, hflags⟩ := ih hmiddle hordered
      fun other hother => hlengths other (List.mem_cons_of_mem _ hother)
    refine ⟨after, ?_, ?_, hflags.trans hflag⟩
    · rw [List.foldlM_cons, happend]
      exact hrest
    · rwa [List.append_cons]

end Message

theorem newMessage_complete {msgType : UInt16} {txID : FixedBytes 12} {attrs : List Attribute}
    (hordered : Ordered attrs) (hlengths : ∀ attr ∈ attrs, attr.value.length < 65536) :
    ∃ msg, newMessageWithTransactionID msgType attrs txID = .ok msg ∧
      msg.Complete msgType txID attrs ∧ msg.fingerprint = false := by
  have complete : Message.Complete msgType txID [] {
      header := Header.new msgType txID
      attributes := []
      raw := (Header.new msgType txID).serializeTo
      fingerprint := false } :=
    ⟨rfl, rfl, (List.append_nil _).symm⟩
  exact complete.appendAttributes hordered hlengths

def withoutFingerprint (attrs : List Attribute) : List Attribute :=
  match attrs.getLast? with
  | some last => if last.kind = .fingerprint then attrs.dropLast else attrs
  | none => attrs

/-- The attributes that are written: a FINGERPRINT takes the place of one that
is already there. -/
def written (requested : Bool) (attrs : List Attribute) (value : UInt32) : List Attribute :=
  if requested then withoutFingerprint attrs ++ [.fingerprint value] else attrs

theorem mayFollow_fingerprint {last : Kind} :
    last.mayFollow .fingerprint = true ↔ last ≠ .fingerprint := by
  cases last <;> decide

theorem withoutFingerprint_cases :
    (∃ value, attrs = withoutFingerprint attrs ++ [.fingerprint value]) ∨
      (∀ last ∈ attrs.getLast?, last.kind ≠ .fingerprint) ∧ withoutFingerprint attrs = attrs := by
  rw [withoutFingerprint]
  cases hend : attrs.getLast? with
  | none => exact .inr ⟨nofun, rfl⟩
  | some last =>
    by_cases hlast : last.kind = .fingerprint
    · obtain ⟨value, rfl⟩ : ∃ value, last = .fingerprint value := by
        cases last <;> first | exact ⟨_, rfl⟩ | cases hlast
      have happend := List.dropLast_append_getLast? _ hend
      exact .inl ⟨value, by simpa only [if_pos hlast] using happend.symm⟩
    · refine .inr ⟨?_, if_neg hlast⟩
      rintro other ⟨rfl⟩
      exact hlast

theorem withoutFingerprint_last {attrs : List Attribute} (hordered : Ordered attrs)
    {last : Attribute} (hlast : last ∈ (withoutFingerprint attrs).getLast?) :
    last.kind.mayFollow .fingerprint = true := by
  obtain ⟨value, happend⟩ | ⟨hkind, hsame⟩ := withoutFingerprint_cases attrs
  · -- The one before a FINGERPRINT was followed by it already.
    rw [Ordered, happend, List.isChain_append] at hordered
    exact hordered.2.2 last hlast _ rfl
  · rw [hsame] at hlast
    exact mayFollow_fingerprint.mpr (hkind last hlast)

theorem length_fingerprint (value : UInt32) :
    (Attribute.fingerprint value).value.length < 65536 := by
  simp [Attribute.value]

namespace Message

variable {msgType : UInt16} {txID : FixedBytes 12} {attrs : List Attribute} {msg : Message}

theorem Complete.dropFingerprint_concat {value : UInt32}
    (complete : Complete msgType txID (attrs ++ [.fingerprint value]) msg) :
    ∃ after, msg.dropFingerprint = .ok after ∧ Assembled msgType txID attrs after ∧
      after.fingerprint = msg.fingerprint := by
  have hsize := length_encoded_append attrs (length_fingerprint value)
  have hraw := complete.raw_eq
  have hlength : msg.raw.length = 20 + (encoded attrs).length +
      (Attribute.fingerprint value).serializeLen := by
    rw [hraw, List.length_append, length_serializeTo, hsize, Nat.add_assoc]
  rw [Message.dropFingerprint, complete.attributes_eq, List.getLast?_concat]
  simp only
  have hkind : (Attribute.fingerprint value).kind = .fingerprint := rfl
  rw [if_neg (not_not.mpr hkind), if_neg (by omega), List.dropLast_concat]
  let stale := UInt16.ofNat (encoded (attrs ++ [.fingerprint value])).length
  refine ⟨_, rfl, ⟨?_, rfl, ⟨stale, ?_⟩⟩, rfl⟩
  · simp only [complete.header_eq, headerOf, headerWith, hsize,
      UInt16.ofNat_add, UInt16.add_sub_cancel]
  · rw [hlength, Nat.add_sub_cancel, hraw, encoded_append_singleton, ← List.append_assoc]
    apply List.take_left'
    rw [List.length_append, length_serializeTo]

theorem Complete.dropFingerprint (complete : Complete msgType txID attrs msg) :
    ∃ after, msg.dropFingerprint = .ok after ∧ Assembled msgType txID (withoutFingerprint attrs)
      after ∧ after.fingerprint = msg.fingerprint := by
  obtain ⟨value, happend⟩ | ⟨hkind, hsame⟩ := withoutFingerprint_cases attrs
  · rw [happend] at complete
    exact complete.dropFingerprint_concat
  · rw [hsame]
    refine ⟨msg, ?_, complete.assembled, rfl⟩
    rw [Message.dropFingerprint, complete.attributes_eq]
    cases hend : attrs.getLast? with
    | none => rfl
    | some last => exact if_pos (hkind last hend)

def fingerprintOf (crc32 : Bytes → UInt32) (msgType : UInt16)
    (txID : FixedBytes 12) (attrs : List Attribute) : UInt32 :=
  calculateFingerprint crc32 ((headerOf msgType txID attrs).serializeTo ++ encoded attrs)

variable (crc32 : Bytes → UInt32)

theorem Assembled.fingerprint_eq (assembled : Assembled msgType txID attrs msg) :
    calculateFingerprint crc32 msg.raw = fingerprintOf crc32 msgType txID attrs := by
  obtain ⟨stale, hraw⟩ := assembled.raw_eq
  rw [hraw]
  exact (calculateFingerprint_serializeTo crc32 ..).trans
    (calculateFingerprint_serializeTo crc32 ..).symm

theorem fingerprintOf_eq (value : UInt32) {bytes : Bytes} (hbytes : bytes =
      (headerOf msgType txID (attrs ++ [.fingerprint value])).serializeTo ++
        encoded (attrs ++ [.fingerprint value])) :
    fingerprintOf crc32 msgType txID attrs =
      calculateFingerprint crc32 (bytes.take (bytes.length - 8)) := by
  rw [encoded_append_singleton, ← List.append_assoc] at hbytes
  have hsize : (Attribute.fingerprint value).toTlv.bytes.length = 8 := by
    rw [Tlv.length_bytes]
    simp [Attribute.toTlv, Attribute.value, attrSerializedSize, calculatePadding]
  have htake : bytes.take (bytes.length - 8) = (headerOf msgType txID
      (attrs ++ [.fingerprint value])).serializeTo ++ encoded attrs := by
    rw [hbytes]
    apply List.take_left'
    simp only [List.length_append, hsize, Nat.add_sub_cancel]
  rw [htake]
  exact (calculateFingerprint_serializeTo crc32 ..).trans
    (calculateFingerprint_serializeTo crc32 ..).symm

theorem Complete.finish (complete : Complete msgType txID attrs msg) (hordered : Ordered attrs) :
    ∃ after, msg.finish crc32 = .ok after ∧ Complete msgType txID (written msg.fingerprint attrs
        (fingerprintOf crc32 msgType txID (withoutFingerprint attrs))) after := by
  rw [Message.finish, written]
  by_cases hrequested : msg.fingerprint = true
  · rw [if_pos hrequested, if_pos hrequested, addFingerprint]
    obtain ⟨middle, hdrop, assembled, -⟩ := complete.dropFingerprint
    rw [hdrop]
    obtain ⟨after, happend, hafter, -⟩ := assembled.appendAttribute
      (length_fingerprint _) fun last hlast =>
        withoutFingerprint_last hordered hlast
    refine ⟨after, happend, ?_⟩
    rwa [assembled.fingerprint_eq] at hafter
  · rw [if_neg hrequested, if_neg hrequested]
    exact ⟨msg, rfl, complete⟩

theorem mapM_serializeTo (hlengths : ∀ attr ∈ attrs, attr.value.length < 65536) :
    attrs.mapM Attribute.serializeTo = .ok (attrs.map fun attr => attr.toTlv.bytes) := by
  induction attrs with
  | nil => rfl
  | cons attr attrs ih =>
    have hrest := ih fun other hother =>
      hlengths other (List.mem_cons_of_mem _ hother)
    rw [List.mapM_cons, hrest, Attribute.serializeTo_eq (hlengths attr List.mem_cons_self)]
    rfl

theorem Complete.serializeTo {after : Message}
    (hfinish : msg.finish crc32 = .ok after) (complete : Complete msgType txID attrs after)
    (hlengths : ∀ attr ∈ attrs, attr.value.length < 65536) :
    msg.serializeTo crc32 = .ok (after, (headerOf msgType txID attrs).serializeTo ++ encoded attrs)
      ∧ msg.writeTo crc32 = .ok (after, (headerOf msgType txID attrs).serializeTo ++ encoded attrs)
      := by
  rw [Message.serializeTo, Message.writeTo, hfinish, ok_bind, ok_bind, complete.attributes_eq,
    complete.raw_eq, complete.header_eq, mapM_serializeTo hlengths]
  refine ⟨?_, rfl⟩
  rw [encoded, area, List.flatMap_map, List.flatMap_def]
  rfl

end Message

end Pig.Stun
