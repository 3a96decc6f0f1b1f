import Pig.Stun.Assembly

namespace Pig.Stun

open Go

variable {data : Slice}

theorem headerAt_of_contents {header : Header} {more : Bytes}
    (hdata : data.contents = header.serializeTo ++ more) :
    headerAt data = header := by
  have hlen : data.len = 20 + more.length := by
    rw [← data.length_contents, hdata, List.length_append, length_serializeTo]
  have htype : (header.serializeTo ++ more).window 0 2 = Bytes.ofNatBE 2 header.type.toNat := by
    simp [Header.serializeTo, Bytes.window]
  have hlength : (header.serializeTo ++ more).window 2 2 = Bytes.ofNatBE 2 header.length.toNat := by
    simp [Header.serializeTo, Bytes.window]
  have hcookie : (header.serializeTo ++ more).window 4 4 =
      Bytes.ofNatBE 4 header.magicCookie.toNat := by
    rw [Header.serializeTo, List.append_assoc]
    exact Bytes.window_middle (by simp) (by simp)
  have hid : (header.serializeTo ++ more).window 8 12 = header.transactionID.bytes := by
    exact Bytes.window_middle (by simp) header.transactionID.length_eq
  have htypeLt : header.type.toNat < 256 ^ 2 := header.type.toNat_lt
  have hlengthLt : header.length.toNat < 256 ^ 2 := header.length.toNat_lt
  have hcookieLt : header.magicCookie.toNat < 256 ^ 4 := header.magicCookie.toNat_lt
  rw [headerAt, data.window_contents (by omega), data.window_contents (by omega),
    data.window_contents (by omega), data.window_contents (by omega), hdata, htype, hlength,
    hcookie, hid, Bytes.toNatBE_ofNatBE, Bytes.toNatBE_ofNatBE, Bytes.toNatBE_ofNatBE,
    Nat.mod_eq_of_lt htypeLt, Nat.mod_eq_of_lt hlengthLt, Nat.mod_eq_of_lt hcookieLt,
    FixedBytes.copyOf_bytes, UInt16.ofNat_toNat, UInt16.ofNat_toNat, UInt32.ofNat_toNat]

theorem areaAt_of_contents {more : Bytes} (hlen : 20 + (headerAt data).length.toNat ≤
    data.len) {header : Header} (hdata : data.contents = header.serializeTo ++ more)
    (hlength : more.length = header.length.toNat) :
    (areaAt data hlen).contents = more := by
  have hdataLen : data.len = 20 + more.length := by
    rw [← data.length_contents, hdata, List.length_append, length_serializeTo]
  have hrest : data.contents.drop 20 = more := by
    rw [hdata]
    exact List.drop_left' (length_serializeTo header)
  rw [Slice.contents, List.drop_take, hdataLen, Nat.add_sub_cancel_left] at hrest
  change (data.array.drop 20).take (headerAt data).length.toNat = more
  rw [headerAt_of_contents hdata, ← hlength, hrest]

variable {attrs : List Attribute}

theorem length_encoded (hlengths : ∀ attr ∈ attrs, attr.value.length < 65536) :
    (encoded attrs).length = (attrs.map Attribute.serializeLen).sum := by
  induction attrs using List.reverseRecOn with
  | nil => rfl
  | append_singleton attrs attr ih =>
    have hlength := hlengths attr (by simp)
    rw [length_encoded_append attrs hlength, List.map_append, List.sum_append,
      ih fun other hother => hlengths other (by simp [hother])]
    simp

theorem filterMap_decoded (hlimits : ∀ attr ∈ attrs, attr.WithinLimits) :
    (attrs.map Attribute.toTlv).filterMap Tlv.decoded = attrs := by
  induction attrs with
  | nil => rfl
  | cons attr attrs ih =>
    have hattr := hlimits attr List.mem_cons_self
    rw [List.map_cons, List.filterMap_cons_some hattr.decoded_toTlv,
      ih fun other hother => hlimits other (List.mem_cons_of_mem _ hother)]

def headerFor (msgType : UInt16) (txID : FixedBytes 12) (tlvs : List Tlv) : Header :=
  headerWith msgType txID (UInt16.ofNat (area tlvs).length)

variable {msgType : UInt16} {txID : FixedBytes 12}

theorem decodeMessage_of_area {tlvs : List Tlv}
    (hformed : WellFormedArea tlvs) (haligned : UnknownAligned tlvs)
    (hdata : data.contents = (headerFor msgType txID tlvs).serializeTo ++ area tlvs) :
    decodeMessage data = .ok {
      header := headerFor msgType txID tlvs
      attributes := tlvs.filterMap Tlv.decoded
      raw := data.contents
      fingerprint := false } := by
  have hheader := headerAt_of_contents hdata
  have hsize := hformed.length_le
  have hlength : (area tlvs).length = (headerFor msgType txID tlvs).length.toNat :=
    (UInt16.toNat_ofNat_of_lt' (by change _ < 65536; omega)).symm
  have hend : 20 + (headerAt data).length.toNat = data.len := by
    rw [hheader, ← hlength, ← data.length_contents, hdata, List.length_append, length_serializeTo]
  have harea := areaAt_of_contents (Nat.le_of_eq hend) hdata hlength
  have hattributes := decodeAttributes_area hformed haligned _ harea
  have hraw : data.array.window 0 (20 + (headerAt data).length.toNat) = data.contents := by
    rw [hend]
    rfl
  rw [decodeMessage_eq (Nat.le_of_eq hend), hattributes, ok_bind, hraw, hheader]
  rfl

theorem decodeMessage_of_contents (hlimits : ∀ attr ∈ attrs, attr.WithinLimits)
    (hsize : (encoded attrs).length ≤ 65535)
    (hdata : data.contents = (headerOf msgType txID attrs).serializeTo ++ encoded attrs) :
    decodeMessage data = .ok {
      header := headerOf msgType txID attrs
      attributes := attrs
      raw := data.contents
      fingerprint := false } := by
  have hformed : WellFormedArea (attrs.map Attribute.toTlv) := by
    refine ⟨?_, hsize⟩
    intro tlv htlv
    obtain ⟨attr, hattr, rfl⟩ := List.mem_map.mp htlv
    exact (hlimits attr hattr).wellFormed
  have haligned : UnknownAligned (attrs.map Attribute.toTlv) := by
    intro tlv htlv hunknown
    obtain ⟨attr, hattr, rfl⟩ := List.mem_map.mp ((List.dropLast_sublist _).mem htlv)
    rw [Tlv.Unknown, Attribute.registered_toTlv] at hunknown
    cases hunknown
  have hdecode := decodeMessage_of_area hformed haligned hdata
  rwa [filterMap_decoded hlimits] at hdecode

theorem written_limits (requested : Bool)
    (hlimits : ∀ attr ∈ attrs, attr.WithinLimits) (value : UInt32) :
    ∀ attr ∈ written requested attrs value, attr.WithinLimits := by
  intro attr hattr
  rw [written] at hattr
  split at hattr
  · rcases List.mem_append.mp hattr with hbefore | hlast
    · obtain ⟨value, happend⟩ | ⟨-, hsame⟩ := withoutFingerprint_cases attrs
      · exact hlimits attr (happend ▸ List.mem_append_left _ hbefore)
      · exact hlimits attr (hsame ▸ hbefore)
    · cases List.mem_singleton.mp hlast
      trivial
  · exact hlimits attr hattr

def Message.requesting (requested : Bool) (msg : Message) : Message :=
  if requested then msg.withFingerprint else msg

theorem Message.Complete.requesting {msg : Message} (complete : Complete msgType txID attrs msg)
    (hflag : msg.fingerprint = false) (requested : Bool) :
    Complete msgType txID attrs (msg.requesting requested) ∧
      (msg.requesting requested).fingerprint = requested := by
  cases requested with
  | false => exact ⟨complete, hflag⟩
  | true =>
    exact ⟨⟨complete.header_eq, complete.attributes_eq, complete.raw_eq⟩, rfl⟩

theorem round_trip (crc32 : Bytes → UInt32) (msgType : UInt16)
    (txID : FixedBytes 12) (attrs : List Attribute) (requested : Bool)
    (hlimits : ∀ attr ∈ attrs, attr.WithinLimits) (hordered : Ordered attrs)
    (hsize : 20 + ((written requested attrs 0).map Attribute.serializeLen).sum ≤ 65535) :
    ∃ msg sent bytes, newMessageWithTransactionID msgType attrs txID = .ok msg ∧
      (msg.requesting requested).serializeTo crc32 = .ok (sent, bytes) ∧
      (msg.requesting requested).writeTo crc32 = .ok (sent, bytes) ∧ ∀ data : Slice, data.contents =
      bytes → ∃ decoded, decodeMessage data = .ok decoded ∧ decoded.header = sent.header ∧
      decoded.header.type = msgType ∧ decoded.header.length.toNat + 20 = bytes.length ∧
      decoded.header.magicCookie = magicCookie ∧ decoded.header.transactionID = txID ∧
      decoded.attributes = sent.attributes ∧ decoded.attributes = written requested attrs
      (calculateFingerprint crc32 (bytes.take (bytes.length - 8))) := by
  obtain ⟨msg, hnew, hmsg, hflag⟩ := @newMessage_complete msgType txID attrs hordered
      fun attr hattr => (hlimits attr hattr).length_lt
  obtain ⟨hasked, hasks⟩ := hmsg.requesting hflag requested
  obtain ⟨sent, hfinish, complete⟩ := hasked.finish crc32 hordered
  rw [hasks] at complete
  have hwritten := written_limits requested hlimits
    (Message.fingerprintOf crc32 msgType txID (withoutFingerprint attrs))
  have hlengths := fun attr hattr => (hwritten attr hattr).length_lt
  obtain ⟨hserialize, hwrite⟩ := complete.serializeTo crc32 hfinish hlengths
  refine ⟨msg, sent, _, hnew, hserialize, hwrite, fun data hdata => ?_⟩
  have hencoded := length_encoded hlengths
  have hsame : ∀ value, (written requested attrs value).map Attribute.serializeLen =
      (written requested attrs 0).map Attribute.serializeLen := by
    cases requested <;> simp [written, Attribute.serializeLen, Attribute.value]
  rw [hsame] at hencoded
  refine ⟨_, decodeMessage_of_contents hwritten (by omega) hdata,
    complete.header_eq.symm, rfl, ?_, rfl, rfl, complete.attributes_eq.symm, ?_⟩
  · rw [List.length_append, length_serializeTo, Nat.add_comm]
    congr 1
    exact UInt16.toNat_ofNat_of_lt' (by change _ < 65536; omega)
  · rw [← hdata]
    cases requested with
    | false => rfl
    | true => rw [← Message.fingerprintOf_eq crc32 _ hdata]

def sampleAttributes : List Attribute := [.username [0x61, 0x3a, 0x62], .errorCode 401 [0x6e, 0x6f],
    .messageIntegrity (.copyOf 20 [0xff]), .fingerprint 7]

theorem round_trip_sampleAttributes : ∃ msg sent bytes, newMessageWithTransactionID 0x0001
  sampleAttributes (.copyOf 12 [1, 2, 3]) = .ok msg ∧ (msg.requesting true).serializeTo (fun _ => 0)
  = .ok (sent, bytes) ∧ (msg.requesting true).writeTo (fun _ => 0) = .ok (sent, bytes) ∧ ∀ data :
  Slice, data.contents = bytes → ∃ decoded, decodeMessage data = .ok decoded ∧ decoded.header =
  sent.header ∧ decoded.header.type = 0x0001 ∧ decoded.header.length.toNat + 20 = bytes.length ∧
  decoded.header.magicCookie = magicCookie ∧ decoded.header.transactionID = .copyOf 12 [1, 2, 3] ∧
  decoded.attributes = sent.attributes ∧ decoded.attributes = written true sampleAttributes
  (calculateFingerprint (fun _ => 0) (bytes.take (bytes.length - 8))) := round_trip (fun _ => 0)
  0x0001 (.copyOf 12 [1, 2, 3]) sampleAttributes true (by decide) (by decide) (by decide)

end Pig.Stun
