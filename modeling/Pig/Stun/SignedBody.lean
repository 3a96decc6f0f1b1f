import Pig.Stun.Exchange

namespace Pig.Stun

open Go

def Kind.plain : Kind → Bool
  | .messageIntegrity | .messageIntegritySHA256 | .fingerprint => false
  | _ => true

theorem Kind.mayFollow_of_plain {last : Kind} (hplain : last.plain = true)
    (next : Kind) : last.mayFollow next = true := by
  cases last <;> first | rfl | cases hplain

theorem ordered_of_plain {attrs more : List Attribute}
    (hplain : ∀ attr ∈ attrs, attr.kind.plain = true) (hmore : Ordered more) :
    Ordered (attrs ++ more) := by
  induction attrs with
  | nil => exact hmore
  | cons attr attrs ih =>
    have hrest := ih fun other hother =>
      hplain other (List.mem_cons_of_mem _ hother)
    refine List.isChain_cons.mpr ⟨?_, hrest⟩
    intro next _
    exact Kind.mayFollow_of_plain (hplain attr List.mem_cons_self) _

theorem code_ne_of_plain {attrs : List Attribute} (hplain : ∀ attr ∈ attrs, attr.kind.plain = true)
    {tlv : Tlv} (htlv : tlv ∈ attrs.map Attribute.toTlv) :
    tlv.code ≠ Kind.messageIntegrity.code := by
  obtain ⟨attr, hattr, rfl⟩ := List.mem_map.mp htlv
  intro hcode
  have hkind := hplain attr hattr
  rw [Kind.code_injective hcode] at hkind
  cases hkind

theorem serializeLen_messageIntegrity (digest : FixedBytes 20) :
    (Attribute.messageIntegrity digest).serializeLen = 24 := by
  rw [Attribute.serializeLen, Attribute.value, digest.length_eq]
  rfl

structure Body where
  username : Bytes
  rest : List Attribute
  plain : ∀ attr ∈ rest, attr.kind.plain = true
  limits : ∀ attr ∈ rest, attr.WithinLimits

namespace Body

def attrs (body : Body) : List Attribute := .username body.username :: body.rest

def signed (body : Body) (requested : Bool) (digest : FixedBytes 20)
    (value : UInt32) : List Attribute :=
  body.attrs ++ [.messageIntegrity digest] ++ (if requested then [.fingerprint value] else [])

def size (body : Body) (requested : Bool) : Nat := attrSerializedSize body.username.length +
    (body.rest.map Attribute.serializeLen).sum + 24 + (if requested then 8 else 0)

variable (body : Body)

theorem plain_of_mem {attr : Attribute} (hattr : attr ∈ body.attrs) : attr.kind.plain = true := by
  rcases List.mem_cons.mp hattr with rfl | hrest
  · rfl
  · exact body.plain attr hrest

theorem limits_of_mem (hlength : body.username.length < 65536)
    {attr : Attribute} (hattr : attr ∈ body.attrs) : attr.WithinLimits := by
  rcases List.mem_cons.mp hattr with rfl | hrest
  · exact hlength
  · exact body.limits attr hrest

theorem ordered_attrs (more : List Attribute) (hmore : Ordered more) :
    Ordered (body.attrs ++ more) :=
  ordered_of_plain (fun _ => body.plain_of_mem) hmore

theorem limits_signed (hlength : body.username.length < 65536)
    (requested : Bool) (digest : FixedBytes 20) (value : UInt32) :
    ∀ attr ∈ body.signed requested digest value, attr.WithinLimits := by
  intro attr hattr
  rcases List.mem_append.mp hattr with hfront | hlast
  · rcases List.mem_append.mp hfront with hbody | hdigest
    · exact body.limits_of_mem hlength hbody
    · cases List.mem_singleton.mp hdigest
      trivial
  · split at hlast
    · cases List.mem_singleton.mp hlast
      trivial
    · cases hlast

theorem length_encoded_signed (hlength : body.username.length < 65536)
    (requested : Bool) (digest : FixedBytes 20) (value : UInt32) :
    (encoded (body.signed requested digest value)).length = body.size requested := by
  have husername : (Attribute.username body.username).serializeLen =
      attrSerializedSize body.username.length := by
    rw [Attribute.serializeLen, Attribute.value, Nat.mod_eq_of_lt hlength]
  have hvalue : (Attribute.fingerprint value).serializeLen = 8 := by
    simp [Attribute.serializeLen, Attribute.value, attrSerializedSize, calculatePadding]
  rw [length_encoded fun attr hattr =>
    (body.limits_signed hlength requested digest value attr hattr).length_lt]
  cases requested <;>
    simp [signed, attrs, size, husername, serializeLen_messageIntegrity, hvalue] <;> omega

section

variable (algorithms : Algorithms) {msgType : UInt16} {txID : FixedBytes 12} {password : Bytes}

def digestBytes (msgType : UInt16) (txID : FixedBytes 12) (password : Bytes) : Bytes :=
  algorithms.sha1.hmac (algorithms.opaqueString password)
    (covered (Header.new msgType txID) algorithms.sha1.size (encoded body.attrs))

structure Signed (msgType : UInt16) (txID : FixedBytes 12) (password : Bytes)
    (digest : FixedBytes 20) (msg : Message) : Prop where
  complete : msg.Complete msgType txID (body.attrs ++ [.messageIntegrity digest])
  unflagged : msg.fingerprint = false
  digest_eq : digest.bytes = body.digestBytes algorithms msgType txID password

theorem exists_signed (hlength : body.username.length < 65536) (hpassword : password ≠ []) :
    ∃ msg after digest, newMessageWithTransactionID msgType body.attrs txID = .ok msg ∧
      msg.addMessageIntegrity algorithms password = .ok after ∧
      body.Signed algorithms msgType txID password digest after := by
  have hlimits : ∀ attr ∈ body.attrs, attr.WithinLimits := fun _ => body.limits_of_mem hlength
  have hordered := body.ordered_attrs [] List.isChain_nil
  rw [List.append_nil] at hordered
  obtain ⟨msg, hnew, complete, hflag⟩ := @newMessage_complete msgType txID body.attrs hordered
      fun attr hattr => (hlimits attr hattr).length_lt
  have holds : msg.Holds (body.attrs.map Attribute.toTlv) := by
    refine ⟨?_, ?_⟩
    · rw [complete.raw_eq, complete.header_eq, encoded]
    · rw [complete.attributes_eq, filterMap_decoded hlimits]
  have may : msg.MayAppend .messageIntegrity := by
    intro last hlast
    rw [complete.attributes_eq] at hlast
    exact Kind.mayFollow_of_plain (body.plain_of_mem (List.mem_of_getLast? hlast)) _
  obtain ⟨after, digest, hadd, signs⟩ := holds.addMessageIntegrity algorithms may hpassword
  have hvalue : (Attribute.messageIntegrity digest).value.length < 65536 := by
    rw [Attribute.value, digest.length_eq]
    decide
  have hcomplete : after.header = headerOf msgType txID
      (body.attrs ++ [.messageIntegrity digest]) := by
    rw [signs.header_eq, complete.header_eq, headerOf, headerOf,
      length_encoded_append _ hvalue, serializeLen_messageIntegrity, UInt16.ofNat_add]
    rfl
  refine ⟨msg, after, digest, hnew, hadd, ⟨hcomplete, ?_, ?_⟩, signs.fingerprint_eq.trans hflag, ?_⟩
  · rw [signs.attributes_eq, complete.attributes_eq]
  · rw [signs.raw_eq, hcomplete, encoded_append_singleton, encoded]
  · rw [signs.digest_eq fun tlv => code_ne_of_plain fun _ => body.plain_of_mem, complete.header_eq]
    rfl

def checksum (msgType : UInt16) (txID : FixedBytes 12) (digest : FixedBytes 20) : UInt32 :=
  Message.fingerprintOf algorithms.crc32 msgType txID (body.attrs ++ [.messageIntegrity digest])

def sentAttributes (msgType : UInt16) (txID : FixedBytes 12)
    (requested : Bool) (digest : FixedBytes 20) : List Attribute :=
  body.signed requested digest (body.checksum algorithms msgType txID digest)

def received (msgType : UInt16) (txID : FixedBytes 12) (requested : Bool)
    (digest : FixedBytes 20) : Message :=
  let attrs := body.sentAttributes algorithms msgType txID requested digest
  { header := headerOf msgType txID attrs
    attributes := attrs
    raw := (headerOf msgType txID attrs).serializeTo ++ encoded attrs
    fingerprint := false }

theorem withoutFingerprint_signed (digest : FixedBytes 20) :
    withoutFingerprint (body.attrs ++ [.messageIntegrity digest]) =
      body.attrs ++ [.messageIntegrity digest] := by
  rw [withoutFingerprint, List.getLast?_concat]
  exact if_neg fun hkind => by cases hkind

variable {body} {algorithms} {requested : Bool} {digest : FixedBytes 20} {msg : Message}

theorem Signed.writes (signed : body.Signed algorithms msgType txID password digest msg)
    (hlength : body.username.length < 65536) (requested : Bool) :
    ∃ sent, (msg.requesting requested).serializeTo algorithms.crc32 = .ok (sent,
        (body.received algorithms msgType txID requested digest).raw) ∧
      (msg.requesting requested).writeTo algorithms.crc32 = .ok (sent,
        (body.received algorithms msgType txID requested digest).raw) := by
  obtain ⟨hasked, hasks⟩ := signed.complete.requesting signed.unflagged requested
  obtain ⟨sent, hfinish, hsent⟩ := hasked.finish algorithms.crc32
    (body.ordered_attrs [.messageIntegrity digest] (List.isChain_singleton _))
  have hwritten : ∀ value, written requested (body.attrs ++ [.messageIntegrity digest]) value =
      body.signed requested digest value := by
    cases requested <;> simp [written, withoutFingerprint_signed, Body.signed]
  rw [hasks, withoutFingerprint_signed, hwritten] at hsent
  exact ⟨sent, hsent.serializeTo algorithms.crc32 hfinish fun attr hattr =>
    (body.limits_signed hlength _ _ _ attr hattr).length_lt⟩

theorem Signed.delivers (signed : body.Signed algorithms msgType txID password digest msg)
    (hlength : body.username.length < 65536) (hsize : body.size requested ≤ 65535) :
    Delivers algorithms.crc32 (msg.requesting requested)
      (body.received algorithms msgType txID requested digest) := by
  obtain ⟨sent, hserialize, hwrite⟩ := signed.writes hlength requested
  refine ⟨sent, _, hserialize, hwrite, fun data hdata => ?_⟩
  have hlimits := body.limits_signed hlength requested digest
    (body.checksum algorithms msgType txID digest)
  rw [decodeMessage_of_contents hlimits (by rwa [length_encoded_signed body hlength]) hdata, hdata]
  rfl

theorem findAttribute_end {kind : Kind} (hplain : kind.plain = false) :
    (body.received algorithms msgType txID requested digest).findAttribute kind =
      List.find? (fun attr => attr.kind = kind) ([.messageIntegrity digest] ++ if requested then
          [.fingerprint (body.checksum algorithms msgType txID digest)]
          else []) := by
  have hattrs : body.attrs.find? (fun attr => attr.kind = kind) = none := by
    rw [List.find?_eq_none]
    intro attr hattr
    have hother := body.plain_of_mem hattr
    simp only [decide_eq_true_eq]
    rintro rfl
    cases hplain.symm.trans hother
  rw [Message.findAttribute, received, sentAttributes, signed,
    List.append_assoc, List.find?_append, hattrs, Option.none_or]

theorem Signed.verifyMessageIntegrity (signed : body.Signed algorithms msgType txID password digest
    msg) (hpassword : password ≠ []) :
    (body.received algorithms msgType txID requested
      digest).verifyMessageIntegrity algorithms password = .ok true := by
  have hraw : (body.received algorithms msgType txID requested digest).raw =
      (body.received algorithms msgType txID requested digest).header.serializeTo ++
          (area (body.attrs.map Attribute.toTlv) ++
            ((Attribute.messageIntegrity digest).toTlv.bytes ++ encoded (if requested then
                [.fingerprint (body.checksum algorithms msgType txID digest)]
                else []))) := by
    simp only [received, sentAttributes, encoded, Body.signed, area,
      List.map_append, List.flatMap_append, List.append_assoc, List.map_cons,
      List.map_nil, List.flatMap_cons, List.flatMap_nil, List.nil_append]
  have hfound : (body.received algorithms msgType txID requested digest).findAttribute
      .messageIntegrity = some (.messageIntegrity digest) := by
    rw [findAttribute_end rfl]
    rfl
  have hcode : (Attribute.messageIntegrity digest).toTlv.code = Kind.messageIntegrity.code := rfl
  rw [Message.verifyMessageIntegrity, verifyWithHash_of_found _ _ rfl hpassword
    (fun tlv => code_ne_of_plain fun _ => body.plain_of_mem) hcode hraw hfound, signed.digest_eq]
  exact congrArg Except.ok (decide_eq_true rfl)

theorem Signed.validateShortTermIntegrity {expected : AuthConfig} (signed : body.Signed algorithms
    msgType txID expected.password digest msg) (husername : expected.username = body.username)
    (hkeeps : algorithms.opaqueString expected.username ≠ []) (hpassword : expected.password ≠ []) :
    Stun.validateShortTermIntegrity algorithms (body.received algorithms msgType txID requested
      digest) (some expected) = .ok () := by
  have hfound : (body.received algorithms msgType txID requested
      digest).findAttribute .username = some (.username body.username) := rfl
  have hgot : (body.received algorithms msgType txID requested
      digest).getAuthParams.username = expected.username := by
    rw [Message.getAuthParams, hfound, husername]
  rw [Stun.validateShortTermIntegrity]
  simp only [hgot, if_neg hpassword, if_neg hkeeps, ne_eq, not_true_eq_false,
    if_false, signed.verifyMessageIntegrity hpassword]

theorem verifyFingerprint_received :
    (body.received algorithms msgType txID true digest).verifyFingerprint algorithms = true := by
  have hfound : (body.received algorithms msgType txID true digest).findAttribute .fingerprint =
      some (.fingerprint (body.checksum algorithms msgType txID digest)) := by
    rw [findAttribute_end rfl]
    rfl
  have hlong : ¬ (body.received algorithms msgType txID true digest).raw.length < 8 := by
    rw [received, List.length_append, length_serializeTo]
    omega
  rw [Message.verifyFingerprint, hfound]
  simp only [if_neg hlong, beq_iff_eq]
  exact Message.fingerprintOf_eq algorithms.crc32 _ rfl

theorem acceptable_received {opts : BindingOptions}
    (hrequested : opts.requireFingerprint = requested) :
    Acceptable algorithms opts (body.received algorithms msgType txID requested digest) := by
  constructor
  · have hmod := length_area_mod ((body.sentAttributes algorithms msgType txID
      requested digest).map Attribute.toTlv)
    apply UInt16.toNat_inj.mp
    change UInt16.toNat (UInt16.ofNat (area _).length % 4) = 0
    change _ % 65536 % 4 = 0
    omega
  · intro hrequires
    cases hrequires.symm.trans hrequested
    exact verifyFingerprint_received

theorem size_le (hrest : (body.rest.map Attribute.serializeLen).sum ≤ 60) (requested : Bool) :
    body.size requested ≤ body.username.length + 99 := by
  have hpadding := calculatePadding_lt body.username.length
  have hlast : (if requested then 8 else 0) ≤ 8 := by
    cases requested <;> decide
  rw [size, attrSerializedSize]
  omega

theorem decodeAttributes_of_cut {data : Slice} {username more : Bytes} {attrs : List Attribute}
    (hlength : username.length < 65536) (harray : data.array = (Attribute.username
    username).toTlv.bytes ++ more) (hcut : data.len < 4 + username.length)
    (hdecode : decodeAttributes data = .ok attrs) : attrs = [] := by
  by_cases hshort : data.len < 4
  · rw [decodeAttributes_of_finished (front_of_short hshort)] at hdecode
    exact (Except.ok.inj hdecode).symm
  · have hcontents : (Slice.ofBytes data.array).contents =
        (Attribute.username username).toTlv.bytes ++ more := by
      rw [Slice.contents_ofBytes, harray]
    have hcode : codeAt data = Kind.username.code := codeAt_of_contents hcontents
    have hlengthAt : lengthAt data = username.length := (lengthAt_of_contents hcontents).trans
        (congrArg List.length (Attribute.value_toTlv hlength))
    obtain ⟨cause, hcause⟩ := front_of_rejects (by omega)
      (hcode ▸ typeRegistry_code .username) fun haccepts => by
        have hinside := haccepts.2.2 rfl
        omega
    cases (decodeAttributes_of_error hcause).symm.trans hdecode

/-- The area that the length field leaves of such a message ends inside of the
user name. -/
theorem Signed.attributes_of_overflow {other : Message} (signed : body.Signed algorithms msgType
    txID password digest msg) (hlength : body.username.length < 65536)
    (hrest : (body.rest.map Attribute.serializeLen).sum ≤ 60) (hsize : 65535 < body.size requested)
    (delivers : Delivers algorithms.crc32 (msg.requesting requested) other) :
    other.attributes = [] := by
  obtain ⟨sent, bytes, hserialize, -, hdecode⟩ := delivers
  obtain ⟨_, hbytes, -⟩ := signed.writes hlength requested
  cases hserialize.symm.trans hbytes
  let attrs := body.sentAttributes algorithms msgType txID requested digest
  let data := Slice.ofBytes ((headerOf msgType txID attrs).serializeTo ++ encoded attrs)
  have hdata : data.contents = (headerOf msgType txID attrs).serializeTo ++ encoded attrs :=
    Slice.contents_ofBytes _
  obtain ⟨hlen, -, hattributes, -⟩ := decodeMessage_eq_ok (hdecode data hdata)
  have hencoded : (encoded attrs).length = body.size requested :=
    body.length_encoded_signed hlength requested digest _
  have harray : (areaAt data hlen).array = encoded attrs := List.drop_left' (length_serializeTo _)
  have hwrapped : (areaAt data hlen).len < 4 + body.username.length := by
    have hfield : (areaAt data hlen).len = body.size requested % 65536 := by
      change (headerAt data).length.toNat = _
      rw [headerAt_of_contents hdata, ← hencoded]
      exact UInt16.toNat_ofNat'
    have hle := size_le hrest requested
    omega
  exact decodeAttributes_of_cut hlength (harray.trans (area_cons _ _)) hwrapped hattributes

end

end Body

end Pig.Stun
