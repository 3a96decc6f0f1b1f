import Pig.Stun.Binding

namespace Pig.Stun

open Go

def Header.authenticated (header : Header) : Header := { header with length := 0 }

def Header.Genuine (header : Header) : Prop :=
  header.type &&& 0xc000 = 0 ∧ header.magicCookie = Stun.magicCookie

section

variable (algorithms : Algorithms)

def Acceptable (opts : BindingOptions) (msg : Message) : Prop := msg.header.length % 4 = 0 ∧
    (opts.requireFingerprint = true → msg.verifyFingerprint algorithms = true)

structure Answers (agent : BindingAgent) (header : Header) (sent : Bool) :
    Prop where
  genuine : header.Genuine
  method : validateMethodAndClass header.type methodBinding [classRequest] = .ok ()
  response : ∃ remoteAddr response written, agent.remoteAddr = some remoteAddr ∧ bindingResponse
      algorithms remoteAddr header.transactionID agent.requestOptions = .ok response ∧
      response.writeTo algorithms.crc32 = .ok written
  sent : sent = true
  controlled : agent.controlled = true

structure Expects (header : Header) (txID : FixedBytes 12) : Prop where
  genuine : header.Genuine
  transactionID : header.transactionID = txID
  method : validateMethodAndClass header.type methodBinding
    [classSuccessResponse, classErrorResponse] = .ok ()
  not_error : isErrorResponseType header.type = false
  success : isSuccessResponseType header.type = true

variable {algorithms} {opts : BindingOptions} {msg : Message}

theorem header_validate_iff {header : Header} :
    header.validate = .ok () ↔ header.Genuine ∧ header.length % 4 = 0 := by
  rw [Header.validate, Header.Genuine]
  by_cases htype : header.type &&& 0xc000 = 0
  · by_cases hcookie : header.magicCookie = magicCookie
    · by_cases hlength : header.length % 4 = 0 <;> simp [htype, hcookie, hlength]
    · simp [htype, hcookie]
  · simp [htype]

theorem validate_iff (hintegrity : validateShortTermIntegrity algorithms msg opts.auth = .ok ()) :
    msg.validate algorithms (some opts) = .ok () ↔
      msg.header.Genuine ∧ Acceptable algorithms opts msg := by
  rw [Message.validate, Acceptable, ← and_assoc, ← header_validate_iff]
  cases hheader : msg.header.validate with
  | error error => simp [Except.mapError]
  | ok =>
    simp only [Except.mapError, ok_bind, hintegrity, true_and]
    by_cases hrequired : opts.requireFingerprint = true
    · cases hverified : msg.verifyFingerprint algorithms with
      | true => simp [hrequired]; rfl
      | false => simp [hrequired, Binding.fail]
    · simp [hrequired]; rfl

theorem processBindingRequest_iff {remoteAddr : Addr} {response : Message}
    {requestOpts : Option BindingOptions}
    (hintegrity : validateShortTermIntegrity algorithms msg opts.auth = .ok ()) :
    processBindingRequest algorithms msg remoteAddr (some opts) requestOpts = .ok response ↔
      msg.header.Genuine ∧ Acceptable algorithms opts msg ∧ validateMethodAndClass msg.header.type
      methodBinding [classRequest] = .ok () ∧ bindingResponse algorithms remoteAddr
      msg.header.transactionID requestOpts = .ok response := by
  simp only [processBindingRequest, bind_eq_ok]
  constructor
  · rintro ⟨_, hmethod, _, hvalid, hresponse⟩
    obtain ⟨hgenuine, hacceptable⟩ := (validate_iff hintegrity).mp hvalid
    exact ⟨hgenuine, hacceptable, hmethod, hresponse⟩
  · rintro ⟨hgenuine, hacceptable, hmethod, hresponse⟩
    exact ⟨_, hmethod, _, (validate_iff hintegrity).mpr ⟨hgenuine, hacceptable⟩, hresponse⟩

variable {kind : Kind}

theorem findAttribute_isSome_iff : (msg.findAttribute kind).isSome = true ↔
      ∃ attr ∈ msg.attributes, attr.kind = kind := by
  simp [Message.findAttribute]

theorem handleRequest_iff {agent : BindingAgent} {sent : Bool}
    (hintegrity : validateShortTermIntegrity algorithms msg agent.handleOptions.auth = .ok ()) :
    agent.handleRequest algorithms msg sent = .ok true ↔ Answers algorithms agent
      msg.header.authenticated sent ∧ Acceptable algorithms agent.handleOptions msg ∧ ∃ attr ∈
      msg.attributes, attr.kind = .iceUseCandidate := by
  rw [BindingAgent.handleRequest, ← findAttribute_isSome_iff]
  cases hremote : agent.remoteAddr with
  | none =>
    refine iff_of_false nofun ?_
    rintro ⟨answers, -⟩
    obtain ⟨remoteAddr, -, -, hconnected, -⟩ := answers.response
    cases hremote.symm.trans hconnected
  | some remoteAddr =>
    simp only [bind_eq_ok, processBindingRequest_iff hintegrity, mapError_ok_iff]
    constructor
    · rintro ⟨response, ⟨hgenuine, hacceptable, hmethod, hresponse⟩, written, hwritten, hnominated⟩
      split at hnominated
      · cases hnominated
      · rename_i hsent
        obtain ⟨hcontrolled, hcandidate⟩ := Bool.and_eq_true_iff.mp (Except.ok.inj hnominated)
        exact ⟨{
          genuine := hgenuine
          method := hmethod
          response := ⟨remoteAddr, response, written, hremote, hresponse, hwritten⟩
          sent := by simpa using hsent
          controlled := hcontrolled }, hacceptable, hcandidate⟩
    · rintro ⟨answers, hacceptable, hcandidate⟩
      obtain ⟨other, response, written, hconnected, hresponse, hwritten⟩ := answers.response
      cases hremote.symm.trans hconnected
      refine ⟨response, ⟨answers.genuine, hacceptable, answers.method,
        hresponse⟩, written, hwritten, ?_⟩
      rw [answers.sent, answers.controlled, hcandidate]
      rfl

def returnedAddress (algorithms : Algorithms) (opts : BindingOptions)
    (txID : FixedBytes 12) (msg : Message) : Option (Bytes × Nat) :=
  match processBindingResponse algorithms msg txID (some opts) with
  | .ok result => some (result.ip, result.port)
  | .error _ => none

theorem length_xorBytes (bytes mask : Bytes) :
    (xorBytes bytes mask).length = min bytes.length mask.length :=
  List.length_zipWith

inductive Extracted (unmask : Bytes → Bytes) (value ip : Bytes) : Prop
  | v4 (family_eq : value.getD 1 0 = 0x01)
      (ip_eq : ip = unmask (value.window 4 4)) (length_eq : ip.length = 4)
  | v6 (family_eq : value.getD 1 0 = 0x02)
      (ip_eq : ip = unmask (value.window 4 16)) (length_eq : ip.length = 16)

def addressMask (txID : FixedBytes 12) : Bytes := magicCookieBytes ++ txID.bytes

theorem xorBytes_append {bytes mask : Bytes} (more : Bytes) (hlength : bytes.length = mask.length) :
    xorBytes bytes (mask ++ more) = xorBytes bytes mask := by
  calc
    xorBytes bytes (mask ++ more) = xorBytes (bytes ++ []) (mask ++ more) := by
      rw [List.append_nil]
    _ = xorBytes bytes mask ++ xorBytes [] more := List.zipWith_append hlength
    _ = xorBytes bytes mask := List.append_nil _

variable {txID : FixedBytes 12}

variable {port : Nat}

theorem extracted_decodeXorMappedAddress {value ip : Bytes}
    (hdecode : decodeXorMappedAddress value txID = .ok (ip, port)) :
    Extracted (xorBytes · (addressMask txID)) value ip := by
  have hcookie : magicCookieBytes.length = 4 := rfl
  rw [decodeXorMappedAddress] at hdecode
  split at hdecode
  · cases hdecode
  have hwindow : (value.window 4 4).length = 4 := Bytes.length_window _ _ _ (by omega)
  split at hdecode
  · next hfamily =>
      cases hdecode
      refine .v4 hfamily ?_ ?_
      · exact (xorBytes_append _ (hwindow.trans hcookie.symm)).symm
      · rw [length_xorBytes, hwindow, hcookie, Nat.min_self]
  · next hfamily =>
      split at hdecode
      · cases hdecode
      cases hdecode
      refine .v6 hfamily rfl ?_
      rw [length_xorBytes, Bytes.length_window _ _ _ (by omega),
        List.length_append, hcookie, txID.length_eq]
      rfl
  · cases hdecode

theorem decodeXorMappedAddress_ne_nil {value ip : Bytes}
    (hdecode : decodeXorMappedAddress value txID = .ok (ip, port)) :
    ip ≠ [] := by
  cases extracted_decodeXorMappedAddress hdecode with
  | v4 _ _ hlength | v6 _ _ hlength => exact List.ne_nil_of_length_pos (by omega)

theorem decodeMappedAddress_ne_nil {value ip : Bytes}
    (hdecode : decodeMappedAddress value = .ok (ip, port)) : ip ≠ [] := by
  have hsub : ∀ high : Nat, 4 < high → Binding.checked ((Slice.ofBytes value).sub 4 high) = .ok ip →
        ip ≠ [] := by
    intro high hhigh hip
    obtain ⟨⟨-, hcap⟩, rfl⟩ := (Slice.sub_eq_ok_iff _).mp (mapError_ok_iff.mp hip)
    refine List.ne_nil_of_length_pos ?_
    rw [Bytes.length_window _ _ _ (Nat.le_trans (by omega) hcap)]
    omega
  simp only [decodeMappedAddress, bind_eq_ok] at hdecode
  obtain ⟨family, -, bytes, -, hfamily⟩ := hdecode
  split at hfamily
  · obtain ⟨found, hfound, hresult⟩ := bind_eq_ok.mp hfamily
    cases hresult
    exact hsub 8 (by decide) hfound
  · obtain ⟨found, hfound, hresult⟩ := bind_eq_ok.mp hfamily
    cases hresult
    exact hsub 20 (by decide) hfound
  · cases hfamily

theorem mappedAddrPort_ne_nil {ip : Bytes}
    (haddress : msg.mappedAddrPort = .ok (ip, port)) : ip ≠ [] := by
  rw [Message.mappedAddrPort] at haddress
  split at haddress
  · exact decodeXorMappedAddress_ne_nil (mapError_ok_iff.mp haddress)
  · split at haddress
    · exact decodeMappedAddress_ne_nil haddress
    · cases haddress

theorem processBindingResponse_eq_ok {opts : Option BindingOptions} {result : BindingResult} :
    processBindingResponse algorithms msg txID opts = .ok result ↔ msg.validate algorithms opts =
      .ok () ∧ msg.header.transactionID = txID ∧ validateMethodAndClass msg.header.type
      methodBinding [classSuccessResponse, classErrorResponse] = .ok () ∧
      isErrorResponseType msg.header.type = false ∧ isSuccessResponseType msg.header.type = true ∧
      msg.mappedAddrPort = .ok (result.ip, result.port) ∧ result.transactionID = txID := by
  rw [processBindingResponse, bind_eq_ok]
  constructor
  · rintro ⟨_, hvalid, hrest⟩
    split at hrest
    · cases hrest
    · rename_i htxID
      obtain ⟨_, hmethod, hrest⟩ := bind_eq_ok.mp hrest
      split at hrest
      · obtain ⟨error, -, hfail⟩ := bind_eq_ok.mp hrest
        cases hfail
      · rename_i herror
        split at hrest
        · rename_i hsuccess
          obtain ⟨⟨ip, port⟩, haddress, hrest⟩ := bind_eq_ok.mp hrest
          simp only [if_neg (mappedAddrPort_ne_nil haddress)] at hrest
          cases hrest
          exact ⟨hvalid, not_not.mp htxID, hmethod, Bool.not_eq_true _ ▸ herror, hsuccess,
            haddress, rfl⟩
        · cases hrest
  · rintro ⟨hvalid, htxID, hmethod, herror, hsuccess, haddress, rfl⟩
    refine ⟨(), hvalid, ?_⟩
    rw [if_neg (not_not.mpr htxID), bind_eq_ok]
    refine ⟨(), hmethod, ?_⟩
    rw [if_neg (Bool.eq_false_iff.mp herror), if_pos hsuccess, haddress, ok_bind]
    exact if_neg (mappedAddrPort_ne_nil haddress)

theorem processBindingResponse_iff {result : BindingResult}
    (hintegrity : validateShortTermIntegrity algorithms msg opts.auth = .ok ()) :
    processBindingResponse algorithms msg txID (some opts) = .ok result ↔ Expects
      msg.header.authenticated txID ∧ Acceptable algorithms opts msg ∧ msg.mappedAddrPort = .ok
      (result.ip, result.port) ∧ result.transactionID = txID := by
  rw [processBindingResponse_eq_ok, validate_iff hintegrity]
  constructor
  · rintro ⟨⟨hgenuine, hacceptable⟩, htxID, hmethod, herror, hsuccess, haddress⟩
    exact ⟨⟨hgenuine, htxID, hmethod, herror, hsuccess⟩, hacceptable, haddress⟩
  · rintro ⟨⟨hgenuine, htxID, hmethod, herror, hsuccess⟩, hacceptable, haddress⟩
    exact ⟨⟨hgenuine, hacceptable⟩, htxID, hmethod, herror, hsuccess, haddress⟩

theorem returnedAddress_iff {address : Bytes × Nat}
    (hintegrity : validateShortTermIntegrity algorithms msg opts.auth = .ok ()) :
    returnedAddress algorithms opts txID msg = some address ↔ Expects msg.header.authenticated txID
      ∧ Acceptable algorithms opts msg ∧ msg.mappedAddrPort = .ok address := by
  rw [returnedAddress]
  constructor
  · intro hreturned
    split at hreturned
    · rename_i result hresult
      cases hreturned
      obtain ⟨expects, hacceptable, haddress, -⟩ :=
        (processBindingResponse_iff hintegrity).mp hresult
      exact ⟨expects, hacceptable, haddress⟩
    · cases hreturned
  · rintro ⟨expects, hacceptable, haddress⟩
    have hresult : processBindingResponse algorithms msg txID (some opts) =
        .ok ⟨txID, address.1, address.2⟩ :=
      (processBindingResponse_iff hintegrity).mpr ⟨expects, hacceptable, haddress, rfl⟩
    rw [hresult]

def hasKind (kind : Kind) (attrs : List Attribute) : Prop := ∃ attr ∈ attrs, attr.kind = kind

def findKind (kind : Kind) (attrs : List Attribute) : Option Attribute :=
  attrs.find? fun attr => attr.kind = kind

def addressSource (front tail : List Attribute) : Option Attribute :=
  (findKind .xorMappedAddress front).or <| (findKind .xorMappedAddress tail).or <|
      (findKind .mappedAddress front).or (findKind .mappedAddress tail)

def addressOf (txID : FixedBytes 12) : Attribute → Option (Bytes × Nat)
  | .xorMappedAddress value => (decodeXorMappedAddress value txID).toOption
  | .mappedAddress value => (decodeMappedAddress value).toOption
  | _ => none

def suppliedAddress (txID : FixedBytes 12) (front tail : List Attribute) : Option (Bytes × Nat) :=
  (addressSource front tail).bind (addressOf txID)

theorem toOption_eq_some_iff {Error Value : Type} {value : Except Error Value} {result : Value} :
    value.toOption = some result ↔ value = .ok result := by
  cases value <;> simp [Except.toOption]

theorem findAttribute_append {front tail : List Attribute}
    (hattributes : msg.attributes = front ++ tail) :
    msg.findAttribute kind = (findKind kind front).or (findKind kind tail) := by
  rw [Message.findAttribute, hattributes, List.find?_append]
  rfl

theorem kind_of_findAttribute {attr : Attribute}
    (hfound : msg.findAttribute kind = some attr) : attr.kind = kind := by
  simpa using List.find?_some hfound

theorem value_of_findAttribute {attr : Attribute} (hfound : msg.findAttribute kind = some attr) :
    match kind with
    | .xorMappedAddress => ∃ value, attr = .xorMappedAddress value
    | .mappedAddress => ∃ value, attr = .mappedAddress value
    | .otherAddress => ∃ value, attr = .otherAddress value
    | _ => True := by
  obtain rfl := kind_of_findAttribute hfound
  cases attr <;> first | exact ⟨_, rfl⟩ | trivial

theorem mappedAddrPort_iff {front tail : List Attribute}
    {address : Bytes × Nat} (hattributes : msg.attributes = front ++ tail) :
    msg.mappedAddrPort = .ok address ↔
      suppliedAddress msg.header.transactionID front tail = some address := by
  rw [Message.mappedAddrPort, suppliedAddress, addressSource, ← Option.or_assoc,
    ← findAttribute_append hattributes, ← findAttribute_append hattributes]
  cases hxor : msg.findAttribute .xorMappedAddress with
  | some attr =>
    obtain ⟨value, rfl⟩ := value_of_findAttribute hxor
    exact mapError_ok_iff.trans toOption_eq_some_iff.symm
  | none =>
    cases hmapped : msg.findAttribute .mappedAddress with
    | some attr =>
      obtain ⟨value, rfl⟩ := value_of_findAttribute hmapped
      exact toOption_eq_some_iff.symm
    | none => exact iff_of_false nofun nofun

end

end Pig.Stun
