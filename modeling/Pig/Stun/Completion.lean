import Pig.Stun.SignedBody

namespace Pig.Stun

open Go

def iceAttributes (ice : Option IceConfig) : List Attribute :=
  BindingOptions.buildIceAttributes ⟨none, ice, false⟩

theorem iceAttributes_cases {ice : Option IceConfig} {attr : Attribute}
    (hattr : attr ∈ iceAttributes ice) :
    attr = .iceUseCandidate ∨ (∃ number, attr = .iceControlling number) ∨
      (∃ number, attr = .iceControlled number) ∨ ∃ number, attr = .icePriority number := by
  cases ice with
  | none => cases hattr
  | some ice =>
    simp only [iceAttributes, BindingOptions.buildIceAttributes, List.mem_append] at hattr
    rcases hattr with ((hattr | hattr) | hattr) | hattr <;> split at hattr <;> first
        | (cases List.mem_singleton.mp hattr; simp)
        | cases hattr

theorem size_iceAttributes (ice : Option IceConfig) :
    ((iceAttributes ice).map Attribute.serializeLen).sum ≤ 36 := by
  cases ice with
  | none => decide
  | some ice =>
    simp only [iceAttributes, BindingOptions.buildIceAttributes]
    split <;> split <;> split <;> split <;>
      simp [Attribute.serializeLen, Attribute.value, attrSerializedSize, calculatePadding]

def requestBody (username : Bytes) (ice : Option IceConfig) : Body where
  username := username
  rest := iceAttributes ice
  plain := by
    intro attr hattr
    obtain rfl | ⟨_, rfl⟩ | ⟨_, rfl⟩ | ⟨_, rfl⟩ := iceAttributes_cases hattr <;> rfl
  limits := by
    intro attr hattr
    obtain rfl | ⟨_, rfl⟩ | ⟨_, rfl⟩ | ⟨_, rfl⟩ := iceAttributes_cases hattr <;> trivial

def responseBody (username : Bytes) (ice : Option IceConfig)
    (txID : FixedBytes 12) {ip : Bytes} (port : Int) (hip : IsIP ip) :
    Body where
  username := username
  rest := iceAttributes ice ++ [.xorMappedAddress (addressValue txID ip port)]
  plain := by
    intro attr hattr
    rcases List.mem_append.mp hattr with hice | haddress
    · exact (requestBody username ice).plain attr hice
    · cases List.mem_singleton.mp haddress
      rfl
  limits := by
    intro attr hattr
    rcases List.mem_append.mp hattr with hice | haddress
    · exact (requestBody username ice).limits attr hice
    · cases List.mem_singleton.mp haddress
      exact withinLimits_addressValue hip

theorem serializeLen_addressValue {ip : Bytes} {port : Int} {txID : FixedBytes 12} (hip : IsIP ip) :
    (Attribute.xorMappedAddress (addressValue txID ip port)).serializeLen =
      4 + addressLength ip := by
  rw [Attribute.serializeLen, Attribute.value, length_addressValue hip]
  rcases addressLength_cases ip with hlength | hlength <;> rw [hlength] <;> rfl

theorem size_responseBody (username : Bytes) (ice : Option IceConfig)
    (txID : FixedBytes 12) {ip : Bytes} (port : Int) (hip : IsIP ip) :
    (((responseBody username ice txID port hip).rest).map Attribute.serializeLen).sum =
        ((iceAttributes ice).map Attribute.serializeLen).sum + (4 + addressLength ip) := by
  simp [responseBody, serializeLen_addressValue hip]

theorem newMessage_of_long {msgType : UInt16} {txID : FixedBytes 12}
    (body : Body) (hlong : 65536 ≤ body.username.length) :
    newMessageWithTransactionID msgType body.attrs txID = .error (.fault .sliceBounds) := by
  have hserialize : (Attribute.username body.username).serializeTo = .error .sliceBounds := by
    have hpadding := calculatePadding_lt (body.username.length % 65536)
    rw [Attribute.serializeTo, if_neg]
    simp only [Attribute.serializeLen, Attribute.value, attrSerializedSize]
    omega
  rw [newMessageWithTransactionID, Body.attrs, List.foldlM_cons]
  simp only [Message.appendAttribute, List.getLast?_nil, Message.unsafeAppendAttribute, hserialize]
  rfl

section

variable {algorithms : Algorithms} {auth : AuthConfig} {ice : Option IceConfig}
  {requested : Bool} {txID : FixedBytes 12} {msg after : Message}

theorem buildAuthAttributes_eq (husername : auth.username ≠ [])
    (hrealm : auth.realm = []) (hnonce : auth.nonce = []) :
    BindingOptions.buildAuthAttributes ⟨some auth, ice, requested⟩ = [.username auth.username] := by
  simp [BindingOptions.buildAuthAttributes, husername, hrealm, hnonce]

section

variable (hauth :
    BindingOptions.buildAuthAttributes ⟨some auth, ice, requested⟩ = [.username auth.username])

include hauth

theorem requestAttributes_eq :
    BindingOptions.buildAuthAttributes ⟨some auth, ice, requested⟩ ++
        BindingOptions.buildIceAttributes ⟨some auth, ice, requested⟩ =
      (requestBody auth.username ice).attrs := by
  rw [hauth]
  rfl

theorem buildBindingRequest_eq (hpassword : auth.password ≠ [])
    (hnew : newMessageWithTransactionID msgTypeBindingRequest (requestBody auth.username ice).attrs
    txID = .ok msg) (hadd : msg.addMessageIntegrity algorithms auth.password = .ok after) :
    buildBindingRequest algorithms (some ⟨some auth, ice, requested⟩) txID =
      .ok (after.requesting requested) := by
  rw [buildBindingRequest]
  simp only [requestAttributes_eq hauth, hnew, Except.mapError, ok_bind, if_pos hpassword, hadd]
  rfl

theorem buildBindingRequest_of_long (hlong : 65536 ≤ auth.username.length) :
    buildBindingRequest algorithms (some ⟨some auth, ice, requested⟩) txID =
      .error (.fault .sliceBounds) := by
  have hnew := @newMessage_of_long msgTypeBindingRequest txID (requestBody auth.username ice) hlong
  rw [buildBindingRequest]
  simp only [requestAttributes_eq hauth, hnew, Except.mapError]
  rfl

end

theorem bindingResponse_eq {remoteAddr : Addr} {ip : Bytes} {port : Int}
    (hparse : remoteAddr.parse = some (ip, port)) (hip : IsIP ip) (hauth :
    BindingOptions.buildAuthAttributes ⟨some auth, ice, requested⟩ = [.username auth.username])
    (hpassword : auth.password ≠ []) (hnew : newMessageWithTransactionID msgTypeBindingResponse
    (responseBody auth.username ice txID port hip).attrs txID = .ok msg)
    (hadd : msg.addMessageIntegrity algorithms auth.password = .ok after) :
    bindingResponse algorithms remoteAddr txID (some ⟨some auth, ice, requested⟩) =
      .ok (after.requesting requested) := by
  have hattrs : BindingOptions.buildAuthAttributes
      ⟨some auth, ice, requested⟩ ++ BindingOptions.buildIceAttributes
        ⟨some auth, ice, requested⟩ ++ [.xorMappedAddress (addressValue txID ip port)] =
        (responseBody auth.username ice txID port hip).attrs := by
    rw [requestAttributes_eq hauth]
    rfl
  rw [bindingResponse, newXorMappedAddressAttr_eq hparse hip]
  simp only [ok_bind, hattrs, hnew, Except.mapError, if_pos hpassword, hadd]
  rfl

end

section

variable {algorithms : Algorithms} {opts : BindingOptions} {expected : AuthConfig} {msg : Message}

theorem integrity_of_validate (hvalid : msg.validate algorithms (some opts) = .ok ()) :
    validateShortTermIntegrity algorithms msg opts.auth = .ok () := by
  rw [Message.validate, bind_eq_ok] at hvalid
  obtain ⟨_, -, hrest⟩ := hvalid
  rw [bind_eq_ok] at hrest
  obtain ⟨_, hintegrity, -⟩ := hrest
  exact mapError_ok_iff.mp hintegrity

theorem not_integrity_of_nil (hkeeps : algorithms.opaqueString [] = [])
    (hauth : opts.auth = some expected) (hpassword : expected.password ≠ [])
    (hattributes : msg.attributes = []) :
    msg.validate algorithms (some opts) ≠ .ok () := by
  intro hvalid
  have hintegrity := integrity_of_validate hvalid
  have husername : msg.getAuthParams.username = [] := by
    simp only [Message.getAuthParams, Message.findAttribute, hattributes, List.find?_nil]
  rw [hauth, validateShortTermIntegrity] at hintegrity
  simp only [if_neg hpassword, husername, hkeeps, if_true] at hintegrity
  cases hintegrity

end

structure AuthConfig.ShortTerm (algorithms : Algorithms) (auth : AuthConfig) :
    Prop where
  username_ne : auth.username ≠ []
  opaque_ne : algorithms.opaqueString auth.username ≠ []
  password_ne : auth.password ≠ []
  realm_eq : auth.realm = []
  nonce_eq : auth.nonce = []

theorem Delivers.unique {crc32 : Bytes → UInt32} {msg received other : Message}
    (delivers : Delivers crc32 msg received)
    (otherwise : Delivers crc32 msg other) : received = other := by
  obtain ⟨sent, bytes, hserialize, -, hdecode⟩ := delivers
  obtain ⟨_, _, hother, -, hdecodeOther⟩ := otherwise
  cases hserialize.symm.trans hother
  have hcontents := Slice.contents_ofBytes bytes
  exact Except.ok.inj ((hdecode _ hcontents).symm.trans (hdecodeOther _ hcontents))

section

variable {algorithms : Algorithms} {auth : AuthConfig} {ice handleIce : Option IceConfig}
  {requested : Bool} {txID : FixedBytes 12} {msg : Message} {digest : FixedBytes 20}

theorem AuthConfig.ShortTerm.buildAuthAttributes (shortTerm : auth.ShortTerm algorithms) :
    BindingOptions.buildAuthAttributes ⟨some auth, ice, requested⟩ = [.username auth.username] :=
  buildAuthAttributes_eq shortTerm.username_ne shortTerm.realm_eq shortTerm.nonce_eq

theorem exists_request (ice : Option IceConfig) (requested : Bool) (txID : FixedBytes 12)
    (shortTerm : auth.ShortTerm algorithms)
    (hlength : auth.username.length < 65536) :
    ∃ msg digest, buildBindingRequest algorithms (some ⟨some auth, ice, requested⟩) txID = .ok
      (Message.requesting requested msg) ∧ (requestBody auth.username ice).Signed algorithms
      msgTypeBindingRequest txID auth.password digest msg := by
  obtain ⟨plain, msg, digest, hnew, hadd, signed⟩ :=
    (requestBody auth.username ice).exists_signed algorithms hlength shortTerm.password_ne
  exact ⟨msg, digest, buildBindingRequest_eq shortTerm.buildAuthAttributes
    shortTerm.password_ne hnew hadd, signed⟩

section

variable {remoteAddr : Addr} {ip : Bytes} {port : Int} (hip : IsIP ip)

theorem exists_response (ice : Option IceConfig) (requested : Bool) (txID : FixedBytes 12)
    (hip : IsIP ip) (shortTerm : auth.ShortTerm algorithms)
    (hlength : auth.username.length < 65536) (hparse : remoteAddr.parse = some (ip, port)) :
    ∃ msg digest, bindingResponse algorithms remoteAddr txID (some ⟨some auth, ice, requested⟩) =
      .ok (Message.requesting requested msg) ∧ (responseBody auth.username ice txID port hip).Signed
      algorithms msgTypeBindingResponse txID auth.password digest msg := by
  obtain ⟨plain, msg, digest, hnew, hadd, signed⟩ := (responseBody auth.username ice txID port
    hip).exists_signed algorithms hlength shortTerm.password_ne
  exact ⟨msg, digest, bindingResponse_eq hparse hip
    shortTerm.buildAuthAttributes shortTerm.password_ne hnew hadd, signed⟩

theorem processBindingRequest_received {requestOpts : Option BindingOptions} {response : Message}
    (shortTerm : auth.ShortTerm algorithms) (signed : (requestBody auth.username ice).Signed
    algorithms msgTypeBindingRequest txID auth.password digest msg) :
    processBindingRequest algorithms ((requestBody auth.username ice).received algorithms
      msgTypeBindingRequest txID requested digest) remoteAddr (some
      ⟨some auth, handleIce, requested⟩) requestOpts = .ok response ↔ bindingResponse algorithms
      remoteAddr txID requestOpts = .ok response := by
  let opts : BindingOptions := ⟨some auth, handleIce, requested⟩
  have hintegrity : validateShortTermIntegrity algorithms ((requestBody auth.username ice).received
    algorithms msgTypeBindingRequest txID requested digest) opts.auth = .ok () :=
    signed.validateShortTermIntegrity rfl shortTerm.opaque_ne shortTerm.password_ne
  have hacceptable : Acceptable algorithms opts ((requestBody auth.username ice).received algorithms
    msgTypeBindingRequest txID requested digest) := Body.acceptable_received rfl
  rw [processBindingRequest_iff hintegrity]
  constructor
  · rintro ⟨-, -, -, hresponse⟩
    exact hresponse
  · intro hresponse
    exact ⟨⟨(by decide : msgTypeBindingRequest &&& 0xc000 = 0), rfl⟩,
      hacceptable, (by decide : validateMethodAndClass msgTypeBindingRequest _ _ = _), hresponse⟩

theorem findAttribute_address : ((responseBody auth.username ice txID port hip).received algorithms
      msgTypeBindingResponse txID requested digest).findAttribute .xorMappedAddress =
      some (.xorMappedAddress (addressValue txID ip port)) := by
  have hice : (iceAttributes ice).find? (fun attr =>
      attr.kind = Kind.xorMappedAddress) = none := by
    rw [List.find?_eq_none]
    intro attr hattr
    obtain rfl | ⟨_, rfl⟩ | ⟨_, rfl⟩ | ⟨_, rfl⟩ :=
      iceAttributes_cases hattr <;> exact Bool.false_ne_true
  change List.find? _ (.username auth.username :: (iceAttributes ice ++ _) ++ _ ++ _) = _
  rw [List.cons_append, List.cons_append, List.find?_cons_of_neg Bool.false_ne_true,
    List.append_assoc, List.append_assoc, List.find?_append, hice]
  rfl

theorem processBindingResponse_received (hport : 0 ≤ port ∧ port < 65536)
    (shortTerm : auth.ShortTerm algorithms) (signed : (responseBody auth.username ice txID port
    hip).Signed algorithms msgTypeBindingResponse txID auth.password digest msg) :
    processBindingResponse algorithms ((responseBody auth.username ice txID port hip).received
      algorithms msgTypeBindingResponse txID requested digest) txID
      (some ⟨some auth, handleIce, requested⟩) = .ok ⟨txID, plainIP ip, port.toNat⟩ := by
  let opts : BindingOptions := ⟨some auth, handleIce, requested⟩
  let answer := (responseBody auth.username ice txID port hip).received
    algorithms msgTypeBindingResponse txID requested digest
  have hintegrity : validateShortTermIntegrity algorithms answer opts.auth = .ok () :=
    signed.validateShortTermIntegrity rfl shortTerm.opaque_ne shortTerm.password_ne
  have haddress : answer.mappedAddrPort = .ok (plainIP ip, port.toNat) := by
    rw [Message.mappedAddrPort, findAttribute_address hip]
    change Except.mapError _ (decodeXorMappedAddress _ txID) = _
    rw [decodeXorMappedAddress_addressValue hip hport]
    rfl
  have expects : Expects answer.header.authenticated txID := {
    genuine := ⟨(by decide : msgTypeBindingResponse &&& 0xc000 = 0), rfl⟩
    transactionID := rfl
    method := (by decide : validateMethodAndClass msgTypeBindingResponse _ _ = .ok ())
    not_error := (by decide : isErrorResponseType msgTypeBindingResponse = false)
    success :=
      (by decide : isSuccessResponseType msgTypeBindingResponse = true) }
  exact (processBindingResponse_iff hintegrity).mpr
    ⟨expects, Body.acceptable_received rfl, haddress, rfl⟩

variable {out back : AuthConfig} {other : Option IceConfig}

theorem completes_of_fits (hparse : remoteAddr.parse = some (ip, port))
    (hport : 0 ≤ port ∧ port < 65536) (hout : out.ShortTerm algorithms)
    (hback : back.ShortTerm algorithms) (hlength : out.username.length < 65536)
    (hlengthBack : back.username.length < 65536) (hrequest : (requestBody out.username ice).size
    requested ≤ 65535) (hresponse : (responseBody back.username other txID port hip).size requested
    ≤ 65535) :
    Completes algorithms ⟨⟨some out, ice, requested⟩, ⟨some back, ice, requested⟩⟩
      ⟨⟨some back, other, requested⟩, ⟨some out, other, requested⟩⟩ txID
      remoteAddr ⟨txID, plainIP ip, port.toNat⟩ := by
  obtain ⟨request, digest, hbuild, signed⟩ := exists_request ice requested txID hout hlength
  obtain ⟨response, answer, hanswer, signedAnswer⟩ :=
    exists_response other requested txID hip hback hlengthBack hparse
  exact ⟨_, _, _, _, hbuild, signed.delivers hlength hrequest, (processBindingRequest_received hout
    signed).mpr hanswer, signedAnswer.delivers hlengthBack hresponse,
    processBindingResponse_received hip hport hback signedAnswer⟩

theorem fits_of_completes {result : BindingResult} (hkeeps : algorithms.opaqueString [] = [])
    (hparse : remoteAddr.parse = some (ip, port)) (hout : out.ShortTerm algorithms)
    (hback : back.ShortTerm algorithms) (hsame : back.username.length = out.username.length)
    (completes : Completes algorithms ⟨⟨some out, ice, requested⟩, ⟨some back, ice, requested⟩⟩
    ⟨⟨some back, other, requested⟩, ⟨some out, other, requested⟩⟩ txID remoteAddr result) :
    (requestBody out.username ice).size requested ≤ 65535 ∧
      (responseBody back.username other txID port hip).size requested ≤
        65535 := by
  obtain ⟨request, received, response, answer, hbuild, hreceived, hprocess,
    hanswer, hresult⟩ := completes
  have hlength : out.username.length < 65536 := by
    by_contra hlong
    cases (buildBindingRequest_of_long hout.buildAuthAttributes (by omega)).symm.trans hbuild
  obtain ⟨msg, digest, hmsg, signed⟩ := exists_request ice requested txID hout hlength
  cases hbuild.symm.trans hmsg
  have hrequest : (requestBody out.username ice).size requested ≤ 65535 := by
    by_contra hlong
    have hsize := size_iceAttributes ice
    obtain ⟨_, -, hvalid⟩ := bind_eq_ok.1 hprocess
    obtain ⟨_, hvalid, -⟩ := bind_eq_ok.1 hvalid
    exact not_integrity_of_nil hkeeps rfl hout.password_ne (signed.attributes_of_overflow hlength
      (Nat.le_trans hsize (by decide)) (by omega) hreceived) hvalid
  cases hreceived.unique (signed.delivers hlength hrequest)
  rw [processBindingRequest_received hout signed] at hprocess
  obtain ⟨msg, digest, hmsg, signedAnswer⟩ :=
    exists_response other requested txID hip hback (by omega) hparse
  cases hprocess.symm.trans hmsg
  by_contra hlong
  have hrest := size_responseBody back.username other txID port hip
  have hice := size_iceAttributes other
  have haddress := addressLength_cases ip
  exact not_integrity_of_nil hkeeps rfl hback.password_ne (signedAnswer.attributes_of_overflow
    (hsame ▸ hlength) (by omega) (by omega) hanswer) (processBindingResponse_eq_ok.mp hresult).1

end

end

def IceChar (byte : UInt8) : Prop := (0x41 ≤ byte ∧ byte ≤ 0x5a) ∨ (0x61 ≤ byte ∧ byte ≤ 0x7a) ∨
    (0x30 ≤ byte ∧ byte ≤ 0x39) ∨ byte = 0x2b ∨ byte = 0x2f

instance (byte : UInt8) : Decidable (IceChar byte) :=
  inferInstanceAs (Decidable (_ ∨ _ ∨ _ ∨ _ ∨ _))

def IceText (text : Bytes) : Prop := text ≠ [] ∧ ∀ byte ∈ text, IceChar byte

instance (text : Bytes) : Decidable (IceText text) :=
  @instDecidableAnd _ _ inferInstance (List.decidableBAll _ text)

structure IceAuth.Valid (auth : IceAuth) : Prop where
  localUfrag : IceText auth.localUfrag
  localPassword : IceText auth.localPassword
  remoteUfrag : IceText auth.remoteUfrag
  remotePassword : IceText auth.remotePassword

/-- The profile for passwords changes none of these characters, nor the colon
between two user fragments. -/
def KeepsIceText (opaqueString : Bytes → Bytes) : Prop :=
  ∀ text, (∀ byte ∈ text, IceChar byte ∨ byte = 0x3a) → opaqueString text = text

namespace IceAuth

variable {auth : IceAuth} {algorithms : Algorithms}

section

variable (valid : auth.Valid)

include valid

theorem Valid.mirrored : auth.mirrored.Valid where
  localUfrag := valid.remoteUfrag
  localPassword := valid.remotePassword
  remoteUfrag := valid.localUfrag
  remotePassword := valid.localPassword

theorem Valid.username_eq :
    auth.requestAuth.username = auth.remoteUfrag ++ [0x3a] ++ auth.localUfrag :=
  if_neg (not_or.mpr ⟨valid.localUfrag.1, valid.remoteUfrag.1⟩)

theorem Valid.shortTerm (hkeeps : KeepsIceText algorithms.opaqueString) :
    auth.requestAuth.ShortTerm algorithms := by
  have husername := valid.username_eq
  have hne : auth.requestAuth.username ≠ [] := by
    rw [husername]
    simp
  have hkept : algorithms.opaqueString auth.requestAuth.username = auth.requestAuth.username := by
    apply hkeeps
    intro byte hbyte
    rw [husername] at hbyte
    rcases List.mem_append.mp hbyte with hfront | hlocal
    · rcases List.mem_append.mp hfront with hremote | hcolon
      · exact .inl (valid.remoteUfrag.2 byte hremote)
      · exact .inr (List.mem_singleton.mp hcolon)
    · exact .inl (valid.localUfrag.2 byte hlocal)
  exact ⟨hne, hkept.symm ▸ hne, valid.remotePassword.1, rfl, rfl⟩

theorem Valid.length_username : auth.requestAuth.username.length =
      auth.localUfrag.length + auth.remoteUfrag.length + 1 := by
  rw [valid.username_eq]
  simp only [List.length_append, List.length_singleton]
  omega

end

/-- The number of bytes behind the header of a message, in which the address
takes the given number. -/
def messageSize (auth : IceAuth) (ice : Option IceConfig) (address : Nat) (requested : Bool) : Nat
  := attrSerializedSize (auth.localUfrag.length + auth.remoteUfrag.length + 1) +
  (((iceAttributes ice).map Attribute.serializeLen).sum + address) + 24 +
  (if requested then 8 else 0)

theorem Valid.size_requestBody (valid : auth.Valid) (ice : Option IceConfig) (requested : Bool) :
    (requestBody auth.requestAuth.username ice).size requested =
      auth.messageSize ice 0 requested := by
  rw [Body.size, requestBody, valid.length_username, messageSize]
  rfl

theorem Valid.size_responseBody (valid : auth.Valid) (ice : Option IceConfig) (txID : FixedBytes 12)
    {ip : Bytes} (port : Int) (hip : IsIP ip) (requested : Bool) :
    (responseBody auth.mirrored.requestAuth.username ice txID port hip).size
      requested = auth.messageSize ice (4 + addressLength ip) requested := by
  have hlength : auth.mirrored.requestAuth.username.length =
      auth.localUfrag.length + auth.remoteUfrag.length + 1 := by
    rw [valid.mirrored.length_username]
    exact congrArg (· + 1) (Nat.add_comm _ _)
  rw [Body.size, Stun.size_responseBody]
  change attrSerializedSize auth.mirrored.requestAuth.username.length + _ + _ +
    _ = _
  rw [hlength, messageSize]

/-- The exchange returns the address that the request came from if both
messages fit their length fields. -/
theorem exchange_completes_iff (valid : auth.Valid) (hkeeps : KeepsIceText algorithms.opaqueString)
    {ice other : Option IceConfig} {requested : Bool} {txID : FixedBytes 12} {remoteAddr : Addr}
    {ip : Bytes} {port : Int} (haddr : remoteAddr = .udp ip port ∨ remoteAddr = .tcp ip port)
    (hip : IsIP ip) (hport : 0 ≤ port ∧ port < 65536) :
    (∃ result, Completes algorithms ((newICEBindingAgentConfig auth ice).requiring requested)
      ((newICEBindingAgentConfig auth.mirrored other).requiring requested) txID remoteAddr result ∧
      Network.to16 result.ip = Network.to16 ip ∧ result.port = port) ↔
    auth.messageSize ice 0 requested ≤ 65535 ∧
      auth.messageSize other (4 + addressLength ip) requested ≤ 65535 := by
  have hparse : remoteAddr.parse = some (ip, port) := by
    rcases haddr with rfl | rfl <;> rfl
  have hexpected := auth.expectedAuth_mirrored
  have hreturn := auth.mirrored.expectedAuth_mirrored
  rw [mirrored_mirrored] at hreturn
  have hout := valid.shortTerm hkeeps
  have hback := valid.mirrored.shortTerm hkeeps
  simp only [newICEBindingAgentConfig, BindingAgentConfig.requiring, hexpected, hreturn]
  rw [← valid.size_requestBody, ← valid.size_responseBody other txID port hip]
  constructor
  · rintro ⟨result, completes, -⟩
    refine fits_of_completes hip (hkeeps [] nofun) hparse hout hback ?_ completes
    rw [valid.mirrored.length_username, valid.length_username]
    exact congrArg (· + 1) (Nat.add_comm _ _)
  · rintro ⟨hrequest, hresponse⟩
    have hlength (body : Body) (hsize : body.size requested ≤ 65535) :
        body.username.length < 65536 := by
      rw [Body.size, attrSerializedSize] at hsize
      omega
    refine ⟨_, completes_of_fits hip hparse hport hout hback (hlength _ hrequest)
      (hlength _ hresponse) hrequest hresponse, to16_plainIP hip, Int.toNat_of_nonneg hport.1⟩

theorem Valid.not_completes_of_long (valid : auth.Valid) (hkeeps : KeepsIceText
    algorithms.opaqueString) (hlong : 65536 ≤ auth.localUfrag.length) (ice : Option IceConfig)
    (txID : FixedBytes 12) :
    buildBindingRequest algorithms (some (newICEBindingAgentConfig auth ice).requestOptions) txID =
      .error (.fault .sliceBounds) ∧
    ∀ responder remoteAddr result, ¬ Completes algorithms
      (newICEBindingAgentConfig auth ice) responder txID remoteAddr result := by
  have hlength := valid.length_username
  have hbuild : buildBindingRequest algorithms (some (newICEBindingAgentConfig auth
    ice).requestOptions) txID = .error (.fault .sliceBounds) := buildBindingRequest_of_long
    (valid.shortTerm hkeeps).buildAuthAttributes (by omega)
  refine ⟨hbuild, ?_⟩
  rintro responder remoteAddr result ⟨request, -, -, -, hrequest, -⟩
  cases hbuild.symm.trans hrequest

end IceAuth

def longAuth : IceAuth where
  localUfrag := List.replicate 65536 0x61
  localPassword := [0x70]
  remoteUfrag := [0x62]
  remotePassword := [0x71]

theorem valid_longAuth : longAuth.Valid := by
  refine ⟨⟨List.ne_nil_of_length_pos ?_, ?_⟩, by decide, by decide, by decide⟩
  · rw [longAuth, List.length_replicate]
    decide
  · intro byte hbyte
    rw [List.eq_of_mem_replicate hbyte]
    decide

theorem exists_not_completes : longAuth.Valid ∧ buildBindingRequest sampleAlgorithms
      (some (newICEBindingAgentConfig longAuth none).requestOptions) sampleTxID = .error
      (.fault .sliceBounds) ∧ ∀ result, ¬ Completes sampleAlgorithms
      (newICEBindingAgentConfig longAuth none) (newICEBindingAgentConfig longAuth.mirrored none)
      sampleTxID (.udp [10, 0, 0, 2] 5000) result := by
  have hlong : 65536 ≤ longAuth.localUfrag.length := by
    rw [longAuth, List.length_replicate]
  obtain ⟨hbuild, hfails⟩ := valid_longAuth.not_completes_of_long (fun _ _ => rfl : KeepsIceText
    sampleAlgorithms.opaqueString) hlong none sampleTxID
  exact ⟨valid_longAuth, hbuild, hfails _ _⟩

def sampleAuth : IceAuth where
  localUfrag := [0x61]
  localPassword := [0x70, 0x77]
  remoteUfrag := [0x62]
  remotePassword := [0x70, 0x77]

theorem valid_sampleAuth : sampleAuth.Valid := ⟨by decide, by decide, by decide, by decide⟩

theorem exchange_completes_iff_sampleAuth : ∃ result, Completes sampleAlgorithms
  ((newICEBindingAgentConfig sampleAuth (some ⟨7, true, 9, 0⟩)).requiring true)
  ((newICEBindingAgentConfig sampleAuth.mirrored (some ⟨7, false, 0, 9⟩)).requiring true) sampleTxID
  (.udp [10, 0, 0, 2] 5000) result ∧ Network.to16 result.ip = Network.to16 [10, 0, 0, 2] ∧
  result.port = (5000 : Int) := (IceAuth.exchange_completes_iff valid_sampleAuth (fun _ _ => rfl)
  (.inl rfl) (.inl rfl) (by decide)).mpr (by decide)

end Pig.Stun
