import Pig.Stun.Completion

namespace Pig.Stun

open Go

/-! Nominations on the wire: which of the messages that an agent writes are read
as binding requests with USE-CANDIDATE. -/

def Message.isRequest (msg : Message) : Bool :=
  validateMethodAndClass msg.header.type methodBinding [classRequest] = .ok ()

def Message.nominates (msg : Message) : Bool :=
  msg.isRequest && (msg.findAttribute .iceUseCandidate).isSome

def Harmless (bytes : Bytes) : Prop :=
  ∀ data msg, Slice.contents data = bytes → decodeMessage data = .ok msg → msg.nominates = false

theorem isIP_of_to4 {ip : Bytes} (h : Network.to4 ip ≠ []) : IsIP ip := by
  rw [Network.to4] at h
  split at h
  · next hfour => exact .inl hfour
  · split at h
    · next hsixteen => exact .inr hsixteen.1
    · exact absurd rfl h

theorem isIP_of_to16 {ip : Bytes} (h : Network.to16 ip ≠ []) : IsIP ip := by
  rw [Network.to16] at h
  split at h
  · next hfour => exact .inl hfour
  · split at h
    · next hsixteen => exact .inr hsixteen
    · exact absurd rfl h

theorem exists_parse_of_create {addr : Addr} {txID : FixedBytes 12}
    {value : Bytes} (h : createXorMappedAddress addr txID = .ok value) :
    ∃ ip port, addr.parse = some (ip, port) ∧ IsIP ip := by
  rw [createXorMappedAddress] at h
  split at h
  · cases h
  · next ip port hparse =>
      refine ⟨ip, port, hparse, ?_⟩
      split at h
      · cases h
      · simp only at h
        split at h
        · next hto4 => exact isIP_of_to4 hto4
        · split at h
          · next hto16 => exact isIP_of_to16 hto16
          · cases h

structure AuthConfig.Short (auth : AuthConfig) : Prop where
  username_ne : auth.username ≠ []
  length_username : auth.username.length ≤ 65000
  password_ne : auth.password ≠ []
  realm_eq : auth.realm = []
  nonce_eq : auth.nonce = []

theorem AuthConfig.Short.buildAuthAttributes {auth : AuthConfig}
    (short : auth.Short) (ice : Option IceConfig) (requested : Bool) :
    BindingOptions.buildAuthAttributes ⟨some auth, ice, requested⟩ = [.username auth.username] :=
  buildAuthAttributes_eq short.username_ne short.realm_eq short.nonce_eq

section

variable {algorithms : Algorithms} {auth : AuthConfig} {ice : IceConfig} {requested : Bool}
  {txID : FixedBytes 12} {msg sent : Message} {bytes : Bytes}

theorem kind_of_mem_iceAttributes (h : ice.useCandidate = false)
    {attr : Attribute} (hattr : attr ∈ iceAttributes (some ice)) :
    attr.kind ≠ .iceUseCandidate := by
  rw [iceAttributes, BindingOptions.buildIceAttributes] at hattr
  simp only [h, Bool.false_eq_true, if_false, List.nil_append, List.mem_append] at hattr
  rcases hattr with (hattr | hattr) | hattr <;> split at hattr <;> first
      | (cases List.mem_singleton.mp hattr; simp [Attribute.kind])
      | cases hattr

theorem kind_of_mem_signed (h : ice.useCandidate = false) {username : Bytes}
    {digest : FixedBytes 20} {value : UInt32} {attr : Attribute}
    (hattr : attr ∈ (requestBody username (some ice)).signed requested digest
      value) : attr.kind ≠ .iceUseCandidate := by
  rw [Body.signed, List.mem_append, List.mem_append] at hattr
  rcases hattr with (hbody | hdigest) | hend
  · rcases List.mem_cons.mp hbody with rfl | hrest
    · simp [Attribute.kind]
    · exact kind_of_mem_iceAttributes h hrest
  · cases List.mem_singleton.mp hdigest
    simp [Attribute.kind]
  · split at hend
    · cases List.mem_singleton.mp hend
      simp [Attribute.kind]
    · cases hend

theorem harmless_of_request (short : auth.Short) (hcandidate : ice.useCandidate = false)
    (hbuild : buildBindingRequest algorithms (some ⟨some auth, some ice, requested⟩) txID = .ok msg)
    (hwrite : msg.writeTo algorithms.crc32 = .ok (sent, bytes)) :
    Harmless bytes := by
  let body := requestBody auth.username (some ice)
  have hlength : body.username.length < 65536 :=
    Nat.lt_of_le_of_lt short.length_username (by decide)
  have hsize : body.size requested ≤ 65535 := by
    have hrest := body.size_le (Nat.le_trans (size_iceAttributes (some ice)) (by decide)) requested
    exact Nat.le_trans hrest (Nat.add_le_add_right short.length_username 99
      |>.trans (by decide))
  obtain ⟨plain, signed, digest, hnew, hadd, hsigned⟩ := @Body.exists_signed body algorithms
    msgTypeBindingRequest txID auth.password hlength short.password_ne
  cases hbuild.symm.trans (buildBindingRequest_eq (short.buildAuthAttributes (some ice) requested)
    short.password_ne hnew hadd)
  obtain ⟨_, _, -, hwritten, hdecode⟩ := hsigned.delivers hlength hsize
  cases hwrite.symm.trans hwritten
  intro data received hdata hreceived
  cases (hdecode data hdata).symm.trans hreceived
  rw [Message.nominates, Bool.and_eq_false_iff]
  refine .inr ((Bool.not_eq_true _).mp fun hfound => ?_)
  obtain ⟨attr, hattr, hkind⟩ := findAttribute_isSome_iff.mp hfound
  exact kind_of_mem_signed hcandidate hattr hkind

theorem harmless_of_response {remoteAddr : Addr} {ice : Option IceConfig} (short : auth.Short)
    (hbuild : bindingResponse algorithms remoteAddr txID (some ⟨some auth, ice, requested⟩) = .ok
    msg) (hwrite : msg.writeTo algorithms.crc32 = .ok (sent, bytes)) :
    Harmless bytes := by
  have hattribute := hbuild
  rw [bindingResponse, bind_eq_ok] at hattribute
  obtain ⟨attr, hattr, -⟩ := hattribute
  rw [newXorMappedAddressAttr, bind_eq_ok] at hattr
  obtain ⟨value, hvalue, -⟩ := hattr
  obtain ⟨ip, port, hparse, hip⟩ := exists_parse_of_create hvalue
  let body := responseBody auth.username ice txID port hip
  have hlength : body.username.length < 65536 :=
    Nat.lt_of_le_of_lt short.length_username (by decide)
  obtain ⟨plain, signed, digest, hnew, hadd, hsigned⟩ := @Body.exists_signed body algorithms
    msgTypeBindingResponse txID auth.password hlength short.password_ne
  cases hbuild.symm.trans (bindingResponse_eq hparse hip
    (short.buildAuthAttributes ice requested) short.password_ne hnew hadd)
  obtain ⟨_, -, hwritten⟩ := hsigned.writes hlength requested
  cases hwrite.symm.trans hwritten
  intro data received hdata hreceived
  obtain ⟨-, hheader, -, -⟩ := decodeMessage_eq_ok hreceived
  rw [headerAt_of_contents hdata] at hheader
  have hclass : decide (validateMethodAndClass msgTypeBindingResponse
      methodBinding [classRequest] = .ok ()) = false := by
    decide
  rw [Message.nominates, Message.isRequest, hheader]
  exact Bool.and_eq_false_iff.mpr (.inl hclass)

end

end Pig.Stun
