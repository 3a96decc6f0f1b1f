import Pig.Stun.RoundTrip
import Pig.Stun.Signing

namespace Pig.Stun

open Go

/-! Binding exchanges with the credentials of ICE: each agent has a user
fragment and a password, and knows those of its peer. -/

structure IceAuth where
  localUfrag : Bytes
  localPassword : Bytes
  remoteUfrag : Bytes
  remotePassword : Bytes
  deriving DecidableEq, Repr

namespace IceAuth

def outgoingUsername (auth : IceAuth) : Bytes :=
  if auth.localUfrag = [] ∨ auth.remoteUfrag = [] then []
  else auth.remoteUfrag ++ [0x3a] ++ auth.localUfrag

def expectedIncomingUsername (auth : IceAuth) : Bytes :=
  if auth.localUfrag = [] ∨ auth.remoteUfrag = [] then []
  else auth.localUfrag ++ [0x3a] ++ auth.remoteUfrag

def outgoingRequestPassword (auth : IceAuth) : Bytes := auth.remotePassword

def incomingRequestPassword (auth : IceAuth) : Bytes := auth.localPassword

def requestAuth (auth : IceAuth) : AuthConfig where
  username := auth.outgoingUsername
  password := auth.outgoingRequestPassword
  realm := []
  nonce := []

def expectedAuth (auth : IceAuth) : AuthConfig where
  username := auth.expectedIncomingUsername
  password := auth.incomingRequestPassword
  realm := []
  nonce := []

def mirrored (auth : IceAuth) : IceAuth where
  localUfrag := auth.remoteUfrag
  localPassword := auth.remotePassword
  remoteUfrag := auth.localUfrag
  remotePassword := auth.localPassword

@[simp] theorem mirrored_mirrored (auth : IceAuth) : auth.mirrored.mirrored = auth := rfl

theorem expectedAuth_mirrored (auth : IceAuth) : auth.mirrored.expectedAuth = auth.requestAuth := by
  simp only [expectedAuth, requestAuth, expectedIncomingUsername, outgoingUsername,
    incomingRequestPassword, outgoingRequestPassword, mirrored, or_comm]

end IceAuth

structure BindingAgentConfig where
  requestOptions : BindingOptions
  handleOptions : BindingOptions
  deriving DecidableEq, Repr

def newICEBindingAgentConfig (iceAuth : IceAuth)
    (attributes : Option IceConfig) : BindingAgentConfig where
  requestOptions := {
    auth := some iceAuth.requestAuth
    ice := attributes
    requireFingerprint := true }
  handleOptions := {
    auth := some iceAuth.expectedAuth
    ice := attributes
    requireFingerprint := true }

def BindingAgentConfig.requiring (config : BindingAgentConfig)
    (requireFingerprint : Bool) : BindingAgentConfig where
  requestOptions := { config.requestOptions with requireFingerprint }
  handleOptions := { config.handleOptions with requireFingerprint }

def msgTypeBindingRequest : UInt16 := 0x0001

section

variable (algorithms : Algorithms)

/-- The request for a transaction ID, which the code draws at random. -/
def buildBindingRequest (opts : Option BindingOptions) (txID : FixedBytes 12) :
    Binding Message := do
  let attrs :=
    match opts with
    | none => []
    | some opts => opts.buildAuthAttributes ++ opts.buildIceAttributes
  let request ← (newMessageWithTransactionID msgTypeBindingRequest attrs txID).mapError
      bindingResponse.buildFailure
  match opts with
  | none => return request
  | some opts =>
    let request ←
      match opts.auth with
      | some auth =>
        if auth.password ≠ [] then
          (request.addMessageIntegrity algorithms auth.password).mapError
            bindingResponse.integrityFailure
        else pure request
      | none => pure request
    return if opts.requireFingerprint then request.withFingerprint
      else request

/-- Both ways of writing the message give the same bytes, and they are decoded
to the other message wherever they stand. -/
def Delivers (crc32 : Bytes → UInt32) (msg received : Message) : Prop :=
  ∃ sent bytes, msg.serializeTo crc32 = .ok (sent, bytes) ∧ msg.writeTo crc32 = .ok (sent, bytes) ∧
    ∀ data : Slice, data.contents = bytes → decodeMessage data = .ok received

def Completes (initiator responder : BindingAgentConfig)
    (txID : FixedBytes 12) (remoteAddr : Addr) (result : BindingResult) :
    Prop :=
  ∃ request received response answer, buildBindingRequest algorithms (some initiator.requestOptions)
    txID = .ok request ∧ Delivers algorithms.crc32 request received ∧ processBindingRequest
    algorithms received remoteAddr (some responder.handleOptions) (some responder.requestOptions) =
    .ok response ∧ Delivers algorithms.crc32 response answer ∧ processBindingResponse algorithms
    answer txID (some initiator.handleOptions) = .ok result

end

theorem xorBytes_xorBytes {bytes mask : Bytes} (hlength : bytes.length ≤ mask.length) :
    xorBytes (xorBytes bytes mask) mask = bytes := by
  induction bytes generalizing mask with
  | nil => rfl
  | cons byte bytes ih =>
    cases mask with
    | nil => simp at hlength
    | cons first mask =>
      have hrest : bytes.length ≤ mask.length := by simpa using hlength
      have hfirst : (byte ^^^ first) ^^^ first = byte := by
        rw [UInt8.xor_assoc, UInt8.xor_self, UInt8.xor_zero]
      change ((byte ^^^ first) ^^^ first) :: xorBytes (xorBytes bytes mask) mask = _
      rw [hfirst, ih hrest]

def plainIP (ip : Bytes) : Bytes :=
  if Network.to4 ip ≠ [] then Network.to4 ip else Network.to16 ip

def IsIP (ip : Bytes) : Prop := ip.length = 4 ∨ ip.length = 16

theorem to16_plainIP {ip : Bytes} (hip : IsIP ip) :
    Network.to16 (plainIP ip) = Network.to16 ip := by
  rw [plainIP]
  rcases hip with hfour | hsixteen
  · rw [Network.to4_of_length hfour, if_pos (by rintro rfl; cases hfour)]
  · by_cases hmapped : ip.take 12 = Network.v4InV6
    · have hto4 : Network.to4 ip = ip.drop 12 := by
        rw [Network.to4, if_neg (by omega), if_pos ⟨hsixteen, hmapped⟩]
      have hlength : (ip.drop 12).length = 4 := by
        rw [List.length_drop]
        omega
      rw [hto4, if_pos (by rintro hnil; rw [hnil] at hlength; cases hlength), Network.to16, if_pos
        hlength, Network.to16, if_neg (by omega), if_pos hsixteen, ← hmapped, List.take_append_drop]
    · have hto16 := Network.to16_of_length hsixteen
      rw [Network.to4_of_not_mapped hsixteen hmapped, if_neg (not_not.mpr rfl), hto16, hto16]

theorem length_to16 {ip : Bytes} (hip : IsIP ip) : (Network.to16 ip).length = 16 := by
  rw [Network.to16]
  split
  · rename_i hfour
    rw [List.length_append, hfour]
    rfl
  · exact (if_pos (hip.resolve_left ‹_›)).symm ▸ hip.resolve_left ‹_›

def addressValue (txID : FixedBytes 12) (ip : Bytes) (port : Int) : Bytes :=
  (if Network.to4 ip ≠ [] then [0, 0x01] else [0, 0x02]) ++ Bytes.ofNatBE 2
  (UInt16.ofInt port ^^^ 0x2112).toNat ++ xorBytes (plainIP ip) (magicCookieBytes ++ txID.bytes)

def addressLength (ip : Bytes) : Nat :=
  if Network.to4 ip ≠ [] then 8 else 20

section

variable {ip : Bytes} {port : Int} {txID : FixedBytes 12}

theorem length_mask (txID : FixedBytes 12) : (magicCookieBytes ++ txID.bytes).length = 16 := by
  rw [List.length_append, txID.length_eq]
  rfl

theorem length_plainIP (hip : IsIP ip) :
    (plainIP ip).length = if Network.to4 ip ≠ [] then 4 else 16 := by
  rw [plainIP]
  split
  · exact Network.length_to4 ‹_›
  · exact length_to16 hip

theorem length_addressValue (hip : IsIP ip) :
    (addressValue txID ip port).length = addressLength ip := by
  have hplain := length_plainIP hip
  rw [addressValue, addressLength, List.length_append, List.length_append,
    length_xorBytes, length_mask, hplain, Bytes.length_ofNatBE]
  split <;> rfl

theorem createXorMappedAddress_eq {addr : Addr}
    (hparse : addr.parse = some (ip, port)) (hip : IsIP ip) :
    createXorMappedAddress addr txID = .ok ([0x00, 0x20, 0, UInt8.ofNat (addressLength ip)] ++
        addressValue txID ip port) := by
  have hnonempty : ip ≠ [] := by
    rintro rfl
    rcases hip with hfour | hsixteen
    · cases hfour
    · cases hsixteen
  have hto16 : Network.to16 ip ≠ [] := by
    apply List.ne_nil_of_length_pos
    rw [length_to16 hip]
    decide
  rw [createXorMappedAddress, hparse]
  simp only [if_neg hnonempty, addressValue, addressLength, plainIP]
  by_cases hto4 : Network.to4 ip = []
  · rw [if_neg (not_not.mpr hto4), if_pos hto16]
    simp [hto4]
  · simp [hto4]

theorem withinLimits_addressValue (hip : IsIP ip) :
    (Attribute.xorMappedAddress (addressValue txID ip port)).WithinLimits := by
  rw [Attribute.WithinLimits, length_addressValue hip, addressLength]
  split
  · exact .inl rfl
  · exact .inr rfl

theorem decodeFromBytes_toTlv {attr : Attribute} (hlimits : attr.WithinLimits)
    (hsize : attr.toTlv.bytes.length ≤ 65535) :
    decodeFromBytes attr.kind (.ofBytes attr.toTlv.bytes) = .ok attr := by
  have hdata : (Slice.ofBytes attr.toTlv.bytes).contents = attr.toTlv.bytes ++ [] := by
    rw [Slice.contents_ofBytes, List.append_nil]
  have hvalue := Attribute.value_toTlv hlimits.length_lt
  have hlength := lengthAt_of_contents hdata
  have hlong := attr.toTlv.length_bytes
  rw [attrSerializedSize] at hlong
  rw [decodeFromBytes_of_accepts]
  · rw [hlength, Slice.cap_ofBytes, if_pos (by omega),
      valueAt_of_contents hdata, hvalue, hlimits.ofValue_value]
  · rw [Slice.len_ofBytes]
    omega
  · exact hsize
  · exact codeAt_of_contents hdata
  · rw [hlength, Slice.len_ofBytes]
    exact Kind.accepts_of_lengths (by rw [hvalue]; exact hlimits.lengths) (by omega)

theorem addressLength_cases (ip : Bytes) : addressLength ip = 8 ∨ addressLength ip = 20 := by
  rw [addressLength]
  split
  · exact .inl rfl
  · exact .inr rfl

theorem bytes_addressValue (hip : IsIP ip) :
    (Attribute.xorMappedAddress (addressValue txID ip port)).toTlv.bytes =
      [0x00, 0x20, 0, UInt8.ofNat (addressLength ip)] ++ addressValue txID ip port := by
  let tlv := (Attribute.xorMappedAddress (addressValue txID ip port)).toTlv
  have hvalue : tlv.value = addressValue txID ip port :=
    Attribute.value_toTlv (withinLimits_addressValue hip).length_lt
  have hlength : tlv.value.length = addressLength ip := by
    rw [hvalue, length_addressValue hip]
  have hpadding : tlv.padding = [] := by
    apply List.eq_nil_of_length_eq_zero
    rw [tlv.length_padding, hlength]
    rcases addressLength_cases ip with hsize | hsize <;> rw [hsize] <;> rfl
  have hcode : tlv.code = 0x20 := rfl
  rw [Tlv.bytes, hpadding, List.append_nil, hlength, hvalue, hcode]
  rcases addressLength_cases ip with hsize | hsize <;> rw [hsize] <;> rfl

theorem newXorMappedAddressAttr_eq {addr : Addr}
    (hparse : addr.parse = some (ip, port)) (hip : IsIP ip) :
    newXorMappedAddressAttr addr txID = .ok (.xorMappedAddress (addressValue txID ip port)) := by
  have hbytes := @bytes_addressValue ip port txID hip
  have hdecode : decodeFromBytes .xorMappedAddress (.ofBytes
      (Attribute.xorMappedAddress (addressValue txID ip port)).toTlv.bytes) =
        .ok (.xorMappedAddress (addressValue txID ip port)) := by
    apply decodeFromBytes_toTlv (withinLimits_addressValue hip)
    have hcases := addressLength_cases ip
    rw [hbytes, List.length_append, length_addressValue hip]
    simp only [List.length_cons, List.length_nil]
    omega
  rw [newXorMappedAddressAttr, createXorMappedAddress_eq hparse hip, ok_bind, ← hbytes, hdecode]
  rfl

theorem xorPort (hport : 0 ≤ port ∧ port < 65536) :
    (Bytes.ofNatBE 2 (UInt16.ofInt port ^^^ 0x2112).toNat).toNatBE ^^^ 0x2112 = port.toNat := by
  have hlt : (UInt16.ofInt port ^^^ 0x2112).toNat < 256 ^ 2 := UInt16.toNat_lt _
  have hmask : (0x2112 : UInt16).toNat = 0x2112 := rfl
  have hnumber : (UInt16.ofInt port).toNat = port.toNat := by
    simp only [UInt16.ofInt, UInt16.toNat_ofNat']
    omega
  rw [Bytes.toNatBE_ofNatBE, Nat.mod_eq_of_lt hlt, UInt16.toNat_xor, hmask,
    Nat.xor_assoc, Nat.xor_self, Nat.xor_zero, hnumber]

theorem decodeXorMappedAddress_addressValue (hip : IsIP ip) (hport : 0 ≤ port ∧ port < 65536) :
    decodeXorMappedAddress (addressValue txID ip port) txID = .ok (plainIP ip, port.toNat) := by
  have hlength := @length_addressValue ip port txID hip
  have hplain := length_plainIP hip
  have hmask := length_mask txID
  have hwindow : (addressValue txID ip port).window 2 2 =
      Bytes.ofNatBE 2 (UInt16.ofInt port ^^^ 0x2112).toNat := by
    apply Bytes.window_middle
    · split <;> rfl
    · exact Bytes.length_ofNatBE _ _
  have hdrop : (addressValue txID ip port).drop 4 =
      xorBytes (plainIP ip) (magicCookieBytes ++ txID.bytes) := by
    apply List.drop_left'
    split <;> rfl
  rw [decodeXorMappedAddress, hwindow, xorPort hport, hlength]
  simp only [Bytes.window, hdrop]
  by_cases hto4 : Network.to4 ip = []
  · have hsixteen : (plainIP ip).length = 16 := by simpa [hto4] using hplain
    have hsize : addressLength ip = 20 := by simp [addressLength, hto4]
    have hfamily : (addressValue txID ip port).getD 1 0 = 0x02 := by
      simp [addressValue, hto4]
    have htake : (xorBytes (plainIP ip) (magicCookieBytes ++ txID.bytes)).take
        16 = xorBytes (plainIP ip) (magicCookieBytes ++ txID.bytes) := by
      apply List.take_of_length_le
      rw [length_xorBytes]
      omega
    rw [hsize, hfamily, htake, xorBytes_xorBytes (by omega)]
    rfl
  · have hfour : (plainIP ip).length = 4 := by simpa [hto4] using hplain
    have hsize : addressLength ip = 8 := by simp [addressLength, hto4]
    have hfamily : (addressValue txID ip port).getD 1 0 = 0x01 := by
      simp [addressValue, hto4]
    -- Only the cookie is used of the mask.
    have hcookie : xorBytes (plainIP ip) (magicCookieBytes ++ txID.bytes) =
        xorBytes (plainIP ip) magicCookieBytes := by
      have happend := @List.zipWith_append _ _ _ (· ^^^ ·) (plainIP ip) []
        magicCookieBytes txID.bytes hfour
      rwa [List.append_nil, List.zipWith_nil_left, List.append_nil] at happend
    have htake : (xorBytes (plainIP ip) magicCookieBytes).take 4 =
        xorBytes (plainIP ip) magicCookieBytes := by
      apply List.take_of_length_le
      rw [length_xorBytes]
      omega
    rw [hsize, hfamily, hcookie, htake, xorBytes_xorBytes (Nat.le_of_eq hfour)]
    rfl

end

end Pig.Stun
