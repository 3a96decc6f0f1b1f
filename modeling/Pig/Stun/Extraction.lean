import Pig.Stun.Discovery

namespace Pig.Stun

open Go

/-! Addresses read off a decoded message. The decoders of the three attributes
check the length of the value, and whoever reads the address looks at the
family. -/

/-- The loop `ip[i] = v[low+i] ^ mask[i]`. -/
def xorFrom (v : Slice) : (low : Nat) → (mask : Bytes) → Checked Bytes
  | _, [] => return []
  | low, key :: mask => do
      let byte ← v.get low
      let rest ← xorFrom v (low + 1) mask
      return (byte ^^^ key) :: rest

def readXorMappedAddress (value : Bytes) (txID : FixedBytes 12) : Binding (Bytes × Nat) :=
  if value.length < 8 then Binding.fail (.address .tooShort)
  else do
    let v := Slice.ofBytes value
    let family ← Binding.checked (v.get 1)
    let port ← Binding.checked (v.sub 2 4)
    let port := port.toNatBE ^^^ 0x2112
    match family with
    | 0x01 =>
      let ip ← Binding.checked (xorFrom v 4 magicCookieBytes)
      return (ip, port)
    | 0x02 =>
      if value.length < 20 then Binding.fail (.address .tooShortIPv6)
      else do
        let ip ← Binding.checked (xorFrom v 4 (magicCookieBytes ++ txID.bytes))
        return (ip, port)
    | family => Binding.fail (.address (.unsupportedFamily family))

inductive OtherAddressFailure where
  | fault (fault : Fault)
  | error (error : OtherAddressError)
  deriving DecidableEq, Repr

def readOtherAddress (value : Bytes) : Except OtherAddressFailure (Bytes × Nat) :=
  if value.length < 4 then .error (.error .tooShort)
  else do
    let v := Slice.ofBytes value
    let family ← (v.get 1).mapError .fault
    let port ← (v.sub 2 4).mapError .fault
    match family with
    | 0x01 =>
      if value.length < 8 then .error (.error .tooShortIPv4)
      else do
        let ip ← (v.sub 4 8).mapError .fault
        return (ip, port.toNatBE)
    | 0x02 =>
      if value.length < 20 then .error (.error .tooShortIPv6)
      else do
        let ip ← (v.sub 4 20).mapError .fault
        return (ip, port.toNatBE)
    | family => .error (.error (.unsupportedFamily family))

variable {value : Bytes}

theorem xorFrom_eq {mask : Bytes} {low : Nat} (hinside : low + mask.length ≤ value.length) :
    xorFrom (.ofBytes value) low mask = .ok (xorBytes (value.window low mask.length) mask) := by
  induction mask generalizing low with
  | nil => simp [xorFrom, xorBytes, pure, Except.pure]
  | cons key mask ih =>
    rw [List.length_cons] at hinside
    have hget : (Slice.ofBytes value).get low = .ok (value.getD low 0) :=
      Slice.get_ofBytes (by omega)
    have hlow : low < value.length := by omega
    have hwindow : value.window low (mask.length + 1) =
        value.getD low 0 :: value.window (low + 1) mask.length := by
      rw [Bytes.window, List.drop_eq_getElem_cons hlow, List.take_succ_cons,
        List.getD_eq_getElem?_getD, List.getElem?_eq_getElem hlow]
      rfl
    rw [xorFrom, hget, ok_bind, ih (by omega), ok_bind, List.length_cons, hwindow]
    rfl

theorem family_port_ofBytes (hlength : 4 ≤ value.length) :
    (Slice.ofBytes value).get 1 = .ok (value.getD 1 0) ∧
      (Slice.ofBytes value).sub 2 4 = .ok (value.window 2 2) :=
  ⟨Slice.get_ofBytes (by omega), Slice.sub_ofBytes (by decide) hlength⟩

theorem readXorMappedAddress_eq (value : Bytes) (txID : FixedBytes 12) :
    readXorMappedAddress value txID = (decodeXorMappedAddress value txID).mapError
        fun error => .error (.address error) := by
  have hcookie : magicCookieBytes.length = 4 := rfl
  have hmask : (magicCookieBytes ++ txID.bytes).length = 16 := by
    rw [List.length_append, hcookie, txID.length_eq]
  rw [readXorMappedAddress, decodeXorMappedAddress]
  by_cases hshort : value.length < 8
  · rw [if_pos hshort, if_pos hshort]
    rfl
  · obtain ⟨hfamily, hport⟩ := @family_port_ofBytes value (by omega)
    have hxor : xorFrom (.ofBytes value) 4 magicCookieBytes = .ok (xorBytes (value.window 4 4)
      magicCookieBytes) := xorFrom_eq (by omega)
    rw [if_neg hshort, if_neg hshort]
    simp only [hfamily, hport, Binding.checked, Except.mapError, ok_bind, hxor]
    generalize value.getD 1 0 = family
    split
    · rfl
    · by_cases hlong : value.length < 20
      · rw [if_pos hlong, if_pos hlong]
        rfl
      · have hxor6 : xorFrom (.ofBytes value) 4 (magicCookieBytes ++ txID.bytes) = .ok
            (xorBytes (value.window 4 16) (magicCookieBytes ++ txID.bytes)) := by
          rw [xorFrom_eq (by omega), hmask]
        rw [if_neg hlong, if_neg hlong, hxor6]
        rfl
    · simp only [Binding.fail]

theorem readOtherAddress_eq (value : Bytes) :
    readOtherAddress value = (decodeOtherAddress value).mapError .error := by
  rw [readOtherAddress, decodeOtherAddress]
  by_cases hshort : value.length < 4
  · rw [if_pos hshort, if_pos hshort]
    rfl
  · obtain ⟨hfamily, hport⟩ := @family_port_ofBytes value (by omega)
    rw [if_neg hshort, if_neg hshort]
    simp only [hfamily, hport, Except.mapError, ok_bind]
    generalize value.getD 1 0 = family
    split
    · by_cases hlong : value.length < 8
      · simp only [if_pos hlong]
      · have hip : (Slice.ofBytes value).sub 4 8 = .ok (value.window 4 4) :=
          Slice.sub_ofBytes (by decide) (by omega)
        rw [if_neg hlong, if_neg hlong, hip]
        rfl
    · by_cases hlong : value.length < 20
      · simp only [if_pos hlong]
      · have hip : (Slice.ofBytes value).sub 4 20 = .ok (value.window 4 16) :=
          Slice.sub_ofBytes (by decide) (by omega)
        rw [if_neg hlong, if_neg hlong, hip]
        rfl
    · simp only

theorem mem_decodeAttributes {data : Slice} {attrs : List Attribute} {attr : Attribute}
    (hmax : data.len ≤ 65535) (hdecode : decodeAttributes data = .ok attrs) (hattr : attr ∈ attrs) :
    ∃ kind value, attr = .ofValue kind value ∧ kind.layout.lengths value.length = true := by
  -- Induction on the data left, of which every attribute takes four bytes.
  induction hlen : data.len using Nat.strongRecOn generalizing data attrs with
  | ind len ih =>
    cases hfront : front data with
    | error failure =>
      cases (decodeAttributes_of_error hfront).symm.trans hdecode
    | ok found =>
      cases found with
      | finished =>
        cases (decodeAttributes_of_finished hfront).symm.trans hdecode
        cases hattr
      | skipped size =>
        obtain ⟨hleast, -, hsize⟩ := front_eq_skipped hfront
        rw [decodeAttributes_of_skipped hfront] at hdecode
        have hlen := len_advance data size
        exact ih _ (by omega) (by omega) hdecode hattr rfl
      | decoded first =>
        rw [decodeAttributes_of_decoded hfront, bind_eq_ok] at hdecode
        obtain ⟨rest, hrest, hattrs⟩ := hdecode
        cases hattrs
        obtain ⟨kind, hleast, hcap, -, hlengths, hfirst, -⟩ := front_eq_decoded hmax hfront
        rcases List.mem_cons.mp hattr with rfl | hattr
        · refine ⟨kind, valueAt data, hfirst, ?_⟩
          rw [valueAt, Bytes.length_window _ _ _ hcap]
          exact hlengths
        · have hlen := len_advance data first.serializeLen
          have hsize := four_le_serializeLen first
          exact ih _ (by omega) (by omega) hrest hattr rfl

def Attribute.addressValue : Attribute → Option Bytes
  | .mappedAddress value | .xorMappedAddress value | .otherAddress value =>
    some value
  | _ => none

theorem length_of_addressValue {data : Slice} {msg : Message} {attr : Attribute}
    (hdecode : decodeMessage data = .ok msg)
    (hattr : attr ∈ msg.attributes) (hvalue : attr.addressValue = some value) :
    value.length = 8 ∨ value.length = 20 := by
  obtain ⟨hlen, -, hattributes, -⟩ := decodeMessage_eq_ok hdecode
  have hmax : (areaAt data hlen).len ≤ 65535 := Nat.le_of_lt_succ (headerAt data).length.toNat_lt
  obtain ⟨kind, found, rfl, hlengths⟩ := mem_decodeAttributes hmax hattributes hattr
  cases kind with
  | mappedAddress | xorMappedAddress | otherAddress =>
    cases hvalue
    simpa [Kind.layout] using hlengths
  | _ => cases hvalue

def Binding.Returns {Value : Type} (value : Binding Value) : Prop :=
  ∀ fault, value ≠ .error (.fault fault)

namespace Binding

variable {Value Result : Type}

theorem returns_ok (value : Value) : Returns (.ok value) := by
  rintro fault hfault
  cases hfault

theorem returns_fail (error : BindingError) : Returns (fail error : Binding Value) := by
  rintro fault hfault
  cases hfault

theorem returns_mapError {Error : Type} (value : Except Error Value) (wrap : Error → BindingError) :
    Returns (value.mapError fun error => .error (wrap error)) := by
  rintro fault hfault
  cases value with
  | ok found | error error => cases hfault

theorem Returns.bind {value : Binding Value} {next : Value → Binding Result}
    (hvalue : value.Returns) (hnext : ∀ found, (next found).Returns) :
    Returns (value >>= next) := by
  rintro fault hfault
  cases value with
  | ok found => exact hnext found fault hfault
  | error failure =>
    cases hfault
    exact hvalue fault rfl

end Binding

section

variable {algorithms : Algorithms} {msg : Message}

theorem returns_validate (algorithms : Algorithms) (msg : Message) (opts : Option BindingOptions) :
    (msg.validate algorithms opts).Returns := by
  refine (Binding.returns_mapError _ _).bind fun _ => ?_
  cases opts with
  | none => exact Binding.returns_ok ()
  | some opts =>
    refine (Binding.returns_mapError _ _).bind fun _ => ?_
    split
    · exact Binding.returns_fail _
    · exact Binding.returns_ok ()

theorem returns_processBindingResponse (hmapped : msg.mappedAddrPort.Returns)
    (txID : FixedBytes 12) (opts : Option BindingOptions) :
    (processBindingResponse algorithms msg txID opts).Returns := by
  refine (returns_validate algorithms msg opts).bind fun _ => ?_
  split
  · exact Binding.returns_fail _
  refine Binding.Returns.bind ?_ fun _ => ?_
  · unfold validateMethodAndClass
    split
    · exact Binding.returns_fail _
    · split
      · exact Binding.returns_ok ()
      · exact Binding.returns_fail _
  split
  · refine Binding.Returns.bind ?_ fun _ => Binding.returns_fail _
    unfold Message.parseError
    split
    · exact Binding.returns_ok _
    · exact Binding.returns_fail _
  · split
    · refine hmapped.bind fun found => ?_
      dsimp only
      split
      · exact Binding.returns_fail _
      · exact Binding.returns_ok _
    · exact Binding.returns_fail _

end

theorem extracted_decodeOtherAddress {ip : Bytes} {port : Nat}
    (hdecode : decodeOtherAddress value = .ok (ip, port)) :
    Extracted id value ip := by
  rw [decodeOtherAddress] at hdecode
  split at hdecode
  · cases hdecode
  split at hdecode
  · next hfamily =>
      split at hdecode
      · cases hdecode
      · cases hdecode
        exact .v4 hfamily rfl (Bytes.length_window _ _ _ (by omega))
  · next hfamily =>
      split at hdecode
      · cases hdecode
      · cases hdecode
        exact .v6 hfamily rfl (Bytes.length_window _ _ _ (by omega))
  · cases hdecode

/-- A value of the length of an IPv4 address, for the family IPv6. -/
def Cut (value : Bytes) : Prop := value.length = 8 ∧ value.getD 1 0 = 0x02

instance (value : Bytes) : Decidable (Cut value) := inferInstanceAs (Decidable (_ ∧ _))

theorem decodeMappedAddress_eq (hlength : value.length = 8 ∨ value.length = 20) :
    decodeMappedAddress value =
      if Cut value then .error (.fault .sliceBounds)
      else (decodeOtherAddress value).mapError fun _ =>
        .error (.address (.unsupportedFamily (value.getD 1 0))) := by
  obtain ⟨hfamily, hport⟩ := @family_port_ofBytes value (by omega)
  have hip4 : (Slice.ofBytes value).sub 4 8 = .ok (value.window 4 4) :=
    Slice.sub_ofBytes (by decide) (by omega)
  have hlong : ¬ value.length < 4 := by omega
  simp only [decodeMappedAddress, decodeOtherAddress, if_neg hlong, Cut,
    hfamily, hport, hip4, Binding.checked, Except.mapError, ok_bind]
  generalize value.getD 1 0 = family
  split
  · rw [if_neg fun hcut => absurd hcut.2 (by decide), if_neg (by omega)]
    rfl
  · rcases hlength with hlength | hlength
    · have hip6 : (Slice.ofBytes value).sub 4 20 = .error .sliceBounds :=
        if_neg (by rw [Slice.cap_ofBytes]; omega)
      rw [if_pos ⟨hlength, rfl⟩, hip6]
      rfl
    · have hip6 : (Slice.ofBytes value).sub 4 20 = .ok (value.window 4 16) :=
        Slice.sub_ofBytes (by decide) (by omega)
      have hfull : ¬ value.length < 20 := by omega
      rw [if_neg (by omega), if_neg hfull, hip6]
      rfl
  · next hv4 hv6 =>
      rw [if_neg fun hcut => hv6 hcut.2]
      simp only [Binding.fail]

section

variable {data : Slice} {msg : Message}

namespace Message

def addressAttribute (msg : Message) : Option Attribute :=
  (msg.findAttribute .xorMappedAddress).or (msg.findAttribute .mappedAddress)

theorem mappedAddrPort_cases (msg : Message) : (∃ value, .xorMappedAddress value ∈ msg.attributes ∧
    msg.addressAttribute = some (.xorMappedAddress value) ∧ msg.mappedAddrPort =
    readXorMappedAddress value msg.header.transactionID) ∨ (∃ value, .mappedAddress value ∈
    msg.attributes ∧ msg.addressAttribute = some (.mappedAddress value) ∧ msg.mappedAddrPort =
    decodeMappedAddress value) ∨ msg.addressAttribute = none ∧ msg.mappedAddrPort = Binding.fail
    (.address .notFound) := by
  rw [addressAttribute, mappedAddrPort]
  cases hxor : msg.findAttribute .xorMappedAddress with
  | some attr =>
    obtain ⟨value, rfl⟩ := value_of_findAttribute hxor
    exact .inl ⟨value, List.mem_of_find?_eq_some hxor, rfl, (readXorMappedAddress_eq _ _).symm⟩
  | none =>
    cases hmapped : msg.findAttribute .mappedAddress with
    | some attr =>
      obtain ⟨value, rfl⟩ := value_of_findAttribute hmapped
      exact .inr (.inl ⟨value, List.mem_of_find?_eq_some hmapped, rfl, rfl⟩)
    | none => exact .inr (.inr ⟨rfl, rfl⟩)

end Message

inductive AddressOf (txID : FixedBytes 12) (ip : Bytes) : Attribute → Prop
  | xorMapped {value : Bytes} (extracted : Extracted (xorBytes · (addressMask txID)) value ip) :
      AddressOf txID ip (.xorMappedAddress value)
  | mapped {value : Bytes} (extracted : Extracted id value ip) :
      AddressOf txID ip (.mappedAddress value)
  | other {value : Bytes} (extracted : Extracted id value ip) :
      AddressOf txID ip (.otherAddress value)

def readOtherAddressFromMessage (msg : Message) : Except OtherAddressFailure (Bytes × Nat) :=
  match msg.findAttribute .otherAddress with
  | some (.otherAddress value) => readOtherAddress value
  | _ => .error (.error .missing)

theorem readOtherAddressFromMessage_eq (msg : Message) : readOtherAddressFromMessage msg =
      (getOtherAddressFromMessage (some msg)).mapError .error := by
  rw [readOtherAddressFromMessage, getOtherAddressFromMessage, Option.bind_some]
  cases hfound : msg.findAttribute .otherAddress with
  | none => rfl
  | some attr =>
    obtain ⟨value, rfl⟩ := value_of_findAttribute hfound
    exact readOtherAddress_eq value

/-- No address is read with a panic, and the addresses that are returned are
those of the attributes. -/
structure SafeExtraction (algorithms : Algorithms) (msg : Message) :
    Prop where
  mapped : msg.mappedAddrPort.Returns
  mapped_from : ∀ ip port, msg.mappedAddrPort = .ok (ip, port) →
    ∃ attr ∈ msg.addressAttribute, AddressOf msg.header.transactionID ip attr
  response : ∀ txID opts, (processBindingResponse algorithms msg txID opts).Returns
  response_from : ∀ txID opts result, processBindingResponse algorithms msg txID opts = .ok result →
    ∃ attr ∈ msg.addressAttribute, AddressOf msg.header.transactionID result.ip attr
  other : ∀ fault, readOtherAddressFromMessage msg ≠ .error (.fault fault)
  other_from : ∀ ip port, readOtherAddressFromMessage msg = .ok (ip, port) →
    ∃ attr ∈ msg.findAttribute .otherAddress, AddressOf msg.header.transactionID ip attr

theorem addressOf_mappedAddrPort (hdecode : decodeMessage data = .ok msg)
    {ip : Bytes} {port : Nat} (hmapped : msg.mappedAddrPort = .ok (ip, port)) :
    ∃ attr ∈ msg.addressAttribute, AddressOf msg.header.transactionID ip attr := by
  rcases msg.mappedAddrPort_cases with ⟨value, -, hattr, hread⟩ |
    ⟨value, hmem, hattr, hread⟩ | ⟨-, hread⟩
  · rw [hread, readXorMappedAddress_eq, mapError_ok_iff] at hmapped
    exact ⟨_, hattr, .xorMapped (extracted_decodeXorMappedAddress hmapped)⟩
  · rw [hread, decodeMappedAddress_eq (length_of_addressValue hdecode hmem rfl)] at hmapped
    split at hmapped
    · cases hmapped
    · rw [mapError_ok_iff] at hmapped
      exact ⟨_, hattr, .mapped (extracted_decodeOtherAddress hmapped)⟩
  · cases hread.symm.trans hmapped

theorem returns_mappedAddrPort_iff (hdecode : decodeMessage data = .ok msg) :
    msg.mappedAddrPort.Returns ↔ ∀ value, msg.addressAttribute = some (.mappedAddress value) →
        ¬ Cut value := by
  rcases msg.mappedAddrPort_cases with ⟨value, -, hattr, hread⟩ |
    ⟨value, hmem, hattr, hread⟩ | ⟨hattr, hread⟩
  · rw [hread, readXorMappedAddress_eq, hattr]
    refine iff_of_true (Binding.returns_mapError _ _) fun value hvalue => ?_
    cases hvalue
  · rw [hread, decodeMappedAddress_eq (length_of_addressValue hdecode hmem rfl), hattr]
    constructor
    · rintro hreturns other hother hcut
      cases hother
      rw [if_pos hcut] at hreturns
      exact hreturns _ rfl
    · intro hwhole
      rw [if_neg (hwhole value rfl)]
      exact Binding.returns_mapError _ _
  · rw [hread, hattr]
    refine iff_of_true (Binding.returns_fail _) fun value hvalue => ?_
    cases hvalue

/-- Of a message that is decoded, the addresses are extracted safely exactly if
the MAPPED-ADDRESS that is read is not cut. -/
theorem safeExtraction_iff (algorithms : Algorithms) (hdecode : decodeMessage data = .ok msg) :
    SafeExtraction algorithms msg ↔ ∀ value, msg.addressAttribute = some (.mappedAddress value) →
        ¬ Cut value := by
  rw [← returns_mappedAddrPort_iff hdecode]
  refine ⟨fun safe => safe.mapped, fun hreturns => ?_⟩
  exact {
    mapped := hreturns
    mapped_from := fun _ _ => addressOf_mappedAddrPort hdecode
    response := returns_processBindingResponse hreturns
    response_from := fun _ _ _ hresult =>
      addressOf_mappedAddrPort hdecode (processBindingResponse_eq_ok.mp hresult).2.2.2.2.2.1
    other := by
      rw [readOtherAddressFromMessage_eq]
      rintro fault hfault
      cases hother : getOtherAddressFromMessage (some msg) with
      | ok found | error error =>
        rw [hother] at hfault
        cases hfault
    other_from := by
      rintro ip port hother
      rw [readOtherAddressFromMessage] at hother
      split at hother
      · next value hfound =>
          rw [readOtherAddress_eq, mapError_ok_iff] at hother
          exact ⟨_, hfound, .other (extracted_decodeOtherAddress hother)⟩
      · cases hother }

end

def mappedResponse (family : UInt8) : Bytes := [0x01, 0x01, 0, 12, 0x21, 0x12, 0xa4, 0x42] ++
  List.replicate 12 0 ++ [0, 1, 0, 8, 0, family, 0, 80, 10, 0, 0, 1]

def mappedMessage (family : UInt8) : Message where
  header := ⟨0x0101, 12, magicCookie, .copyOf 12 []⟩
  attributes := [.mappedAddress [0, family, 0, 80, 10, 0, 0, 1]]
  raw := mappedResponse family
  fingerprint := false

theorem safeExtraction_iff_mappedResponse :
    (∀ value, (mappedMessage 1).addressAttribute = some (.mappedAddress value) → ¬ Cut value) ∧
    (SafeExtraction sampleAlgorithms (mappedMessage 1) ↔ ∀ value, (mappedMessage 1).addressAttribute
      = some (.mappedAddress value) → ¬ Cut value) := by
  have hdecode : decodeMessage (.ofBytes (mappedResponse 1)) = .ok (mappedMessage 1) := by
    decide +kernel
  refine ⟨fun value hvalue => ?_, safeExtraction_iff _ hdecode⟩
  obtain rfl : [0, 1, 0, 80, 10, 0, 0, 1] = value := by
    cases hvalue
    rfl
  decide

/-- Eight bytes of the family IPv6 pass the decoder, and then the address is cut
out beyond their end. -/
theorem exists_extraction_panic : ∃ msg, decodeMessage (.ofBytes (mappedResponse 2)) = .ok msg ∧
  msg.mappedAddrPort = .error (.fault .sliceBounds) ∧ ∀ algorithms, processBindingResponse
  algorithms msg msg.header.transactionID none = .error (.fault .sliceBounds) :=
  ⟨mappedMessage 2, by decide +kernel, by decide +kernel, fun _ => rfl⟩

end Pig.Stun
