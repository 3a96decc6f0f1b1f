import Pig.Lib.Go

namespace Pig.Stun

open Go

inductive Kind where
  | mappedAddress
  | username
  | messageIntegrity
  | messageIntegritySHA256
  | errorCode
  | realm
  | nonce
  | xorMappedAddress
  | fingerprint
  | icePriority
  | iceUseCandidate
  | iceControlled
  | iceControlling
  | changeRequest
  | otherAddress
  deriving DecidableEq, Repr

def Kind.code : Kind → Nat
  | .mappedAddress => 0x0001
  | .username => 0x0006
  | .messageIntegrity => 0x0008
  | .messageIntegritySHA256 => 0x001c
  | .errorCode => 0x0009
  | .realm => 0x0014
  | .nonce => 0x0015
  | .xorMappedAddress => 0x0020
  | .fingerprint => 0x8028
  | .icePriority => 0x0024
  | .iceUseCandidate => 0x0025
  | .iceControlled => 0x8029
  | .iceControlling => 0x802a
  | .changeRequest => 0x0003
  | .otherAddress => 0x802c

def typeRegistry : Nat → Option Kind
  | 0x0001 => some .mappedAddress
  | 0x0006 => some .username
  | 0x0008 => some .messageIntegrity
  | 0x001c => some .messageIntegritySHA256
  | 0x0009 => some .errorCode
  | 0x0014 => some .realm
  | 0x0015 => some .nonce
  | 0x0020 => some .xorMappedAddress
  | 0x8028 => some .fingerprint
  | 0x0024 => some .icePriority
  | 0x0025 => some .iceUseCandidate
  | 0x8029 => some .iceControlled
  | 0x802a => some .iceControlling
  | 0x0003 => some .changeRequest
  | 0x802c => some .otherAddress
  | _ => none

@[simp] theorem typeRegistry_code (kind : Kind) : typeRegistry kind.code = some kind := by
  cases kind <;> rfl

theorem code_of_typeRegistry {code : Nat} {kind : Kind}
    (hregistered : typeRegistry code = some kind) : kind.code = code := by
  rw [typeRegistry.eq_def] at hregistered
  split at hregistered <;> cases hregistered <;> rfl

theorem Kind.code_lt (kind : Kind) : kind.code < 65536 := by
  cases kind <;> decide

structure FixedBytes (size : Nat) where
  bytes : Bytes
  length_eq : bytes.length = size
  deriving DecidableEq, Repr

def FixedBytes.copyOf (size : Nat) (source : Bytes) : FixedBytes size where
  bytes := (source ++ List.replicate size 0).take size
  length_eq := by simp

theorem FixedBytes.copyOf_bytes {size : Nat} (value : FixedBytes size) :
    copyOf size value.bytes = value := by
  obtain ⟨bytes, rfl⟩ := value
  simp [copyOf]

theorem FixedBytes.bytes_copyOf {size : Nat} {source : Bytes} (hlength : source.length = size) :
  (copyOf size source).bytes = source := List.take_left' hlength

inductive Attribute where
  | mappedAddress (value : Bytes)
  | username (value : Bytes)
  | messageIntegrity (value : FixedBytes 20)
  | messageIntegritySHA256 (value : FixedBytes 32)
  | errorCode (code : Int) (reason : Bytes)
  | realm (value : Bytes)
  | nonce (value : Bytes)
  | xorMappedAddress (value : Bytes)
  | fingerprint (value : UInt32)
  | icePriority (value : UInt32)
  | iceUseCandidate
  | iceControlled (value : UInt64)
  | iceControlling (value : UInt64)
  | changeRequest (flags : UInt32)
  | otherAddress (value : Bytes)
  deriving DecidableEq, Repr

namespace Attribute

def kind : Attribute → Kind
  | .mappedAddress _ => .mappedAddress
  | .username _ => .username
  | .messageIntegrity _ => .messageIntegrity
  | .messageIntegritySHA256 _ => .messageIntegritySHA256
  | .errorCode _ _ => .errorCode
  | .realm _ => .realm
  | .nonce _ => .nonce
  | .xorMappedAddress _ => .xorMappedAddress
  | .fingerprint _ => .fingerprint
  | .icePriority _ => .icePriority
  | .iceUseCandidate => .iceUseCandidate
  | .iceControlled _ => .iceControlled
  | .iceControlling _ => .iceControlling
  | .changeRequest _ => .changeRequest
  | .otherAddress _ => .otherAddress

def getType (attr : Attribute) : Nat := attr.kind.code

def value : Attribute → Bytes
  | .mappedAddress value => value
  | .username value => value
  | .messageIntegrity value => value.bytes
  | .messageIntegritySHA256 value => value.bytes
  | .errorCode code reason =>
    [0, UInt8.ofInt (code.tdiv 100), UInt8.ofInt (code.tmod 100), 0] ++ reason
  | .realm value => value
  | .nonce value => value
  | .xorMappedAddress value => value
  | .fingerprint value => Bytes.ofNatBE 4 value.toNat
  | .icePriority value => Bytes.ofNatBE 4 value.toNat
  | .iceUseCandidate => []
  | .iceControlled value => Bytes.ofNatBE 8 value.toNat
  | .iceControlling value => Bytes.ofNatBE 8 value.toNat
  | .changeRequest flags => Bytes.ofNatBE 4 flags.toNat
  | .otherAddress value => value

def ofValue : Kind → Bytes → Attribute
  | .mappedAddress, value => .mappedAddress value
  | .username, value => .username value
  | .messageIntegrity, value => .messageIntegrity (.copyOf 20 value)
  | .messageIntegritySHA256, value => .messageIntegritySHA256 (.copyOf 32 value)
  | .errorCode, value =>
    .errorCode ((value.getD 1 0).toNat * 100 + (value.getD 2 0).toNat) (value.drop 4)
  | .realm, value => .realm value
  | .nonce, value => .nonce value
  | .xorMappedAddress, value => .xorMappedAddress value
  | .fingerprint, value => .fingerprint (UInt32.ofNat value.toNatBE)
  | .icePriority, value => .icePriority (UInt32.ofNat value.toNatBE)
  | .iceUseCandidate, _ => .iceUseCandidate
  | .iceControlled, value => .iceControlled (UInt64.ofNat value.toNatBE)
  | .iceControlling, value => .iceControlling (UInt64.ofNat value.toNatBE)
  | .changeRequest, value => .changeRequest (UInt32.ofNat value.toNatBE)
  | .otherAddress, value => .otherAddress value

end Attribute

def calculatePadding (length : Nat) : Nat :=
  if length % 4 = 0 then 0 else 4 - length % 4

/-- The length is a `uint16`. -/
def attrSerializedSize (valueLen : Nat) : Nat := 4 + valueLen + calculatePadding valueLen

namespace Attribute

def serializeLen (attr : Attribute) : Nat := attrSerializedSize (attr.value.length % 65536)

/-- The bytes appended to the buffer. A value too long for the length field
overruns them. -/
def serializeTo (attr : Attribute) : Checked Bytes :=
  if 4 + attr.value.length ≤ attr.serializeLen then
    .ok (Bytes.ofNatBE 2 attr.getType ++ Bytes.ofNatBE 2 attr.value.length ++ attr.value ++
      List.replicate (attr.serializeLen - (4 + attr.value.length)) 0)
  else .error .sliceBounds

end Attribute

end Pig.Stun
