import Pig.Stun.Build

namespace Pig.Stun

open Go

/-! Short-term credentials: the message-integrity attributes and the checks
made on a received message. -/

structure Hash where
  size : Nat
  hmac : (key message : Bytes) → Bytes
  length_hmac : ∀ key message, (hmac key message).length = size

/-- The functions that are not part of this code. -/
structure Algorithms where
  sha1 : Hash
  size_sha1 : sha1.size = 20
  crc32 : Bytes → UInt32
  opaqueString : Bytes → Bytes

structure AuthConfig where
  username : Bytes
  password : Bytes
  realm : Bytes
  nonce : Bytes
  deriving DecidableEq, Repr

inductive IntegrityError where
  | passwordRequired
  | attributeNotFound
  | wrongAttribute
  | calculationFailed
  | illegalLength (length : Nat)
  | usernameMissing
  | usernameMismatch
  | verificationFailed
  deriving DecidableEq, Repr

namespace Message

def findAttribute (msg : Message) (kind : Kind) : Option Attribute :=
  msg.attributes.find? fun attr => attr.kind = kind

def getAuthParams (msg : Message) : AuthConfig where
  username :=
    match msg.findAttribute .username with
    | some (.username value) => value
    | _ => []
  password := []
  realm :=
    match msg.findAttribute .realm with
    | some (.realm value) => value
    | _ => []
  nonce :=
    match msg.findAttribute .nonce with
    | some (.nonce value) => value
    | _ => []

end Message

/-- The position of the first attribute of the type, from position `i` on. The
padding of every attribute on the way is passed over. -/
def findPosition (message : Bytes) (attrType : Nat) : (fuel i : Nat) → Option Nat
  | 0, _ => none
  | fuel + 1, i =>
    if message.length < i + 4 then none
    else if (message.window i 2).toNatBE = attrType then some i
    else findPosition message attrType fuel
      (i + attrSerializedSize (message.window (i + 2) 2).toNatBE)

section

variable (opaqueString : Bytes → Bytes) (hash : Hash)

/-- The digest covers the message up to the attribute, with a length field that
includes it. -/
def calculateShortTermMessageIntegrityWithHash (message password : Bytes)
    (attrType : Kind) : Option Bytes :=
  if password = [] ∨ message.length < 20 then none
  else
    let messageLen := (findPosition message attrType.code message.length 20).getD message.length
    let adjustedLength := UInt16.ofNat (messageLen - 20 + (4 + hash.size))
    let msgCopy := putLength (message.take messageLen) adjustedLength
    some (hash.hmac (opaqueString password) msgCopy)

namespace Message

def verifyMessageIntegrityWithHash (msg : Message) (password : Bytes)
    (attrType : Kind) : Except IntegrityError Bool :=
  if password = [] then .error .passwordRequired
  else
    match msg.findAttribute attrType with
    | none => .error .attributeNotFound
    | some (.messageIntegrity value) =>
      match calculateShortTermMessageIntegrityWithHash opaqueString hash
        msg.raw password attrType with
      | none => .error .calculationFailed
      | some expected => .ok (value.bytes = expected)
    | some _ => .error .wrongAttribute

inductive IntegrityFailure where
  | build (failure : BuildFailure)
  | error (error : IntegrityError)
  deriving DecidableEq, Repr

/-- The attribute is appended with an empty value, which is then replaced both
in the list and at the end of the raw bytes. -/
def addMessageIntegrityWithHash (msg : Message) (password : Bytes)
    (attrType : Kind) : Except IntegrityFailure Message :=
  if password = [] then .error (.error .passwordRequired)
  else do
    let msg ← (msg.appendAttribute (.messageIntegrity (.copyOf 20 []))).mapError .build
    match calculateShortTermMessageIntegrityWithHash opaqueString hash msg.raw
      password attrType with
    | none => .error (.error .calculationFailed)
    | some finalIntegrity =>
      if finalIntegrity.length ≠ hash.size then
        .error (.error (.illegalLength finalIntegrity.length))
      else if msg.raw.length < hash.size then
        .error (.build (.fault .sliceBounds))
      else
        .ok { msg with
          attributes := msg.attributes.dropLast ++ [.messageIntegrity (.copyOf 20 finalIntegrity)]
          raw := msg.raw.take (msg.raw.length - hash.size) ++
            finalIntegrity }

end Message

end

section

variable (algorithms : Algorithms)

theorem calculateIntegrity_eq_some {password : Bytes} {raw : Bytes}
    (hpassword : password ≠ []) (hlength : 20 ≤ raw.length) :
    ∃ digest, digest.length = 20 ∧ calculateShortTermMessageIntegrityWithHash
      algorithms.opaqueString algorithms.sha1 raw password .messageIntegrity = some digest := by
  have hshort : ¬ (password = [] ∨ raw.length < 20) := not_or.2 ⟨hpassword, Nat.not_lt.2 hlength⟩
  rw [calculateShortTermMessageIntegrityWithHash, if_neg hshort]
  refine ⟨_, ?_, rfl⟩
  rw [algorithms.sha1.length_hmac, algorithms.size_sha1]

namespace Message

def verifyMessageIntegrity (msg : Message) (password : Bytes) : Except IntegrityError Bool :=
  msg.verifyMessageIntegrityWithHash algorithms.opaqueString algorithms.sha1
    password .messageIntegrity

def addMessageIntegrity (msg : Message) (password : Bytes) : Except IntegrityFailure Message :=
  msg.addMessageIntegrityWithHash algorithms.opaqueString algorithms.sha1 password .messageIntegrity

def verifyFingerprint (msg : Message) : Bool :=
  match msg.findAttribute .fingerprint with
  | some (.fingerprint value) =>
    if msg.raw.length < 8 then false
    else value == calculateFingerprint algorithms.crc32 (msg.raw.take (msg.raw.length - 8))
  | _ => false

end Message

/-- Nothing is required if no password is expected. -/
def validateShortTermIntegrity (request : Message)
    (expected : Option AuthConfig) : Except IntegrityError Unit :=
  match expected with
  | none => .ok ()
  | some expected =>
    if expected.password = [] then .ok ()
    else
      let opaqueGot := algorithms.opaqueString request.getAuthParams.username
      let opaqueExpected := algorithms.opaqueString expected.username
      if opaqueGot = [] then .error .usernameMissing
      else if opaqueGot ≠ opaqueExpected then .error .usernameMismatch
      else
        match request.verifyMessageIntegrity algorithms expected.password with
        | .error error => .error error
        | .ok false => .error .verificationFailed
        | .ok true => .ok ()

end

end Pig.Stun
