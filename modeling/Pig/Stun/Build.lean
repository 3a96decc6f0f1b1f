import Pig.Stun.Message

namespace Pig.Stun

open Go

/-! Building messages: attributes are appended to the list and to the raw bytes
at the same time. -/

inductive BuildFailure where
  | fault (fault : Fault)
  | refused (last : Kind)
  deriving DecidableEq, Repr

abbrev Builder := Except BuildFailure

/-- The call `binary.BigEndian.PutUint16(raw[2:4], length)`. -/
def putLength (raw : Bytes) (length : UInt16) : Bytes :=
  raw.take 2 ++ Bytes.ofNatBE 2 length.toNat ++ raw.drop 4

def Kind.mayFollow (last next : Kind) : Bool :=
  match last with
  | .fingerprint => false
  | .messageIntegrity =>
    next == .messageIntegritySHA256 || next == .fingerprint
  | .messageIntegritySHA256 => next == .fingerprint
  | _ => true

namespace Message

def unsafeAppendAttribute (msg : Message) (attr : Attribute) : Builder Message := do
  let encoding ← attr.serializeTo.mapError .fault
  let length := msg.header.length + UInt16.ofNat attr.serializeLen
  return { msg with
    attributes := msg.attributes ++ [attr]
    header := { msg.header with length }
    raw := putLength (msg.raw ++ encoding) length }

def appendAttribute (msg : Message) (attr : Attribute) : Builder Message :=
  match msg.attributes.getLast? with
  | none => msg.unsafeAppendAttribute attr
  | some last =>
    if last.kind.mayFollow attr.kind then msg.unsafeAppendAttribute attr
    else .error (.refused last.kind)

end Message

def newMessageWithTransactionID (msgType : UInt16) (attrs : List Attribute)
    (txID : FixedBytes 12) : Builder Message :=
  let header := Header.new msgType txID
  attrs.foldlM Message.appendAttribute {
    header
    attributes := []
    raw := header.serializeTo
    fingerprint := false }

section

variable (crc32 : Bytes → UInt32)

/-- The length field is overwritten for the time of the computation. -/
def calculateFingerprint (message : Bytes) : UInt32 :=
  let attrLen := UInt16.ofInt ((message.length : Int) - 20) + 8
  crc32 (putLength message attrLen) ^^^ fingerprintXorValue

namespace Message

/-- The message without a FINGERPRINT at its end. The length field of the raw
bytes is left as it is. -/
def dropFingerprint (msg : Message) : Checked Message :=
  match msg.attributes.getLast? with
  | none => .ok msg
  | some la =>
    if la.kind ≠ .fingerprint then .ok msg
    else if msg.raw.length < la.serializeLen then .error .sliceBounds
    else .ok { msg with
      attributes := msg.attributes.dropLast
      header := { msg.header with
        length := msg.header.length - UInt16.ofNat la.serializeLen }
      raw := msg.raw.take (msg.raw.length - la.serializeLen) }

def addFingerprint (msg : Message) : Builder Message := do
  let msg ← msg.dropFingerprint.mapError .fault
  msg.appendAttribute (.fingerprint (calculateFingerprint crc32 msg.raw))

def withFingerprint (msg : Message) : Message := { msg with fingerprint := true }

def finish (msg : Message) : Builder Message :=
  if msg.fingerprint then msg.addFingerprint crc32 else .ok msg

/-- The message as it is afterwards, and the bytes for a buffer of its own. -/
def serializeTo (msg : Message) : Builder (Message × Bytes) := do
  let msg ← msg.finish crc32
  let encodings ← (msg.attributes.mapM Attribute.serializeTo).mapError .fault
  return (msg, msg.header.serializeTo ++ encodings.flatten)

def writeTo (msg : Message) : Builder (Message × Bytes) := do
  let msg ← msg.finish crc32
  return (msg, msg.raw)

end Message

end

end Pig.Stun
