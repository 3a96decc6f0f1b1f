import Pig.Stun.Integrity

namespace Pig.Stun

open Go

/-! Messages under any sequence of calls. An attribute is here what its
interface shows of it, so that one of any type can be appended, and a call that
is refused leaves a message behind as well. -/

def attrMessageIntegrity : UInt16 := 0x0008
def attrMessageIntegritySHA256 : UInt16 := 0x001c
def attrFingerprint : UInt16 := 0x8028

structure Item where
  type : UInt16
  value : Bytes
  deriving DecidableEq, Repr

namespace Item

def serializeLen (item : Item) : Nat := attrSerializedSize (item.value.length % 65536)

def serializeTo (item : Item) : Checked Bytes :=
  if 4 + item.value.length ≤ item.serializeLen then
    .ok (Bytes.ofNatBE 2 item.type.toNat ++ Bytes.ofNatBE 2 item.value.length ++ item.value ++
      List.replicate (item.serializeLen - (4 + item.value.length)) 0)
  else .error .sliceBounds

/-- The switch of `appendAttribute` on the type of the last attribute. -/
def mayFollow (last next : UInt16) : Bool :=
  if last = attrFingerprint then false
  else if last = attrMessageIntegrity then
    next = attrMessageIntegritySHA256 ∨ next = attrFingerprint
  else if last = attrMessageIntegritySHA256 then next = attrFingerprint
  else true

def follows (attributes : List Item) (next : UInt16) : Bool :=
  match attributes.getLast? with
  | none => true
  | some last => mayFollow last.type next

end Item

structure Draft where
  header : Header
  attributes : List Item
  raw : Bytes
  fingerprint : Bool
  deriving DecidableEq, Repr

namespace Draft

abbrev Call := Checked (Draft × Bool)

def unsafeAppendAttribute (msg : Draft) (attr : Item) : Checked Draft := do
  let encoding ← attr.serializeTo
  let length := msg.header.length + UInt16.ofNat attr.serializeLen
  return { msg with
    attributes := msg.attributes ++ [attr]
    header := { msg.header with length }
    raw := putLength (msg.raw ++ encoding) length }

def appendAttribute (msg : Draft) (attr : Item) : Call := do
  if Item.follows msg.attributes attr.type then
    return (← msg.unsafeAppendAttribute attr, true)
  else return (msg, false)

def appendAttributes (msg : Draft) : List Item → Call
  | [] => return (msg, true)
  | attr :: rest => do
      let (after, accepted) ← msg.appendAttribute attr
      if accepted then appendAttributes after rest else return (after, false)

/-- No message is returned if an attribute is refused. -/
def newMessageWithTransactionID (msgType : UInt16) (attrs : List Item)
    (txID : FixedBytes 12) : Checked (Option Draft) := do
  let header := Header.new msgType txID
  let (msg, accepted) ← Draft.appendAttributes {
    header
    attributes := []
    raw := header.serializeTo
    fingerprint := false } attrs
  return if accepted then some msg else none

section

variable (algorithms : Algorithms)

def dropFingerprint (msg : Draft) : Checked Draft :=
  match msg.attributes.getLast? with
  | none => .ok msg
  | some la =>
    if la.type ≠ attrFingerprint then .ok msg
    else if msg.raw.length < la.serializeLen then .error .sliceBounds
    else .ok { msg with
      attributes := msg.attributes.dropLast
      header := { msg.header with
        length := msg.header.length - UInt16.ofNat la.serializeLen }
      raw := msg.raw.take (msg.raw.length - la.serializeLen) }

def newFingerprintAttr (message : Bytes) : Item := ⟨attrFingerprint, Bytes.ofNatBE 4
    (calculateFingerprint algorithms.crc32 message).toNat⟩

def addFingerprint (msg : Draft) : Call := do
  let msg ← msg.dropFingerprint
  msg.appendAttribute (newFingerprintAttr algorithms msg.raw)

/-- The digest replaces the value in the list and at the end of the raw
bytes. -/
def addMessageIntegrity (msg : Draft) (password : Bytes) : Call := do
  if password = [] then return (msg, false)
  let (after, accepted) ← msg.appendAttribute ⟨attrMessageIntegrity, List.replicate 20 0⟩
  if accepted then
    match calculateShortTermMessageIntegrityWithHash algorithms.opaqueString
      algorithms.sha1 after.raw password .messageIntegrity with
    | none => return (after, false)
    | some finalIntegrity =>
      if finalIntegrity.length ≠ algorithms.sha1.size then
        return (after, false)
      else if after.raw.length < algorithms.sha1.size then
        .error .sliceBounds
      else return ({ after with
        attributes := after.attributes.dropLast ++ [⟨attrMessageIntegrity,
          (FixedBytes.copyOf 20 finalIntegrity).bytes⟩]
        raw := after.raw.take (after.raw.length - algorithms.sha1.size) ++
          finalIntegrity }, true)
  else return (after, false)

def withFingerprint (msg : Draft) : Draft := { msg with fingerprint := true }

def finish (msg : Draft) : Call :=
  if msg.fingerprint then msg.addFingerprint algorithms else .ok (msg, true)

def serializeTo (msg : Draft) : Call := do
  let (after, accepted) ← msg.finish algorithms
  if accepted then
    let _ ← after.attributes.mapM Item.serializeTo
    return (after, true)
  else return (after, false)

/-- The writer may fail, which the message does not show. -/
def writeTo (msg : Draft) (written : Bool) : Call := do
  let (after, accepted) ← msg.finish algorithms
  return (after, accepted && written)

inductive Operation where
  | appendAttribute (attrs : List Item)
  | addMessageIntegrity (password : Bytes)
  | withFingerprint
  | addFingerprint
  | serializeTo
  | writeTo (written : Bool)
  deriving DecidableEq, Repr

def perform (msg : Draft) : Operation → Call
  | .appendAttribute attrs => msg.appendAttributes attrs
  | .addMessageIntegrity password => msg.addMessageIntegrity algorithms password
  | .withFingerprint => .ok (msg.withFingerprint, true)
  | .addFingerprint => msg.addFingerprint algorithms
  | .serializeTo => msg.serializeTo algorithms
  | .writeTo written => msg.writeTo algorithms written

/-- The message after a call, unless a check of the runtime fails in it. -/
def step (msg : Draft) (operation : Operation) : Option Draft :=
  (msg.perform algorithms operation).toOption.map Prod.fst

end

end Draft

end Pig.Stun
