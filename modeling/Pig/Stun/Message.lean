import Pig.Stun.Decode

namespace Pig.Stun

open Go

/-! Messages: the header, the attributes in the order in which they are
serialized, and the raw bytes. -/

def magicCookie : UInt32 := 0x2112a442
def fingerprintXorValue : UInt32 := 0x5354554e

structure Header where
  type : UInt16
  length : UInt16
  magicCookie : UInt32
  transactionID : FixedBytes 12
  deriving DecidableEq, Repr

structure Message where
  header : Header
  attributes : List Attribute
  raw : Bytes
  fingerprint : Bool
  deriving DecidableEq, Repr

namespace Header

def new (msgType : UInt16) (txID : FixedBytes 12) : Header where
  type := msgType
  length := 0
  magicCookie := Stun.magicCookie
  transactionID := txID

def serializeTo (header : Header) : Bytes := Bytes.ofNatBE 2 header.type.toNat ++ Bytes.ofNatBE 2
  header.length.toNat ++ Bytes.ofNatBE 4 header.magicCookie.toNat ++ header.transactionID.bytes

def decodeFromBytes (data : Slice) : Decoder Header :=
  if data.len < 20 then fail (.messageTooShort data.len)
  else do
    let type ← uint16 data 0
    let length ← uint16 data 2
    let cookie ← checked (data.sub 4 8)
    let transactionID ← checked (data.sub 8 20)
    return {
      type := UInt16.ofNat type
      length := UInt16.ofNat length
      magicCookie := UInt32.ofNat cookie.toNatBE
      transactionID := .copyOf 12 transactionID }

end Header

def decodeMessage (data : Slice) : Decoder Message := do
  let header ← Header.decodeFromBytes data
  let total := 20 + header.length.toNat
  if data.len < total then fail (.truncated total data.len)
  else do
    let area ← checked (data.between 20 total)
    let attributes ← decodeAttributes area
    let raw ← checked (data.sub 0 total)
    return { header, attributes, raw, fingerprint := false }

def headerAt (data : Slice) : Header where
  type := UInt16.ofNat (data.array.window 0 2).toNatBE
  length := UInt16.ofNat (data.array.window 2 2).toNatBE
  magicCookie := UInt32.ofNat (data.array.window 4 4).toNatBE
  transactionID := .copyOf 12 (data.array.window 8 12)

variable {data : Slice}

theorem decodeHeader_eq (hlen : 20 ≤ data.len) :
    Header.decodeFromBytes data = .ok (headerAt data) := by
  have hcap : data.len ≤ data.cap := data.len_le
  have hsub : ∀ low high, low ≤ high → high ≤ 20 →
      data.sub low high = .ok (data.array.window low (high - low)) :=
    fun low high hle hhigh => if_pos ⟨hle, by omega⟩
  rw [Header.decodeFromBytes, if_neg (by omega), uint16_eq (by omega), ok_bind,
    uint16_eq (by omega), ok_bind, hsub 4 8 (by decide) (by decide),
    checked_ok, ok_bind, hsub 8 20 (by decide) (by decide)]
  rfl

/-- The attribute area, which keeps the capacity of the data. -/
def areaAt (data : Slice) (hlen : 20 + (headerAt data).length.toNat ≤ data.len) : Slice where
  array := data.array.drop 20
  len := (headerAt data).length.toNat
  len_le := by
    have hcap := data.len_le
    rw [List.length_drop]
    omega

theorem decodeMessage_eq (hlen : 20 + (headerAt data).length.toNat ≤ data.len) :
    decodeMessage data = do
      let attributes ← decodeAttributes (areaAt data hlen)
      return {
        header := headerAt data
        attributes
        raw := data.array.window 0 (20 + (headerAt data).length.toNat)
        fingerprint := false } := by
  have hcap : data.len ≤ data.cap := data.len_le
  have hbetween : data.between 20 (20 + (headerAt data).length.toNat) = .ok (areaAt data hlen) := by
    rw [Slice.between, dif_pos ⟨by omega, by omega⟩]
    simp [areaAt]
  have hraw : data.sub 0 (20 + (headerAt data).length.toNat) = .ok
    (data.array.window 0 (20 + (headerAt data).length.toNat)) := if_pos ⟨by omega, by omega⟩
  rw [decodeMessage, decodeHeader_eq (by omega), ok_bind]
  simp only [if_neg (Nat.not_lt.mpr hlen), hbetween, hraw, checked_ok, ok_bind]

theorem decodeMessage_of_short
    (hshort : data.len < 20 ∨ data.len < 20 + (headerAt data).length.toNat) :
    ∃ cause, decodeMessage data = .error (.error cause) := by
  by_cases hlen : data.len < 20
  · exact ⟨_, by rw [decodeMessage, Header.decodeFromBytes, if_pos hlen]; rfl⟩
  · have htotal := hshort.resolve_left hlen
    refine ⟨.truncated (20 + (headerAt data).length.toNat) data.len, ?_⟩
    rw [decodeMessage, decodeHeader_eq (by omega), ok_bind]
    simp only [if_pos htotal]
    rfl

theorem decodeMessage_eq_ok {msg : Message} (hdecode : decodeMessage data = .ok msg) :
    ∃ hlen : 20 + (headerAt data).length.toNat ≤ data.len, msg.header = headerAt data ∧
      decodeAttributes (areaAt data hlen) = .ok msg.attributes ∧
      msg.raw = data.array.take (20 + (headerAt data).length.toNat) := by
  by_cases hlen : 20 + (headerAt data).length.toNat ≤ data.len
  · rw [decodeMessage_eq hlen, bind_eq_ok] at hdecode
    obtain ⟨attributes, hattributes, hmsg⟩ := hdecode
    cases hmsg
    exact ⟨hlen, rfl, hattributes, rfl⟩
  · obtain ⟨cause, herror⟩ := @decodeMessage_of_short data (.inr (by omega))
    cases herror.symm.trans hdecode

end Pig.Stun
