import Pig.Icmp.RetransmitQueue
import Pig.Lib.Go

namespace Pig.Icmp

open Go

/-! Parsing what the raw socket returns: an IP header, whose length is given by
its first byte, an ICMP header, and the encapsulation header. -/

def icmpHeaderSize : Nat := 8

structure Received extends Packet where
  ipSrc : Bytes
  ipDst : Bytes
  deriving DecidableEq, Repr

def getUint16 (bytes : Bytes) : UInt16 := UInt16.ofNat bytes.toNatBE

def payloadOffset (first : UInt8) : Nat := (first &&& 0x0F).toNat <<< 2

namespace Received

def unmarshalPayload (packet : Received) (icmpPayload : Slice) : Checked Received := do
  if icmpPayload.len < eHeaderSize then
    return { packet with icmpPayload := icmpPayload.contents }
  let header ← icmpPayload.sub 0 eHeaderSize
  let (packetSeq, packetAck) := getSeqAck header
  let data ← icmpPayload.dropFront eHeaderSize
  return { packet with
    icmpPayload := icmpPayload.contents
    packetSeq := packetSeq
    packetAck := packetAck
    data := data.contents }

def unmarshalMessage (ipPayload : Slice) (buffer : BufferId)
    (ipSrc ipDst : Bytes) : Checked Received := do
  let icmpType ← ipPayload.get 0
  let icmpCode ← ipPayload.get 1
  let icmpEchoID ← ipPayload.sub 4 6
  let icmpSeq ← ipPayload.sub 6 8
  let icmpPayload ← ipPayload.dropFront icmpHeaderSize
  unmarshalPayload {
    icmpType := icmpType
    icmpCode := icmpCode
    icmpEchoID := getUint16 icmpEchoID
    icmpSeq := getUint16 icmpSeq
    icmpPayload := []
    packetSeq := 0
    packetAck := 0
    data := []
    buffer := buffer
    ipSrc := ipSrc
    ipDst := ipDst } icmpPayload

def unmarshal (data : Slice) (buffer : BufferId) : Checked (Except String Received) := do
  if data.len < 20 + icmpHeaderSize then return .error "packet too short"
  let ipSrc ← data.sub 12 16
  let ipDst ← data.sub 16 20
  let first ← data.get 0
  let ipPayload ← data.dropFront (payloadOffset first)
  let packet ← unmarshalMessage ipPayload buffer ipSrc ipDst
  return .ok packet

end Received

def newPacket (buffer : Slice) (id : BufferId) (len : Nat) : Checked (Except String Received) := do
  let data ← buffer.between 0 len
  Received.unmarshal data id

def Message.ofBytes (bytes : Bytes) : Message where
  icmpType := bytes.getD 0 0
  code := bytes.getD 1 0
  id := getUint16 (bytes.window 4 2)
  seq := getUint16 (bytes.window 6 2)
  data := bytes.drop icmpHeaderSize

def Message.toBytes (message : Message) (checksum : UInt16) : Bytes :=
  [message.icmpType, message.code] ++ Bytes.ofNatBE 2 checksum.toNat ++ Bytes.ofNatBE 2
  message.id.toNat ++ Bytes.ofNatBE 2 message.seq.toNat ++ message.data

theorem getUint16_ofNatBE (value : UInt16) : getUint16 (Bytes.ofNatBE 2 value.toNat) = value := by
  have hbound : value.toNat < 2 ^ 16 := value.toNat_lt
  apply UInt16.toNat_inj.mp
  rw [getUint16, Bytes.toNatBE_ofNatBE, UInt16.toNat_ofNat']
  omega

theorem Message.ofBytes_toBytes (message : Message) (checksum : UInt16) :
    ofBytes (message.toBytes checksum) = message := by
  have hid : (message.toBytes checksum).window 4 2 = Bytes.ofNatBE 2 message.id.toNat := by
    rw [toBytes, List.append_assoc _ _ message.data]
    exact Bytes.window_middle (by simp) (Bytes.length_ofNatBE _ _)
  have hseq : (message.toBytes checksum).window 6 2 = Bytes.ofNatBE 2 message.seq.toNat :=
    Bytes.window_middle (by simp) (Bytes.length_ofNatBE _ _)
  have hdata : (message.toBytes checksum).drop icmpHeaderSize =
      message.data := List.drop_left' (by simp [icmpHeaderSize])
  rw [ofBytes, hid, hseq, hdata, getUint16_ofNatBE, getUint16_ofNatBE]
  rfl

theorem payloadOffset_eq (first : UInt8) : payloadOffset first = 4 * (first.toNat % 16) := by
  have hlow : (first &&& 0x0F).toNat = first.toNat % 16 := by
    exact Nat.and_two_pow_sub_one_eq_mod first.toNat 4
  rw [payloadOffset, hlow, Nat.shiftLeft_eq]
  omega

namespace Received

variable {data : Slice} {buffer : BufferId}

theorem unmarshalPayload_eq (packet : Received) (icmpPayload : Slice) :
    unmarshalPayload packet icmpPayload = .ok (if icmpPayload.len < eHeaderSize then
        { packet with icmpPayload := icmpPayload.contents }
      else
        { packet with
          icmpPayload := icmpPayload.contents
          packetSeq := (getSeqAck icmpPayload.contents).1
          packetAck := (getSeqAck icmpPayload.contents).2
          data := icmpPayload.contents.drop eHeaderSize }) := by
  unfold unmarshalPayload
  by_cases hshort : icmpPayload.len < eHeaderSize
  · rw [if_pos hshort, if_pos hshort]
    rfl
  · have hlong : eHeaderSize ≤ icmpPayload.len := Nat.not_lt.mp hshort
    have hheader : icmpPayload.sub 0 eHeaderSize =
        .ok (icmpPayload.contents.window 0 eHeaderSize) := by
      rw [Slice.sub_eq_ok_iff]
      exact ⟨⟨Nat.zero_le _, Nat.le_trans hlong icmpPayload.len_le⟩,
        icmpPayload.window_contents (by omega)⟩
    have hnumbers : getSeqAck (icmpPayload.contents.window 0 eHeaderSize) =
        getSeqAck icmpPayload.contents := by
      unfold getSeqAck
      rw [Bytes.window_window _ (by decide), Bytes.window_window _ (by decide)]
    rw [if_neg hshort, if_neg hshort, hheader, ok_bind, hnumbers]
    dsimp only
    rw [Slice.dropFront_eq, if_pos hlong, ok_bind, Slice.contents_advance]
    rfl

theorem unmarshalMessage_eq {ipPayload : Slice} (buffer : BufferId)
    (ipSrc ipDst : Bytes) (hheader : icmpHeaderSize ≤ ipPayload.len) :
    unmarshalMessage ipPayload buffer ipSrc ipDst = .ok
      { toPacket := Packet.unmarshal (Message.ofBytes ipPayload.contents) buffer
        ipSrc := ipSrc
        ipDst := ipDst } := by
  have hlong : 8 ≤ ipPayload.len := hheader
  have htype := ipPayload.getD_contents (show 0 < ipPayload.len by omega)
  have hcode := ipPayload.getD_contents (show 1 < ipPayload.len by omega)
  have hlen : (ipPayload.advance icmpHeaderSize).len =
      (ipPayload.contents.drop icmpHeaderSize).length := by
    rw [← Slice.contents_advance, Slice.length_contents]
  rw [unmarshalMessage, ipPayload.get_of_lt (by omega), ok_bind, ipPayload.get_of_lt (by omega),
    ok_bind, ipPayload.sub_of_le (by decide) (by omega), ok_bind, ipPayload.sub_of_le (by decide)
    (by omega), ok_bind, Slice.dropFront_eq, if_pos hheader, ok_bind, unmarshalPayload_eq,
    Slice.contents_advance, hlen, ← htype, ← hcode]
  unfold Packet.unmarshal Message.ofBytes
  split <;> rfl

theorem le_of_succeeds_unmarshalMessage {ipPayload : Slice} {ipSrc ipDst : Bytes}
    (hsucceeds : Succeeds (unmarshalMessage ipPayload buffer ipSrc ipDst)) :
    icmpHeaderSize ≤ ipPayload.len := by
  rw [unmarshalMessage, ipPayload.succeeds_get_bind,
    ipPayload.succeeds_get_bind, succeeds_bind] at hsucceeds
  obtain ⟨-, -, icmpEchoID, -, hsucceeds⟩ := hsucceeds
  rw [succeeds_bind] at hsucceeds
  obtain ⟨icmpSeq, -, hsucceeds⟩ := hsucceeds
  rw [Slice.dropFront_eq, succeeds_check_bind] at hsucceeds
  exact hsucceeds.1

theorem unmarshal_eq (buffer : BufferId) (hlong : 20 + icmpHeaderSize ≤ data.len)
    (hheader : payloadOffset (data.byte 0) + icmpHeaderSize ≤ data.len) :
    unmarshal data buffer = .ok (.ok
      { toPacket := Packet.unmarshal (Message.ofBytes
          (data.contents.drop (payloadOffset (data.byte 0)))) buffer
        ipSrc := data.contents.window 12 4
        ipDst := data.contents.window 16 4 }) := by
  have hlen : (data.advance (payloadOffset (data.byte 0))).len =
      data.len - payloadOffset (data.byte 0) := rfl
  rw [unmarshal, if_neg (Nat.not_lt.mpr hlong), data.sub_of_le (by decide) (by omega), ok_bind,
    data.sub_of_le (by decide) (by omega), ok_bind, data.get_of_lt (by omega), ok_bind,
    Slice.dropFront_eq, if_pos (by omega), ok_bind, unmarshalMessage_eq _ _ _ (by omega),
    Slice.contents_advance]
  rfl

/-- Parsing ends exactly if the bytes are too few for any packet, or hold the
ICMP header where the first byte says. -/
theorem succeeds_unmarshal (data : Slice) (buffer : BufferId) : Succeeds (unmarshal data buffer) ↔
      data.len < 20 + icmpHeaderSize ∨ payloadOffset (data.byte 0) + icmpHeaderSize ≤ data.len := by
  by_cases hshort : data.len < 20 + icmpHeaderSize
  · rw [unmarshal, if_pos hshort]
    exact iff_of_true (succeeds_pure _) (.inl hshort)
  · rw [or_iff_right hshort]
    constructor
    · intro hsucceeds
      rw [unmarshal, if_neg hshort, succeeds_bind] at hsucceeds
      obtain ⟨ipSrc, -, hsucceeds⟩ := hsucceeds
      rw [succeeds_bind] at hsucceeds
      obtain ⟨ipDst, -, hsucceeds⟩ := hsucceeds
      rw [data.succeeds_get_bind, Slice.dropFront_eq, succeeds_check_bind,
        succeeds_bind_pure] at hsucceeds
      obtain ⟨-, hinside, hmessage⟩ := hsucceeds
      have hheader : icmpHeaderSize ≤ data.len - payloadOffset (data.byte 0) :=
        le_of_succeeds_unmarshalMessage hmessage
      omega
    · intro hheader
      rw [unmarshal_eq buffer (Nat.not_lt.mp hshort) hheader]
      exact succeeds_ok _

end Received

/-- An IPv4 packet with an ICMP message whose payload is a sequence number, an
acknowledgment number and data.  The header has up to ten words of options. -/
structure EchoDatagram where
  service : UInt8
  identification : UInt16
  fragment : UInt16
  timeToLive : UInt8
  headerChecksum : UInt16
  source : Bytes
  destination : Bytes
  options : Bytes
  checksum : UInt16
  icmpType : ICMPType
  code : UInt8
  id : UInt16
  seq : UInt16
  packetSeq : UInt32
  packetAck : UInt32
  data : Bytes
  source_length : source.length = 4
  destination_length : destination.length = 4
  options_words : options.length % 4 = 0
  options_length : options.length ≤ 40
  total_length : options.length + data.length + 36 < 65536

namespace EchoDatagram

variable (datagram : EchoDatagram)

def headerWords : Nat := 5 + datagram.options.length / 4

def totalLength : Nat := datagram.options.length + datagram.data.length + 36

def fields : Bytes := [UInt8.ofNat (64 + datagram.headerWords), datagram.service] ++ Bytes.ofNatBE 2
    datagram.totalLength ++ Bytes.ofNatBE 2 datagram.identification.toNat ++ Bytes.ofNatBE 2
    datagram.fragment.toNat ++ [datagram.timeToLive, 1] ++ Bytes.ofNatBE 2
    datagram.headerChecksum.toNat

def message : Message where
  icmpType := datagram.icmpType
  code := datagram.code
  id := datagram.id
  seq := datagram.seq
  data := putUint32 datagram.packetSeq ++ putUint32 datagram.packetAck ++ datagram.data

def bytes : Bytes := datagram.fields ++ datagram.source ++ datagram.destination ++
    datagram.options ++ datagram.message.toBytes datagram.checksum

def packet (buffer : BufferId) : Received where
  icmpType := datagram.icmpType
  icmpCode := datagram.code
  icmpEchoID := datagram.id
  icmpSeq := datagram.seq
  icmpPayload := putUint32 datagram.packetSeq ++ putUint32 datagram.packetAck ++ datagram.data
  packetSeq := datagram.packetSeq
  packetAck := datagram.packetAck
  data := datagram.data
  buffer := buffer
  ipSrc := datagram.source
  ipDst := datagram.destination

theorem length_fields : datagram.fields.length = 12 := by
  simp [fields]

theorem length_bytes : datagram.bytes.length = datagram.totalLength := by
  simp only [bytes, message, Message.toBytes, List.length_append, length_fields,
    datagram.source_length, datagram.destination_length, Bytes.length_ofNatBE, length_putUint32,
    List.length_cons, List.length_nil, totalLength]
  omega

theorem payloadOffset_first :
    payloadOffset (datagram.bytes.getD 0 0) = 20 + datagram.options.length := by
  have hfirst : datagram.bytes.getD 0 0 = UInt8.ofNat (64 + datagram.headerWords) := by
    simp [bytes, fields]
  have hwords := datagram.options_words
  have hlength := datagram.options_length
  rw [payloadOffset_eq, hfirst, UInt8.toNat_ofNat', headerWords]
  omega

theorem drop_bytes : datagram.bytes.drop (20 + datagram.options.length) =
      datagram.message.toBytes datagram.checksum := by
  apply List.drop_left'
  simp only [List.length_append, length_fields, datagram.source_length, datagram.destination_length]

theorem window_source : datagram.bytes.window 12 4 = datagram.source := by
  rw [bytes, List.append_assoc _ datagram.options, List.append_assoc _ datagram.destination]
  exact Bytes.window_middle datagram.length_fields datagram.source_length

theorem window_destination : datagram.bytes.window 16 4 = datagram.destination := by
  rw [bytes, List.append_assoc _ datagram.options]
  exact Bytes.window_middle (by rw [List.length_append, length_fields, datagram.source_length])
    datagram.destination_length

theorem unmarshal_message (buffer : BufferId) : Packet.unmarshal datagram.message buffer =
      (datagram.packet buffer).toPacket := by
  have hnumbers : getSeqAck datagram.message.data =
      (datagram.packetSeq, datagram.packetAck) := getSeqAck_header _ _ _
  have hdata : datagram.message.data.drop eHeaderSize = datagram.data :=
    List.drop_left' (by simp [eHeaderSize])
  have hheader : ¬ datagram.message.data.length < eHeaderSize := by
    simp only [message, List.length_append, length_putUint32, eHeaderSize]
    omega
  rw [Packet.unmarshal, if_neg hheader, hnumbers, hdata]
  rfl

end EchoDatagram

variable {buffer : Slice} {len : Nat}

theorem newPacket_eq (id : BufferId) (hread : len ≤ buffer.len) :
    ∃ data, newPacket buffer id len = Received.unmarshal data id ∧ data.len = len ∧ data.byte 0 =
      buffer.byte 0 ∧ data.contents = buffer.contents.take len := by
  obtain ⟨data, hdata, harray, hlen⟩ := buffer.between_zero (Nat.le_trans hread buffer.len_le)
  refine ⟨data, ?_, hlen, ?_, ?_⟩
  · rw [newPacket, hdata, ok_bind]
  · rw [Slice.byte, harray, Slice.byte]
  · rw [Slice.contents, Slice.contents, harray, hlen, List.take_take, Nat.min_eq_left hread]

theorem newPacket_datagram (id : BufferId) (hread : len ≤ buffer.len) {datagram : EchoDatagram}
    (hbytes : buffer.contents.take len = datagram.bytes) :
    newPacket buffer id len = .ok (.ok (datagram.packet id)) := by
  obtain ⟨data, hparse, hlen, -, hcontents⟩ := newPacket_eq id hread
  rw [hbytes] at hcontents
  have htotal : data.len = datagram.totalLength := by
    rw [← data.length_contents, hcontents, datagram.length_bytes]
  have hlong : 20 + icmpHeaderSize ≤ data.len := by
    rw [htotal, EchoDatagram.totalLength, icmpHeaderSize]
    omega
  have hoffset : payloadOffset (data.byte 0) = 20 + datagram.options.length := by
    rw [← data.getD_contents (by omega), hcontents, datagram.payloadOffset_first]
  have hheader : payloadOffset (data.byte 0) + icmpHeaderSize ≤ data.len := by
    rw [hoffset, htotal, EchoDatagram.totalLength, icmpHeaderSize]
    omega
  rw [hparse, Received.unmarshal_eq id hlong hheader, hoffset, hcontents,
    datagram.drop_bytes, Message.ofBytes_toBytes, datagram.window_source,
    datagram.window_destination, datagram.unmarshal_message]
  rfl

/-- What the socket has read is parsed without a failing check exactly if it is
shorter than the shortest packet or holds the ICMP header behind the IP header
of the length it states; and a datagram gives its packet. -/
theorem newPacket_safe_iff (buffer : Slice) (id : BufferId) (len : Nat) (hread : len ≤ buffer.len) :
    (Succeeds (newPacket buffer id len) ↔ len < 28 ∨ 4 * ((buffer.byte 0).toNat % 16) + 8 ≤ len) ∧
    ∀ datagram : EchoDatagram, buffer.contents.take len = datagram.bytes →
      newPacket buffer id len = .ok (.ok (datagram.packet id)) := by
  constructor
  · obtain ⟨data, hparse, hlen, hfirst, -⟩ := newPacket_eq id hread
    rw [hparse, Received.succeeds_unmarshal, hlen, hfirst, payloadOffset_eq]
    rfl
  · intro datagram hbytes
    exact newPacket_datagram id hread hbytes

/-- A datagram with one word of options in a buffer of 68 bytes. -/
def optionsDatagram : EchoDatagram where
  service := 0
  identification := 1
  fragment := 0
  timeToLive := 64
  headerChecksum := 0
  source := [10, 0, 0, 1]
  destination := [10, 0, 0, 2]
  options := [148, 4, 0, 0]
  checksum := 0
  icmpType := icmpTypeEcho
  code := 0
  id := 7
  seq := 1
  packetSeq := 5
  packetAck := 9
  data := [1, 2, 3]
  source_length := rfl
  destination_length := rfl
  options_words := rfl
  options_length := Nat.le_of_ble_eq_true rfl
  total_length := Nat.le_of_ble_eq_true rfl

theorem newPacket_safe_iff_optionsDatagram :
    newPacket (Slice.ofBytes (optionsDatagram.bytes ++ List.replicate 25 0)) 3
      43 = .ok (.ok (optionsDatagram.packet 3)) :=
  (newPacket_safe_iff _ 3 43 (by decide)).2 optionsDatagram (by decide)

def shortEcho : Bytes := [70, 0, 0, 28, 0, 1, 0, 0, 64, 1, 0, 0, 10, 0, 0, 1, 10, 0, 0, 2] ++
    [148, 4, 0, 0] ++ [8, 0, 0, 0]

theorem exists_panic : shortEcho.length = 28 ∧ newPacket (Slice.ofBytes
      (shortEcho ++ List.replicate 40 0)) 3 28 = .error .sliceBounds := by
  decide +kernel

end Pig.Icmp
