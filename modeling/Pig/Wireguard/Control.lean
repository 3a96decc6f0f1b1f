import Pig.Tunnel.Inbound

namespace Pig.Network.IPv4Packet

open Go

def mark (p : Slice) (flag : UInt8) : Checked Slice := do
  let old ← p.get 1
  p.set 1 (flag <<< 2 ||| (old &&& 0b00000011))

theorem mark_eq {p : Slice} {flag : UInt8} (hlen : 1 < p.len) : mark p flag =
      .ok (p.put 1 (flag <<< 2 ||| (p.byte 1 &&& 0b00000011))) := by
  rw [mark, Slice.get, if_pos hlen, ok_bind, Slice.set, if_pos hlen]

def getMark (p : Slice) : Checked UInt8 := do
  let byte ← p.get 1
  return byte >>> 2

end Pig.Network.IPv4Packet

namespace Pig.Wireguard

open Go Network

/-! The device carries IP packets only. A payload of another kind travels as the
data of an ICMP echo message with a mark of its own. -/

def controlMessageDSCPMark : UInt8 := 40
def controlMessageProtocol : Nat := 1
def controlMessageTTL : Nat := 1
def controlMessageSrc : Bytes := ipv4zero
def controlMessageDst : Bytes := ipv4zero

def headerLen : Nat := 20

structure Header where
  version : Nat
  len : Nat
  totalLen : Nat
  protocol : Nat
  src : Bytes
  dst : Bytes
  ttl : Nat
  deriving DecidableEq, Repr

/-- The packages `icmp` and `ipv4`: the bytes of an echo message with this
identifier, sequence number and data, and those of a header. -/
structure Library where
  marshalEcho : (id seq : Nat) → Bytes → Option Bytes
  marshalHeader : Header → Option Bytes

structure Library.Lawful (library : Library) : Prop where
  echo : ∀ id seq data, ∃ front, front.length = 8 ∧
    library.marshalEcho id seq data = some (front ++ data)
  header : ∀ h : Header, h.len = headerLen → to4 h.src ≠ [] → to4 h.dst ≠ [] → ∃ bytes,
    library.marshalHeader h = some bytes ∧ bytes.length = headerLen ∧ bytes.getD 0 0 = 0x45 ∧
    bytes.getD 9 0 = UInt8.ofNat h.protocol ∧ bytes.window 12 4 = to4 h.src ∧ bytes.window 16 4 =
    to4 h.dst

def newControlMessageFromPayload (library : Library) (pid : Nat) (b : Bytes) :
    Checked (Option Bytes) := do
  match library.marshalEcho (pid % 65536) 1 b with
  | none => return none
  | some icmpData =>
    let h : Header :=
      { version := 4
        len := headerLen
        totalLen := icmpData.length + headerLen
        protocol := controlMessageProtocol
        src := controlMessageSrc
        dst := controlMessageDst
        ttl := controlMessageTTL }
    match library.marshalHeader h with
    | none => return none
    | some ipV4Header =>
      let out := Slice.ofBytes (ipV4Header ++ icmpData)
      let out ← out.copyTo 2 4 (Bytes.ofNatBE 2 h.totalLen)
      let out ← out.copyTo 6 8 (Bytes.ofNatBE 2 0)
      let out ← IPv4Packet.mark out controlMessageDSCPMark
      let out ← IPv4Packet.updateChecksum out
      return some out.contents

def isComplete (b : Bytes) : Checked Bool := do
  let version ← IPv4Packet.version (Slice.ofBytes b)
  match IPPacket.ofVersion (Slice.ofBytes b) version with
  | some pkt => return decide ((← pkt.totalLength) = b.length)
  | none => return false

def wrapControlMessage (library : Library) (pid : Nat) (b : Bytes) : Checked (Bytes × Bool) := do
  if b.length < headerLen then return (b, false)
  if ← isComplete b then return (b, false)
  match ← newControlMessageFromPayload library pid b with
  | some ctrlMsg => return (ctrlMsg, true)
  | none => return (b, false)

/-- What is copied to a buffer of this size, and what is left for the reads that
follow, if the packet is a control message. Its slice may have more capacity. -/
def unwrapSlice (size : Nat) (packet : Slice) : Checked (Option (Bytes × Bytes)) := do
  if packet.len < headerLen then return none
  let pkt ← packet.between 0 headerLen
  if (← IPv4Packet.version pkt) ≠ 4 then return none
  if (← IPv4Packet.getMark pkt) ≠ controlMessageDSCPMark then return none
  if (← IPv4Packet.protocol pkt) ≠ UInt8.ofNat controlMessageProtocol then
    return none
  if !ipEqual (← IPv4Packet.sourceIP pkt) controlMessageSrc then return none
  if !ipEqual (← IPv4Packet.destinationIP pkt) controlMessageDst then
    return none
  let out ← packet.sub (headerLen + 8) (← IPv4Packet.totalLength pkt)
  return some (out.take size, out.drop size)

def unwrapControlMessage (size : Nat) (packet : Bytes) : Checked (Option (Bytes × Bytes)) :=
  unwrapSlice size (.ofBytes packet)

def IsControl (packet : Bytes) : Prop := headerLen ≤ packet.length ∧ (packet.getD 0 0 >>> 4).toNat =
  4 ∧ packet.getD 1 0 >>> 2 = controlMessageDSCPMark ∧ packet.getD 9 0 = UInt8.ofNat
  controlMessageProtocol ∧ packet.window 12 4 = [0, 0, 0, 0] ∧ packet.window 16 4 = [0, 0, 0, 0]

instance (packet : Bytes) : Decidable (IsControl packet) := inferInstanceAs (Decidable (_ ∧ _))

theorem ipEqual_zero {ip : Bytes} (hlength : ip.length = 4) :
    ipEqual ip ipv4zero = true ↔ ip = [0, 0, 0, 0] := by
  have hzero : ipv4zero.length = 16 := rfl
  have hdrop : ipv4zero.drop 12 = [0, 0, 0, 0] := rfl
  have htake : ipv4zero.take 12 = v4InV6 := rfl
  simp [ipEqual, hlength, hzero, hdrop, htake]

section

variable {packet : Bytes}

theorem unwrapSlice_eq (size : Nat) (packet : Slice) : unwrapSlice size packet =
      if IsControl packet.contents then do
        let out ← packet.sub (headerLen + 8) (wordAt packet 2)
        return some (out.take size, out.drop size)
      else return none := by
  rw [unwrapSlice]
  by_cases hshort : packet.len < headerLen
  · rw [if_pos hshort, if_neg fun hcontrol => Nat.not_lt.mpr
      (packet.length_contents ▸ hcontrol.1) hshort]
  have hlength := Nat.not_lt.mp hshort
  have hcap : headerLen ≤ packet.cap := Nat.le_trans hlength packet.len_le
  obtain ⟨pkt, hpkt, harray, hlen⟩ := packet.between_zero hcap
  have hget {index : Nat} (hindex : index < headerLen) :
      pkt.get index = .ok (packet.contents.getD index 0) := by
    rw [pkt.get_of_lt (hlen ▸ hindex), packet.getD_contents (Nat.lt_of_lt_of_le hindex hlength),
      Slice.byte, harray, Slice.byte]
  have hsub {low : Nat} (hlow : low + 4 ≤ headerLen) :
      pkt.sub low (low + 4) = .ok (packet.contents.window low 4) := by
    rw [Slice.sub, Slice.cap, harray, if_pos ⟨Nat.le_add_right .., Nat.le_trans hlow hcap⟩,
      Nat.add_sub_cancel_left, packet.window_contents (Nat.le_trans hlow hlength)]
  have hzero {low : Nat} (hlow : low + 4 ≤ headerLen) :
      ipEqual (packet.contents.window low 4) ipv4zero = true ↔
        packet.contents.window low 4 = [0, 0, 0, 0] :=
    ipEqual_zero (Bytes.length_window _ _ _ (by
      rw [packet.length_contents]
      exact Nat.le_trans hlow hlength))
  have hsource := hzero (show 12 + 4 ≤ headerLen by decide)
  have hdestination := hzero (show 16 + 4 ≤ headerLen by decide)
  have htotal : IPv4Packet.totalLength pkt = .ok (wordAt packet 2) := by
    rw [IPv4Packet.totalLength, word_eq (hlen ▸ by decide), wordAt, Slice.byte, Slice.byte, harray]
    rfl
  rw [if_neg hshort, hpkt, ok_bind, IPv4Packet.version, hget (by decide), IPv4Packet.getMark, hget
    (by decide), IPv4Packet.protocol, hget (by decide), IPv4Packet.sourceIP, hsub (by decide),
    IPv4Packet.destinationIP, hsub (by decide), htotal]
  simp only [ok_bind, pure_bind, Bool.not_eq_true', ← Bool.not_eq_true, controlMessageSrc,
    controlMessageDst, hsource, hdestination, ne_eq, ite_not, ← ite_and]
  exact if_congr (and_iff_right (packet.length_contents.symm ▸ hlength)).symm rfl rfl

theorem unwrapControlMessage_eq (size : Nat) : unwrapControlMessage size packet =
      if IsControl packet then do
        let out ← (Slice.ofBytes packet).sub (headerLen + 8) (wordAt (Slice.ofBytes packet) 2)
        return some (out.take size, out.drop size)
      else return none := by
  rw [unwrapControlMessage, unwrapSlice_eq, Slice.contents_ofBytes]

end

/-- The part of Read that follows the receipt of a packet: what is delivered,
unless the buffer is too short, and what is left. -/
def readPacket (size : Nat) (pkt : Slice) : Checked (Option Bytes × Bytes) := do
  match ← unwrapSlice size pkt with
  | some (copied, left) => return (some copied, left)
  | none => if size < pkt.len then return (none, []) else return (some pkt.contents, [])

/-- There is no panic, and no byte from outside the packet has an effect. -/
def Confined {Value : Type} (call : Slice → Checked Value) (pkt : Slice) : Prop :=
  Succeeds (call pkt) ∧ ∀ other : Slice, other.contents = pkt.contents → call other = call pkt

def Fits (pkt : Slice) : Prop := IsControl pkt.contents →
  headerLen + 8 ≤ wordAt pkt 2 ∧ wordAt pkt 2 ≤ pkt.len

section

variable {pkt other : Slice} {size : Nat}

theorem wordAt_of_contents (hcontents : other.contents = pkt.contents)
    (hcontrol : IsControl pkt.contents) : other.len = pkt.len ∧ wordAt other 2 = wordAt pkt 2 := by
  have hlen : other.len = pkt.len := by
    rw [← other.length_contents, hcontents, pkt.length_contents]
  have hheader : headerLen ≤ pkt.len := pkt.length_contents ▸ hcontrol.1
  have hbyte : ∀ index < headerLen, other.byte index = pkt.byte index := fun index hindex => by
    rw [← other.getD_contents (by omega), hcontents, pkt.getD_contents (by omega)]
  exact ⟨hlen, by rw [wordAt, hbyte 2 (by decide), hbyte 3 (by decide), wordAt]⟩

theorem unwrapSlice_of_fits (hcontents : other.contents = pkt.contents) (hfits : Fits pkt)
    (size : Nat) : unwrapSlice size other = .ok
      (if IsControl pkt.contents then
        let out := pkt.contents.window (headerLen + 8) (wordAt pkt 2 - (headerLen + 8))
        some (out.take size, out.drop size)
      else none) := by
  rw [unwrapSlice_eq, hcontents]
  split
  · next hcontrol =>
    obtain ⟨hlen, hword⟩ := wordAt_of_contents hcontents hcontrol
    obtain ⟨hlow, hhigh⟩ := hfits hcontrol
    rw [hword, other.sub_of_le hlow (hlen ▸ hhigh), hcontents]
    rfl
  · rfl

theorem readPacket_of_fits (hcontents : other.contents = pkt.contents) (hfits : Fits pkt) :
    ∃ result, readPacket size pkt = .ok result ∧ readPacket size other = .ok result := by
  have hlen : other.len = pkt.len := by
    rw [← other.length_contents, hcontents, pkt.length_contents]
  rw [readPacket, readPacket, unwrapSlice_of_fits hcontents hfits, unwrapSlice_of_fits rfl hfits,
    hlen, hcontents]
  split
  · exact ⟨_, rfl, rfl⟩
  · split <;> exact ⟨_, rfl, rfl⟩

/-- A packet of the device is unwrapped and read safely exactly if it is no
control message, or its stated length is that of a payload that is there. -/
theorem confined_iff_fits (pkt : Slice) :
    (∀ size, Confined (unwrapSlice size) pkt ∧ Confined (readPacket size) pkt) ↔ Fits pkt := by
  constructor
  · intro confined hcontrol
    obtain ⟨⟨result, hresult⟩, hsame⟩ := (confined 0).1
    -- The packet is read alike if nothing follows it.
    have hexact := hsame (.ofBytes pkt.contents) (Slice.contents_ofBytes _)
    obtain ⟨hlen, hword⟩ := wordAt_of_contents (Slice.contents_ofBytes pkt.contents) hcontrol
    rw [hresult, unwrapSlice_eq, Slice.contents_ofBytes, if_pos hcontrol, hword] at hexact
    obtain ⟨out, hout, -⟩ := bind_eq_ok.mp hexact
    obtain ⟨⟨hlow, hhigh⟩, -⟩ := (Slice.sub_eq_ok_iff _).mp hout
    rw [Slice.cap_ofBytes, pkt.length_contents] at hhigh
    exact ⟨hlow, hhigh⟩
  · intro hfits size
    refine ⟨⟨⟨_, unwrapSlice_of_fits rfl hfits size⟩, fun other hcontents => ?_⟩, ⟨?_, fun other
      hcontents => ?_⟩⟩
    · rw [unwrapSlice_of_fits hcontents hfits, unwrapSlice_of_fits rfl hfits]
    · obtain ⟨result, hresult, -⟩ := @readPacket_of_fits pkt pkt size rfl hfits
      exact ⟨result, hresult⟩
    · obtain ⟨result, hresult, hother⟩ := @readPacket_of_fits pkt other size hcontents hfits
      rw [hresult, hother]

end

/-- A control message of 28 bytes that states this length, with eight more
bytes behind it in the buffer. -/
def markedPacket (totalLength : UInt8) : Slice where
  array := 0x45 :: 160 :: 0 :: totalLength :: [0, 0, 0, 0, 1, 1] ++ List.replicate 18 0 ++
    List.replicate 8 0xaa
  len := 28
  len_le := by simp

/-- Too short a length panics, and too long a one delivers what was in the
buffer before. -/
theorem exists_not_confined : unwrapSlice 64 (markedPacket 20) = .error .sliceBounds ∧
    unwrapSlice 64 (markedPacket 36) = .ok (some (List.replicate 8 0xaa, [])) ∧
    ¬ (∀ size, Confined (unwrapSlice size) (markedPacket 36) ∧
      Confined (readPacket size) (markedPacket 36)) := by
  refine ⟨by decide +kernel, by decide +kernel, fun confined => ?_⟩
  have hsame := (confined 64).1.2 (.ofBytes (markedPacket 36).contents) (Slice.contents_ofBytes _)
  exact absurd hsame (by decide +kernel)

def LooksLikeIPv4 (b : Bytes) : Prop :=
  (b.getD 0 0 >>> 4).toNat = 4 ∧ wordAt (Slice.ofBytes b) 2 = b.length

def LooksLikeIPv6 (b : Bytes) : Prop :=
  (b.getD 0 0 >>> 4).toNat = 6 ∧ wordAt (Slice.ofBytes b) 4 + 40 = b.length

instance (b : Bytes) : Decidable (LooksLikeIPv4 b) := inferInstanceAs (Decidable (_ ∧ _))

instance (b : Bytes) : Decidable (LooksLikeIPv6 b) := inferInstanceAs (Decidable (_ ∧ _))

variable {b : Bytes}

theorem isComplete_eq (hlength : headerLen ≤ b.length) :
    isComplete b = .ok (decide (LooksLikeIPv4 b ∨ LooksLikeIPv6 b)) := by
  have hget : (Slice.ofBytes b).get 0 = .ok (b.getD 0 0) :=
    Slice.get_ofBytes (Nat.lt_of_lt_of_le (by decide) hlength)
  have hknown (pkt : IPPacket) (hpkt : pkt.slice = Slice.ofBytes b)
      (hiff : pkt.statedLength = b.length ↔ LooksLikeIPv4 b ∨ LooksLikeIPv6 b) :
      (do return decide ((← pkt.totalLength) = b.length)) =
        Except.ok (decide (LooksLikeIPv4 b ∨ LooksLikeIPv6 b)) := by
    rw [IPPacket.totalLength_eq (hpkt ▸ Nat.le_trans (by decide) hlength)]
    exact congrArg Except.ok (decide_eq_decide.mpr hiff)
  simp only [isComplete, IPv4Packet.version, hget, ok_bind, pure_bind]
  by_cases h4 : (b.getD 0 0 >>> 4).toNat = 4
  · rw [h4]
    exact hknown (.v4 (Slice.ofBytes b)) rfl
      (by rw [LooksLikeIPv4, LooksLikeIPv6, h4]; simp [IPPacket.statedLength])
  by_cases h6 : (b.getD 0 0 >>> 4).toNat = 6
  · rw [h6]
    exact hknown (.v6 (Slice.ofBytes b)) rfl
      (by rw [LooksLikeIPv4, LooksLikeIPv6, h6]; simp [IPPacket.statedLength])
  · rw [IPPacket.ofVersion.eq_3 _ _ h4 h6]
    refine congrArg Except.ok (decide_eq_false ?_).symm
    rintro (hlooks | hlooks)
    · exact h4 hlooks.1
    · exact h6 hlooks.1

variable {library : Library}

theorem wrapControlMessage_of_complete {pid : Nat}
    (hb : b.length < headerLen ∨ LooksLikeIPv4 b ∨ LooksLikeIPv6 b) :
    wrapControlMessage library pid b = .ok (b, false) := by
  rw [wrapControlMessage]
  split
  · rfl
  · next hlength =>
      rw [isComplete_eq (Nat.not_lt.mp hlength), ok_bind, decide_eq_true (hb.resolve_left hlength)]
      rfl

theorem wrapControlMessage_of_other {pid : Nat} {message : Bytes}
    (hlength : headerLen ≤ b.length) (h4 : ¬ LooksLikeIPv4 b) (h6 : ¬ LooksLikeIPv6 b)
    (hmessage : newControlMessageFromPayload library pid b = .ok (some message)) :
    wrapControlMessage library pid b = .ok (message, true) := by
  rw [wrapControlMessage, if_neg (Nat.not_lt.mpr hlength), isComplete_eq hlength, ok_bind,
    decide_eq_false (not_or.mpr ⟨h4, h6⟩), hmessage]
  rfl

structure Encloses (message b : Bytes) : Prop where
  length_eq : message.length = headerLen + 8 + b.length
  control : IsControl message
  header_eq : IPv4Packet.headerLen (Slice.ofBytes message) = headerLen
  total_eq : wordAt (Slice.ofBytes message) 2 = message.length
  drop_eq : message.drop (headerLen + 8) = b

theorem Encloses.unwrap {message : Bytes} (encloses : Encloses message b) (size : Nat) :
    unwrapControlMessage size message = .ok (some (b.take size, b.drop size)) := by
  have hsub : (Slice.ofBytes message).sub (headerLen + 8) message.length = .ok b := by
    have hlength := encloses.length_eq
    have hinside : headerLen + 8 ≤ message.length := by omega
    rw [Slice.sub_ofBytes hinside (Nat.le_refl _), Bytes.window,
      encloses.drop_eq, List.take_of_length_le (by omega)]
  rw [unwrapControlMessage_eq, if_pos encloses.control, encloses.total_eq, hsub, ok_bind]
  rfl

def stamp (out : Slice) (totalLen : Nat) : Slice := ((out.write 2 (Bytes.ofNatBE 2 totalLen)).write
  6 (Bytes.ofNatBE 2 0)).put 1 (controlMessageDSCPMark <<< 2 ||| (out.byte 1 &&& 0b00000011))

theorem changedAt_stamp (out : Slice) (totalLen : Nat) :
    out.ChangedAt (fun index => 1 ≤ index ∧ index < 8) (stamp out totalLen) := by
  have hlength : out.ChangedAt (fun index => 1 ≤ index ∧ index < 8)
      (out.write 2 (Bytes.ofNatBE 2 totalLen)) := by
    refine .write out fun index hlow hhigh => ?_
    rw [Bytes.length_ofNatBE] at hhigh
    omega
  refine (hlength.trans (.write _ fun index hlow hhigh => ?_)).trans (.put _ _ (by decide))
  rw [Bytes.length_ofNatBE] at hhigh
  omega

variable {out : Slice}

theorem mark_stamp (totalLen : Nat) (hcap : 1 < out.cap) :
    (stamp out totalLen).byte 1 >>> 2 = controlMessageDSCPMark := by
  rw [stamp, Slice.byte_put_self _ (by simpa using hcap)]
  have hmark : ∀ old : BitVec 8, ((40 : BitVec 8) <<< 2 ||| (old &&& 3)) >>> 2 = 40 := by decide
  apply UInt8.eq_of_toBitVec_eq
  simpa [controlMessageDSCPMark] using hmark (out.byte 1).toBitVec

theorem wordAt_stamp {totalLen : Nat} (hcap : 4 ≤ out.cap)
    (htotal : totalLen < 65536) : wordAt (stamp out totalLen) 2 = totalLen := by
  have hlength := Bytes.length_ofNatBE 2 totalLen
  have hbyte {index : Nat} (hlow : 2 ≤ index) (hhigh : index < 4) : (stamp out totalLen).byte index
      = (Bytes.ofNatBE 2 totalLen).getD (index - 2) 0 := by
    rw [stamp, Slice.byte_put_of_ne _ (by omega), Slice.byte_write_of_outside _ (.inl (by omega)),
      Slice.byte_write_of_inside _ hlow (by omega) (by omega)]
  rw [wordAt, hbyte (by decide) (by decide), hbyte (by decide) (by decide)]
  simp only [Bytes.ofNatBE]
  simp
  omega

theorem stamp_bind {Result : Type} (totalLen : Nat)
    (hlen : 8 ≤ out.len) (next : Slice → Checked Result) :
    (do
      let out ← out.copyTo 2 4 (Bytes.ofNatBE 2 totalLen)
      let out ← out.copyTo 6 8 (Bytes.ofNatBE 2 0)
      let out ← IPv4Packet.mark out controlMessageDSCPMark
      next out) = next (stamp out totalLen) := by
  have hcap : 8 ≤ out.cap := Nat.le_trans hlen out.len_le
  have htake (number : Nat) : (Bytes.ofNatBE 2 number).take 2 = Bytes.ofNatBE 2 number :=
    List.take_of_length_le (Nat.le_of_eq (Bytes.length_ofNatBE ..))
  rw [Slice.copyTo, if_pos ⟨by decide, by omega⟩, ok_bind, Slice.copyTo, if_pos
    ⟨by decide, by simpa using hcap⟩, ok_bind, htake, htake, IPv4Packet.mark_eq
    (by simpa using (show 1 < out.len by omega)), ok_bind, Slice.byte_write_of_outside _
    (.inl (by decide)), Slice.byte_write_of_outside _ (.inl (by decide))]
  rfl

section

variable {header front : Bytes} {message : Slice}

theorem byte_front (hheader : header.length = headerLen) {index : Nat}
    (hindex : index < headerLen) :
    (Slice.ofBytes (header ++ front ++ b)).byte index = header.getD index 0 := by
  rw [Slice.byte_ofBytes, List.append_assoc, List.getD_eq_getElem?_getD,
    List.getElem?_append_left (hheader ▸ hindex), List.getD_eq_getElem?_getD]

theorem encloses_contents (hheader : header.length = headerLen) (hfront : front.length = 8)
    (hfirst : header.getD 0 0 = 0x45) (hprotocol : header.getD 9 0 = UInt8.ofNat
    controlMessageProtocol) (hsrc : header.window 12 4 = [0, 0, 0, 0])
    (hdst : header.window 16 4 = [0, 0, 0, 0]) (changed : (Slice.ofBytes
    (header ++ front ++ b)).ChangedAt (fun index => (1 ≤ index ∧ index < 8) ∨
    (10 ≤ index ∧ index < 12) ∨ 22 ≤ index ∧ index < 24) message) (hmark : message.byte 1 >>> 2 =
    controlMessageDSCPMark) (htotal : wordAt message 2 = headerLen + 8 + b.length) :
    Encloses message.contents b := by
  have hcap : message.cap = headerLen + 8 + b.length := by
    rw [changed.cap_eq, Slice.cap_ofBytes, List.length_append, List.length_append, hheader, hfront]
  have hlen : message.len = headerLen + 8 + b.length := by
    rw [changed.len_eq, ← hcap, changed.cap_eq]
    rfl
  have hcontents : message.contents = message.array :=
    List.take_of_length_le (Nat.le_of_eq (hcap.trans hlen.symm))
  have hbyte (index : Nat) (hindex : index = 0 ∨ index = 9) :
      message.byte index = header.getD index 0 := by
    rw [changed.byte_eq _ (by omega), byte_front hheader]
    rw [headerLen]
    omega
  have hwindow (start : Nat) (hlow : 12 ≤ start) (hhigh : start + 4 ≤ 20) :
      message.array.window start 4 = header.window start 4 := by
    rw [changed.window_eq, Slice.ofBytes, List.append_assoc,
      Bytes.window_append_left _ _ _ _ (hheader ▸ hhigh)]
    · rw [← changed.cap_eq, hcap, headerLen]
      omega
    · omega
  have hdrop : message.array.drop (headerLen + 8) = b := by
    have hkept : message.array.window (headerLen + 8) b.length =
        (header ++ front ++ b).window (headerLen + 8) b.length := by
      refine changed.window_eq ?_ ?_
      · rw [← changed.cap_eq, hcap]
      · rw [headerLen]
        omega
    have hfront : (header ++ front).length = headerLen + 8 := by
      rw [List.length_append, hheader, hfront]
    rw [Bytes.window, Bytes.window, List.drop_left' hfront, List.take_length,
      List.take_of_length_le] at hkept
    · exact hkept
    · rw [List.length_drop, ← Slice.cap, hcap, Nat.add_sub_cancel_left]
  rw [hcontents]
  refine ⟨hcap, ⟨?_, ?_, hmark, ?_, ?_, ?_⟩, ?_, ?_, hdrop⟩
  · rw [← Slice.cap, hcap]
    exact Nat.le_trans (Nat.le_add_right ..) (Nat.le_add_right ..)
  · change (message.byte 0 >>> 4).toNat = 4
    rw [hbyte 0 (.inl rfl), hfirst]
    rfl
  · exact (hbyte 9 (.inr rfl)).trans hprotocol
  · exact (hwindow 12 (by decide) (by decide)).trans hsrc
  · exact (hwindow 16 (by decide) (by decide)).trans hdst
  · change (message.byte 0 &&& 0x0f).toNat * 4 = headerLen
    rw [hbyte 0 (.inl rfl), hfirst]
    rfl
  · exact htotal.trans hcap.symm

end

theorem exists_updateChecksum {p : Slice} (hlength : IPv4Packet.headerLen p = headerLen)
    (hicmp : p.byte 9 = protocolICMP) (hlen : headerLen + 8 ≤ p.len) :
    ∃ after, IPv4Packet.updateChecksum p = .ok after ∧ p.ChangedAt
        (fun index => (10 ≤ index ∧ index < 12) ∨ 22 ≤ index ∧ index < 24)
        after := by
  have hfits : IPv4Packet.ChecksumFits p := by
    rw [IPv4Packet.ChecksumFits, hlength, hicmp]
    refine fun _ => ⟨by omega, fun _ => by omega, fun htcp => ?_⟩
    cases htcp
  obtain ⟨after, hafter⟩ := (IPv4Packet.succeeds_updateChecksum
      (Nat.le_trans (Nat.le_add_right ..) hlen)).mpr hfits
  refine ⟨after, hafter, (IPv4Packet.changedAt_updateChecksum hafter).widen ?_⟩
  rintro index (hplace | ⟨offset, hoffset, hplace⟩)
  · simp only [WordPlaces] at hplace
    omega
  · rw [hicmp] at hoffset
    cases hoffset
    rw [hlength] at hplace
    simp only [WordPlaces, headerLen] at hplace
    omega

theorem exists_encloses (lawful : library.Lawful) (pid : Nat) (hlength : b.length ≤ 65507) :
    ∃ message, newControlMessageFromPayload library pid b =
      .ok (some message) ∧ Encloses message b := by
  obtain ⟨front, hfront, hecho⟩ := lawful.echo (pid % 65536) 1 b
  obtain ⟨header, hheader, hheaderLen, hfirst, hprotocol, hsrc, hdst⟩ := lawful.header
      ⟨4, headerLen, (front ++ b).length + headerLen, controlMessageProtocol, controlMessageSrc,
      controlMessageDst, controlMessageTTL⟩ rfl (show to4 controlMessageSrc ≠ [] by decide)
      (show to4 controlMessageDst ≠ [] by decide)
  have htotal : (front ++ b).length + headerLen = headerLen + 8 + b.length := by
    rw [List.length_append, hfront]
    omega
  rw [newControlMessageFromPayload, hecho]
  dsimp only
  rw [hheader]
  dsimp only
  rw [htotal, ← List.append_assoc]
  have hbyte {index : Nat} (hindex : index < headerLen) : (Slice.ofBytes
    (header ++ front ++ b)).byte index = header.getD index 0 := byte_front hheaderLen hindex
  generalize hout : Slice.ofBytes (header ++ front ++ b) = out at hbyte ⊢
  have hlen : out.len = headerLen + 8 + b.length := by
    rw [← hout, Slice.len_ofBytes, List.length_append, List.length_append, hheaderLen, hfront]
  have hcap : headerLen + 8 ≤ out.cap := Nat.le_trans (by omega) out.len_le
  rw [stamp_bind _ (by omega)]
  have hstamp := changedAt_stamp out (headerLen + 8 + b.length)
  have hword : wordAt (stamp out (headerLen + 8 + b.length)) 2 = headerLen + 8 + b.length :=
    wordAt_stamp (Nat.le_trans (by decide) hcap) (by rw [headerLen]; omega)
  have hmark := mark_stamp (headerLen + 8 + b.length) (Nat.lt_of_lt_of_le (by decide) hcap)
  generalize stamp out (headerLen + 8 + b.length) = stamped at *
  have hlength : IPv4Packet.headerLen stamped = headerLen := by
    rw [IPv4Packet.headerLen, hstamp.byte_eq 0 (by omega), hbyte (by decide), hfirst]
    rfl
  have hicmp : stamped.byte 9 = protocolICMP := by
    rw [hstamp.byte_eq 9 (by omega), hbyte (by decide), hprotocol]
    rfl
  obtain ⟨message, hmessage, hsums⟩ := exists_updateChecksum hlength hicmp
    (by rw [hstamp.len_eq, hlen]; exact Nat.le_add_right ..)
  have hkept := IPv4Packet.header_of_changedAt hsums (by omega)
  refine ⟨message.contents, by rw [hmessage]; rfl,
    encloses_contents hheaderLen hfront hfirst hprotocol hsrc hdst ?_ ?_ ?_⟩
  · rw [hout]
    exact (hstamp.widen fun _ => .inl).trans (hsums.widen fun _ => .inr)
  · rw [hsums.byte_eq 1 (by omega), hmark]
  · rw [hkept.2.1, hword]

end Pig.Wireguard
