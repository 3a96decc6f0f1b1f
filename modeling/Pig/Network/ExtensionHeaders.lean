import Pig.Network.IPv6
import Pig.Network.Verification

namespace Pig.Network.IPv6Packet

open Go OnesComplement
open IPv4Packet (Completes completes_foldSum completes_nonzero)

/-! The loop over the extension headers ends, and it ends at the segment that a
chain of them leads to. -/

inductive Ends (p : Slice) (stop : Nat) :
    UInt8 → Nat → Option Transport → Prop
  | found {nextHeader : UInt8} {offset : Nat} {found : Option Transport}
      (hwalk : walk p stop nextHeader offset = .ok (.found found)) :
      Ends p stop nextHeader offset found
  | next {nextHeader following : UInt8} {offset further : Nat} {found : Option Transport}
      (hwalk : walk p stop nextHeader offset = .ok (.next following further))
      (rest : Ends p stop following further found) :
      Ends p stop nextHeader offset found

/-- A chain of extension headers that ends where a header of the kind `protocol`
starts. -/
inductive Chain (p : Slice) (stop : Nat) (protocol : UInt8) (start : Nat) :
    UInt8 → Nat → Prop
  | segment : Chain p stop protocol start protocol start
  | options {nextHeader : UInt8} {offset : Nat}
      (kind : nextHeader = ipProtoHopByHop ∨ nextHeader = ipProtoDestOpts ∨
        nextHeader = ipProtoRouting ∧ p.byte (offset + 3) = 0)
      (inside : offset + ((p.byte (offset + 1)).toNat + 1) * 8 ≤ stop)
      (rest : Chain p stop protocol start (p.byte offset)
        (offset + ((p.byte (offset + 1)).toNat + 1) * 8)) :
      Chain p stop protocol start nextHeader offset
  | authentication {offset : Nat} (inside : offset + ((p.byte (offset + 1)).toNat + 2) * 4 ≤ stop)
      (rest : Chain p stop protocol start (p.byte offset)
        (offset + ((p.byte (offset + 1)).toNat + 2) * 4)) :
      Chain p stop protocol start ipProtoAH offset

def stated (p : Slice) : Nat := 40 + wordAt p 4

/-- UDP states its own length. -/
def upperLayerLen (p : Slice) (protocol : UInt8) (start : Nat) : Nat :=
  if protocol = ipProtoUDP then wordAt p (start + 4) else stated p - start

def leastSegment (protocol : UInt8) : Nat :=
  if protocol = ipProtoTCP then 20
  else if protocol = ipProtoUDP then 8
  else 4

/-- A whole packet at the front of a buffer, with a chain of extension headers
and a segment of the protocol at `start`. -/
structure Carries (p : Slice) (protocol : UInt8) (start : Nat) : Prop where
  version_eq : (p.byte 0 >>> 4).toNat = 6
  total_le : stated p ≤ p.len
  chain : Chain p (stated p) protocol start (p.byte 6) 40
  protocol_mem : protocol = ipProtoTCP ∨ protocol = ipProtoUDP ∨ protocol = ipProtoICMPv6
  segment_le : start + leastSegment protocol ≤ stated p
  udp_length : protocol = ipProtoUDP →
    8 ≤ wordAt p (start + 4) ∧ start + wordAt p (start + 4) ≤ stated p

def pseudoHeader (p : Slice) (protocol : UInt8) (length : Nat) : Bytes :=
  p.array.window 8 32 ++ Bytes.ofNatBE 4 length ++ [0, 0, 0, protocol]

def SegmentVerifies (p : Slice) (protocol : UInt8) (start length : Nat) : Prop :=
  Verifies (pseudoHeader p protocol length ++ p.array.window start length)

instance (p : Slice) (protocol : UInt8) (start length : Nat) : Decidable
  (SegmentVerifies p protocol start length) := inferInstanceAs (Decidable (Verifies _))

section

variable {p : Slice} {stop start offset : Nat} {protocol nextHeader : UInt8}

theorem walkHeaders_ends (hstop : stop ≤ p.len) (fuel : Nat)
    (nextHeader : UInt8) (offset : Nat) (hfuel : stop ≤ offset + 8 * fuel) :
    ∃ found, walkHeaders p stop fuel nextHeader offset = .ok found ∧
      Ends p stop nextHeader offset found := by
  induction fuel generalizing nextHeader offset with
  | zero =>
    obtain hwalk | ⟨-, hoffset, -⟩ | ⟨following, further, hlow, hhigh, -⟩ :=
      walk_cases hstop nextHeader offset
    · exact ⟨none, rfl, .found hwalk⟩
    · omega
    · omega
  | succ fuel ih =>
    rw [walkHeaders]
    obtain hwalk | ⟨-, -, hwalk⟩ | ⟨following, further, hlow, -, hwalk⟩ :=
      walk_cases hstop nextHeader offset
    · rw [hwalk]
      exact ⟨none, rfl, .found hwalk⟩
    · rw [hwalk]
      exact ⟨_, rfl, .found hwalk⟩
    · obtain ⟨found, hfound, ends⟩ := ih following further (by omega)
      rw [hwalk]
      exact ⟨found, hfound, .next hwalk ends⟩

theorem Ends.unique {found other : Option Transport} (ends : Ends p stop nextHeader offset found)
    (same : Ends p stop nextHeader offset other) : found = other := by
  induction ends with
  | found hwalk =>
    cases same with
    | found hother =>
      cases hwalk.symm.trans hother
      rfl
    | next hother =>
      cases hwalk.symm.trans hother
  | next hwalk rest ih =>
    cases same with
    | found hother =>
      cases hwalk.symm.trans hother
    | next hother others =>
      cases hwalk.symm.trans hother
      exact ih others

theorem skipExtension_eq (hstop : stop ≤ p.len) (extLen : UInt8 → Nat)
    (hext : ∀ size, 8 ≤ extLen size) (inside : offset + extLen (p.byte (offset + 1)) ≤ stop) :
    skipExtension p stop offset extLen = .ok (.next (p.byte offset)
      (offset + extLen (p.byte (offset + 1)))) := by
  have hlong := hext (p.byte (offset + 1))
  rw [skipExtension, if_neg (by omega), p.get_of_lt (by omega), ok_bind,
    p.get_of_lt (by omega), ok_bind, if_neg (by omega)]
  rfl

theorem Chain.ends (chain : Chain p stop protocol start nextHeader offset) (hstop : stop ≤ p.len)
    (hprotocol : protocol = ipProtoTCP ∨ protocol = ipProtoUDP ∨
      protocol = ipProtoICMPv6) (hstart : start < stop) :
    Ends p stop nextHeader offset (some ⟨protocol, start, stop - start⟩) := by
  induction chain with
  | segment =>
    apply Ends.found
    rw [walk, if_pos hprotocol, if_neg (by omega)]
    rfl
  | @options nextHeader offset kind inside rest ih =>
    refine Ends.next ?_ ih
    have hskip := skipExtension_eq hstop (fun size => (size.toNat + 1) * 8)
      (by intro size; omega) inside
    rw [← hskip]
    obtain rfl | rfl | ⟨rfl, -⟩ := kind <;> rfl
  | @authentication offset inside rest ih =>
    refine Ends.next ?_ ih
    have hskip := skipExtension_eq hstop (fun size => (size.toNat + 2) * 4)
      (by intro size; omega) inside
    rw [← hskip]
    rfl

theorem Chain.start_ge (chain : Chain p stop protocol start nextHeader offset) :
    offset ≤ start := by
  induction chain with
  | segment => exact Nat.le_refl _
  | options _ _ _ ih | authentication _ _ ih => omega

theorem transportHeader_ends (hlen : 40 ≤ p.len) : ∃ found, transportHeader p = .ok found ∧
      Ends p (min (stated p) p.len) (p.byte 6) 40 found := by
  obtain ⟨found, hfound, ends⟩ := walkHeaders_ends
    (Nat.min_le_right (stated p) p.len) p.len (p.byte 6) 40 (by omega)
  refine ⟨found, ?_, ends⟩
  rw [transportHeader, if_neg (by omega), word_bind_eq_ok, p.get_bind_eq_ok]
  exact ⟨by omega, by omega, hfound⟩

theorem Carries.start_lt (carries : Carries p protocol start) : start < stated p := by
  have hsegment := carries.segment_le
  have hleast : 0 < leastSegment protocol := by
    rw [leastSegment]
    split
    · decide
    · split <;> decide
  omega

theorem Carries.transportHeader_eq (carries : Carries p protocol start) : transportHeader p =
      .ok (some ⟨protocol, start, stated p - start⟩) := by
  have htotal := carries.total_le
  have hstart := carries.start_lt
  have hlen : 40 ≤ p.len := Nat.le_trans (Nat.le_add_right 40 _) htotal
  obtain ⟨found, hfound, ends⟩ := transportHeader_ends hlen
  rw [Nat.min_eq_left htotal] at ends
  rw [hfound, ends.unique (carries.chain.ends htotal carries.protocol_mem hstart)]

end

section

variable {p after : Slice} {protocol : UInt8} {start length : Nat}

theorem length_pseudoHeader (hcap : 40 ≤ p.cap) : (pseudoHeader p protocol length).length = 40 := by
  have haddresses : (p.array.window 8 32).length = 32 := Bytes.length_window _ _ _ hcap
  simp only [pseudoHeader, List.length_append, haddresses,
    Bytes.length_ofNatBE, List.length_cons, List.length_nil]

theorem total_pseudoHeader (hcap : 40 ≤ p.cap) (hlength : length < 65536) :
    total (pseudoHeader p protocol length) = wordSum p 8 16 + length + protocol.toNat := by
  have haddresses : total (p.array.window 8 32) = wordSum p 8 16 := total_window p 8 16 hcap
  have hfield : total (Bytes.ofNatBE 4 length) = length := by
    simp only [total, words, Bytes.ofNatBE, List.nil_append, List.cons_append,
      List.sum_cons, List.sum_nil, UInt8.toNat_ofNat']
    omega
  have hprotocol : total [0, 0, 0, protocol] = protocol.toNat := by
    simp [total, words]
  have haddressesLength : (p.array.window 8 32).length = 32 := Bytes.length_window _ _ _ hcap
  rw [pseudoHeader, total_append, total_append, haddresses, hfield, hprotocol]
  · rw [haddressesLength]
  · rw [List.length_append, haddressesLength, Bytes.length_ofNatBE]

theorem pseudoHeaderSum_eq (hlen : 40 ≤ p.len) (hlength : length < 65536) :
    pseudoHeaderSum p protocol length =
      .ok (UInt32.ofNat (wordSum p 8 16 + length + protocol.toNat)) := by
  have hhigh : (UInt32.ofNat length >>> 16).toUInt16.toUInt32 = 0 := by
    apply UInt32.toNat_inj.1
    simp only [UInt16.toNat_toUInt32, UInt32.toNat_toUInt16,
      UInt32.toNat_shiftRight, UInt32.toNat_ofNat', UInt32.reduceToNat,
      Nat.reduceMod, Nat.reducePow, Nat.shiftRight_eq_div_pow]
    omega
  have hlow : (UInt16.ofNat length).toUInt32 = UInt32.ofNat length := by
    apply UInt32.toNat_inj.1
    simp only [UInt16.toNat_toUInt32, UInt16.toNat_ofNat', UInt32.toNat_ofNat', Nat.reducePow]
    omega
  have hprotocol : protocol.toUInt32 = UInt32.ofNat protocol.toNat := by
    simp
  rw [pseudoHeaderSum, sumWords_zero p hlen, ok_bind, hhigh, hlow, hprotocol,
    UInt32.add_zero, ← UInt32.ofNat_add, ← UInt32.ofNat_add]
  rfl

theorem total_covered (hcap : 40 ≤ p.cap) (hlength : length < 65536) :
    total (pseudoHeader p protocol length ++ p.array.window start length) = wordSum p 8 16 + length
      + protocol.toNat + total (p.array.window start length) := by
  rw [total_append (by rw [length_pseudoHeader hcap]), total_pseudoHeader hcap hlength]

theorem segmentVerifies_resum (place : Nat) {checksum : UInt32 → UInt16} (hstart : 40 ≤ start)
    (hplace : 2 * place + 1 < length) (hend : start + length ≤ p.len) (hlength : length < 65536)
    (hcompletes : Completes checksum) (hresum : resum p (start + 2 * place) (fun q => do
      let sum ← pseudoHeaderSum q protocol length
      let sum ← sumTransport q start length sum
      return checksum sum) = .ok after) :
    SegmentVerifies after protocol start length := by
  obtain ⟨found, hfound, hzero, hword, changed⟩ := resum_eq_ok hresum
  have hlen : start + length ≤ (cleared p (start + 2 * place)).len := hend
  generalize cleared p (start + 2 * place) = middle at *
  have hcap : start + length ≤ middle.cap := Nat.le_trans hlen middle.len_le
  have hwords : wordSum after 8 16 = wordSum middle 8 16 := by
    apply wordSum_congr
    intro index _ hindex
    apply changed.byte_eq
    rintro (rfl | rfl) <;> omega
  have htotal : total (pseudoHeader after protocol length ++ after.array.window start length) =
        total (pseudoHeader middle protocol length ++
          middle.array.window start length) + found.toNat := by
    rw [total_covered (by rw [changed.cap_eq]; omega) hlength, total_covered (by omega) hlength,
      hwords, total_window_of_changedAt _ place _ changed hplace hcap hzero, hword]
    omega
  have hbound : total (pseudoHeader middle protocol length ++
      middle.array.window start length) < 4294967296 := by
    have hsegment := OnesComplement.total_le (middle.array.window start length)
    have hwords := wordSum_le middle 8 16
    have hbyte := protocol.toNat_lt
    rw [Bytes.length_window _ _ _ hcap] at hsegment
    rw [total_covered (by omega) hlength]
    omega
  rw [pseudoHeaderSum_eq (by omega) hlength, ok_bind, sumTransport_eq middle _ hlen, ok_bind,
    ← total_covered (by omega) hlength] at hfound
  rw [SegmentVerifies, verifies_iff, htotal, ← Except.ok.inj hfound]
  exact hcompletes _ hbound

namespace Carries

theorem start_ge (carries : Carries p protocol start) : 40 ≤ start := carries.chain.start_ge

theorem length_lt (carries : Carries p protocol start) :
    upperLayerLen p protocol start < 65536 := by
  have hword := wordAt_le p (start + 4)
  have htotal := wordAt_le p 4
  have hstart := carries.start_ge
  rw [upperLayerLen, stated]
  split <;> omega

theorem segmentVerifies_tcp (carries : Carries p ipProtoTCP start)
    (hupdate : updateTCPChecksum p = .ok after) :
    SegmentVerifies after ipProtoTCP start (upperLayerLen p ipProtoTCP start) := by
  have htotal := carries.total_le
  have hlength := carries.length_lt
  have hsegment : start + 20 ≤ stated p := carries.segment_le
  rw [upperLayerLen, if_neg (by decide)] at hlength ⊢
  rw [updateTCPChecksum, carries.transportHeader_eq, ok_bind] at hupdate
  dsimp only at hupdate
  rw [if_neg (by simp), if_neg (by omega)] at hupdate
  exact segmentVerifies_resum 8 carries.start_ge (by omega) (by omega) hlength
    completes_foldSum hupdate

theorem segmentVerifies_udp (carries : Carries p ipProtoUDP start)
    (hupdate : updateUDPChecksum p = .ok after) :
    SegmentVerifies after ipProtoUDP start (upperLayerLen p ipProtoUDP start) := by
  have htotal := carries.total_le
  have hlength := carries.length_lt
  obtain ⟨hlong, hinside⟩ := carries.udp_length rfl
  rw [upperLayerLen, if_pos rfl] at hlength ⊢
  rw [updateUDPChecksum, carries.transportHeader_eq, ok_bind] at hupdate
  dsimp only at hupdate
  rw [if_neg (by simp), if_neg (by omega), word_bind_eq_ok,
    if_neg (by omega), sumDatagram, if_neg (by omega)] at hupdate
  exact segmentVerifies_resum 3 carries.start_ge (by omega) (by omega) hlength
    completes_nonzero hupdate.2

theorem segmentVerifies_icmpv6 (carries : Carries p ipProtoICMPv6 start)
    (hupdate : updateICMPv6Checksum p start (stated p - start) = .ok after) :
    SegmentVerifies after ipProtoICMPv6 start (upperLayerLen p ipProtoICMPv6 start) := by
  have htotal := carries.total_le
  have hlength := carries.length_lt
  have hsegment : start + 4 ≤ stated p := carries.segment_le
  rw [upperLayerLen, if_neg (by decide)] at hlength ⊢
  rw [updateICMPv6Checksum, if_neg (by omega)] at hupdate
  exact segmentVerifies_resum 1 carries.start_ge (by omega) (by omega) hlength
    completes_foldSum hupdate

theorem segmentVerifies (carries : Carries p protocol start)
    (hupdate : updateChecksum p = .ok after) :
    SegmentVerifies after protocol start (upperLayerLen p protocol start) := by
  rw [updateChecksum, carries.transportHeader_eq, ok_bind] at hupdate
  obtain rfl | rfl | rfl := carries.protocol_mem
  · exact carries.segmentVerifies_tcp hupdate
  · exact carries.segmentVerifies_udp hupdate
  · exact carries.segmentVerifies_icmpv6 hupdate

end Carries

end

/-- Nothing that is done with the packet fails a check, the loop over the
extension headers ends, and a whole packet has its segment located and its
checksum completed. -/
theorem transport_located (p : Slice) : (Succeeds (sourcePort p) ∧ Succeeds (destinationPort p) ∧
    Succeeds (protocol p)) ∧ (∃ found, transportHeader p = .ok found ∧
    (40 ≤ p.len → Ends p (min (stated p) p.len) (p.byte 6) 40 found)) ∧ ∃ after, updateChecksum p =
    .ok after ∧ ∀ protocol start, Carries p protocol start → transportHeader p = .ok
    (some ⟨protocol, start, stated p - start⟩) ∧ SegmentVerifies after protocol start
    (upperLayerLen p protocol start) := by
  refine ⟨⟨succeeds_port p (by decide), succeeds_port p (by decide), succeeds_protocol p⟩, ?_, ?_⟩
  · by_cases hlen : 40 ≤ p.len
    · obtain ⟨found, hfound, ends⟩ := transportHeader_ends hlen
      exact ⟨found, hfound, fun _ => ends⟩
    · obtain ⟨found, hfound, -⟩ := transportHeader_ok p
      exact ⟨found, hfound, fun hlong => absurd hlong hlen⟩
  · obtain ⟨after, hupdate⟩ := succeeds_updateChecksum p
    exact ⟨after, hupdate, fun protocol start carries =>
      ⟨carries.transportHeader_eq, carries.segmentVerifies hupdate⟩⟩

def optionsPacket : Slice := Slice.ofBytes ([96, 0, 0, 0, 0, 29, 0, 64] ++ List.replicate 16 1 ++
    List.replicate 16 2 ++ [51, 0, 1, 4, 0, 0, 0, 0] ++
    [17, 1, 0, 0, 0, 0, 0, 1, 0, 0, 0, 1] ++ [0, 53, 0, 54, 0, 9, 0, 0, 7])

theorem carries_optionsPacket : Carries optionsPacket ipProtoUDP 60 where
  version_eq := by decide
  total_le := by decide
  chain := .options (.inl rfl) (by decide) (.authentication (by decide) .segment)
  protocol_mem := .inr (.inl rfl)
  segment_le := by decide
  udp_length := fun _ => by decide

theorem transport_located_optionsPacket : ∃ after, updateChecksum optionsPacket = .ok after ∧
      SegmentVerifies after ipProtoUDP 60 9 := by
  obtain ⟨-, -, after, hupdate, hverifies⟩ := transport_located optionsPacket
  exact ⟨after, hupdate, (hverifies ipProtoUDP 60 carries_optionsPacket).2⟩

end Pig.Network.IPv6Packet
