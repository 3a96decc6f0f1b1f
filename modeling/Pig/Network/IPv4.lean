import Mathlib.Tactic.SplitIfs
import Pig.Network.Checksum

namespace Pig.Network

open Go

/-! Addresses are byte strings of length 4 or 16, or empty when nil. -/

def v4InV6 : Bytes := List.replicate 10 0 ++ [0xff, 0xff]

def to4 (ip : Bytes) : Bytes :=
  if ip.length = 4 then ip
  else if ip.length = 16 ∧ ip.take 12 = v4InV6 then ip.drop 12
  else []

def to16 (ip : Bytes) : Bytes :=
  if ip.length = 4 then v4InV6 ++ ip
  else if ip.length = 16 then ip
  else []

def ipv4zero : Bytes := v4InV6 ++ [0, 0, 0, 0]
def ipv6zero : Bytes := List.replicate 16 0

def ipEqual (ip x : Bytes) : Bool :=
  if ip.length = x.length then ip = x
  else if ip.length = 4 ∧ x.length = 16 then
    x.take 12 = v4InV6 ∧ ip = x.drop 12
  else if ip.length = 16 ∧ x.length = 4 then
    ip.take 12 = v4InV6 ∧ ip.drop 12 = x
  else false

variable {ip : Bytes}

theorem length_to4 (h : to4 ip ≠ []) : (to4 ip).length = 4 := by
  revert h
  fun_cases to4 ip with
  | case1 hlen => exact fun _ => hlen
  | case2 _ hmapped => simp [hmapped.1]
  | case3 => exact fun h => absurd rfl h

theorem length_to16 (h : to16 ip ≠ []) : (to16 ip).length = 16 := by
  revert h
  fun_cases to16 ip with
  | case1 hlen => simp [hlen, v4InV6]
  | case2 _ hlen => exact fun _ => hlen
  | case3 => exact fun h => absurd rfl h

theorem to4_of_length (h : ip.length = 4) : to4 ip = ip := if_pos h

theorem to16_of_length (h : ip.length = 16) : to16 ip = ip := by
  rw [to16, if_neg (by omega), if_pos h]

theorem to4_of_not_mapped (h : ip.length = 16) (hmapped : ip.take 12 ≠ v4InV6) : to4 ip = [] := by
  rw [to4, if_neg (by omega), if_neg fun h => hmapped h.2]

theorem to16_eq_append (h : to4 ip ≠ []) : to16 ip = v4InV6 ++ to4 ip := by
  unfold to4 at h
  unfold to16 to4
  split
  · rfl
  · next hlong =>
      rw [if_neg hlong] at h
      split at h
      · next hmapped =>
          rw [if_pos hmapped.1, if_pos hmapped, ← hmapped.2, List.take_append_drop]
      · cases h rfl

theorem length_of_to16 (h4 : to4 ip = []) (h16 : to16 ip ≠ []) : ip.length = 16 := by
  by_contra hlen
  by_cases hshort : ip.length = 4
  · rw [to4_of_length hshort] at h4
    simp [h4] at hshort
  · exact h16 (by rw [to16, if_neg hshort, if_neg hlen])

def protocolICMP : UInt8 := 1
def protocolTCP : UInt8 := 6
def protocolUDP : UInt8 := 17

namespace IPv4Packet

def version (p : Slice) : Checked Nat := do
  let first ← p.get 0
  return (first >>> 4).toNat

def setSourceIP (p : Slice) (ip : Bytes) : Checked Slice := p.copyTo 12 16 (to4 ip)

def setDestinationIP (p : Slice) (ip : Bytes) : Checked Slice := p.copyTo 16 20 (to4 ip)

def totalLength (p : Slice) : Checked Nat := word p 2

def destinationIP (p : Slice) : Checked Bytes := p.sub 16 20

def sourceIP (p : Slice) : Checked Bytes := p.sub 12 16

def protocol (p : Slice) : Checked UInt8 := p.get 9

def sourcePort (p : Slice) : Checked Nat := do
  let protocol ← protocol p
  if protocol ≠ protocolTCP ∧ protocol ≠ protocolUDP then return 0
  word p 20

def destinationPort (p : Slice) : Checked Nat := do
  let protocol ← protocol p
  if protocol ≠ protocolTCP ∧ protocol ≠ protocolUDP then return 0
  word p 22

def payloadOffset (p : Slice) : Checked Nat := do
  let first ← p.get 0
  return (first &&& 0x0f).toNat * 4

def updateIPChecksum (p : Slice) : Checked Slice := resum p 10 fun p => do
    let headerLen ← payloadOffset p
    let sum ← sumWords p 0 (headerLen / 2) 0
    return foldSum sum

def pseudoHeaderSum (p : Slice) (transportLen : Int) : Checked UInt32 := do
  -- Source and destination address stand next to each other.
  let sum ← sumWords p 12 4 0
  let protocol ← p.get 9
  return sum + protocol.toUInt32 + UInt32.ofInt transportLen

def updateTCPChecksum (p : Slice) : Checked Slice := do
  let offset ← payloadOffset p
  let total ← totalLength p
  let tcpLen : Int := total - offset
  resum p (offset + 16) fun p => do
    let sum ← pseudoHeaderSum p tcpLen
    let sum ← sumTransport p offset tcpLen sum
    return foldSum sum

def updateUDPChecksum (p : Slice) : Checked Slice := do
  let offset ← payloadOffset p
  if p.len < offset + 8 then return p
  let udpLen ← word p (offset + 4)
  if p.len < offset + udpLen then return p
  resum p (offset + 6) fun p => do
    let sum ← pseudoHeaderSum p udpLen
    let sum ← sumTransport p offset udpLen sum
    -- A UDP checksum of zero is replaced with all ones.
    return if foldSum sum = 0 then 0xffff else foldSum sum

def updateICMPChecksum (p : Slice) : Checked Slice := do
  let offset ← payloadOffset p
  let total ← totalLength p
  let icmpLen : Int := total - offset
  resum p (offset + 2) fun p => do
    let sum ← sumWords p offset (icmpLen / 2).toNat 0
    return foldSum sum

def updateTransportChecksum (p : Slice) : Checked Slice := do
  let protocol ← protocol p
  if protocol = protocolICMP then updateICMPChecksum p
  else if protocol = protocolTCP then updateTCPChecksum p
  else if protocol = protocolUDP then updateUDPChecksum p
  else return p

def updateChecksum (p : Slice) : Checked Slice := do
  let total ← totalLength p
  if p.len < total then return p
  let p ← updateIPChecksum p
  updateTransportChecksum p

def headerLen (p : Slice) : Nat := (p.byte 0 &&& 0x0f).toNat * 4

theorem headerLen_le (p : Slice) : headerLen p ≤ 60 := by
  have hmask : (p.byte 0 &&& 0x0f).toNat ≤ 15 := by
    exact Nat.and_le_right
  rw [headerLen]
  omega

variable {p : Slice}

theorem payloadOffset_eq (hlen : 0 < p.len) : payloadOffset p = .ok (headerLen p) := by
  have hfirst : p.get 0 = .ok (p.byte 0) := if_pos hlen
  rw [payloadOffset, hfirst]
  rfl

theorem protocol_eq (hlen : 9 < p.len) : protocol p = .ok (p.byte 9) := if_pos hlen

theorem updateTransportChecksum_of_icmp (hlen : 9 < p.len) (hicmp : p.byte 9 = protocolICMP) :
    updateTransportChecksum p = updateICMPChecksum p := by
  rw [updateTransportChecksum, protocol_eq hlen, ok_bind, if_pos hicmp]

theorem updateTransportChecksum_of_tcp (hlen : 9 < p.len) (htcp : p.byte 9 = protocolTCP) :
    updateTransportChecksum p = updateTCPChecksum p := by
  rw [updateTransportChecksum, protocol_eq hlen, ok_bind, if_neg (htcp.trans_ne (by decide)),
    if_pos htcp]

theorem updateTransportChecksum_of_udp (hlen : 9 < p.len) (hudp : p.byte 9 = protocolUDP) :
    updateTransportChecksum p = updateUDPChecksum p := by
  rw [updateTransportChecksum, protocol_eq hlen, ok_bind, if_neg (hudp.trans_ne (by decide)),
    if_neg (hudp.trans_ne (by decide)), if_pos hudp]

theorem payloadOffset_bind_eq_ok {Result : Type} {next : Nat → Checked Result} {result : Result} :
    (payloadOffset p >>= next) = .ok result ↔ 0 < p.len ∧ next (headerLen p) = .ok result := by
  simp only [payloadOffset, bind_assoc, p.get_bind_eq_ok, pure_bind]
  rfl

theorem succeeds_payloadOffset_bind {Result : Type} {next : Nat → Checked Result} :
    Succeeds (payloadOffset p >>= next) ↔ 0 < p.len ∧ Succeeds (next (headerLen p)) := by
  simp only [Succeeds, payloadOffset_bind_eq_ok, exists_and_left]

theorem succeeds_pseudoHeaderSum (p : Slice) (transportLen : Int) :
    Succeeds (pseudoHeaderSum p transportLen) ↔ 20 ≤ p.len := by
  rw [pseudoHeaderSum, succeeds_bind_of_iff (c := 9 < p.len), succeeds_sumWords]
  · omega
  · intro found
    simp only [p.succeeds_get_bind, succeeds_pure, and_true]

theorem headerLen_cleared (p : Slice) : headerLen (cleared p 10) = headerLen p := by
  simp only [headerLen, cleared]
  rw [Slice.byte_put_of_ne _ (by decide), Slice.byte_put_of_ne _ (by decide)]

theorem succeeds_updateIPChecksum (p : Slice) :
    Succeeds (updateIPChecksum p) ↔ 12 ≤ p.len ∧ headerLen p ≤ p.len := by
  have heven : headerLen p / 2 * 2 = headerLen p := by
    rw [headerLen]
    omega
  rw [updateIPChecksum, succeeds_resum, succeeds_payloadOffset_bind,
    succeeds_bind_pure, succeeds_sumWords, len_cleared, headerLen_cleared]
  omega

theorem succeeds_updateICMPChecksum (hlen : 20 ≤ p.len) (htotal : wordAt p 2 ≤ p.len) :
    Succeeds (updateICMPChecksum p) ↔ headerLen p + 4 ≤ p.len := by
  rw [updateICMPChecksum, succeeds_payloadOffset_bind, totalLength, succeeds_word_bind,
    succeeds_resum, succeeds_bind_pure, succeeds_sumWords, len_cleared]
  omega

theorem succeeds_transportSums {offset : Nat} {length : Int} {checksum : UInt32 → UInt16} :
    Succeeds (do
      let sum ← pseudoHeaderSum p length
      let sum ← sumTransport p offset length sum
      return checksum sum) ↔
      20 ≤ p.len ∧ (length ≤ 0 ∨ offset + length.toNat ≤ p.len) := by
  rw [succeeds_bind_of_iff (c := length ≤ 0 ∨ offset + length.toNat ≤ p.len),
    succeeds_pseudoHeaderSum]
  intro found
  rw [succeeds_bind_pure, succeeds_sumTransport]

theorem succeeds_updateTCPChecksum (hlen : 20 ≤ p.len) (htotal : wordAt p 2 ≤ p.len) :
    Succeeds (updateTCPChecksum p) ↔ headerLen p + 18 ≤ p.len := by
  rw [updateTCPChecksum, succeeds_payloadOffset_bind, totalLength,
    succeeds_word_bind, succeeds_resum, succeeds_transportSums, len_cleared]
  omega

theorem succeeds_updateUDPChecksum (hlen : 20 ≤ p.len) :
    Succeeds (updateUDPChecksum p) := by
  rw [updateUDPChecksum, succeeds_payloadOffset_bind]
  refine ⟨by omega, succeeds_guard fun hheader => ?_⟩
  rw [succeeds_word_bind]
  refine ⟨by omega, succeeds_guard fun hudp => ?_⟩
  rw [succeeds_resum, succeeds_transportSums, len_cleared]
  omega

def leastHeader (protocol : UInt8) : Nat :=
  if protocol = protocolTCP then 20
  else if protocol = protocolUDP ∨ protocol = protocolICMP then 8
  else 0

def checksumOffset (protocol : UInt8) : Option Nat :=
  if protocol = protocolICMP then some 2
  else if protocol = protocolTCP then some 16
  else if protocol = protocolUDP then some 6
  else none

def ChecksumPlaces (p : Slice) (index : Nat) : Prop := WordPlaces 10 index ∨
    ∃ offset, checksumOffset (p.byte 9) = some offset ∧ WordPlaces (headerLen p + offset) index

variable {after : Slice}

theorem changedAt_updateICMPChecksum (hupdate : updateICMPChecksum p = .ok after) :
    p.ChangedAt (WordPlaces (headerLen p + 2)) after := by
  rw [updateICMPChecksum, payloadOffset_bind_eq_ok, totalLength, word_bind_eq_ok] at hupdate
  exact changedAt_resum hupdate.2.2

theorem changedAt_updateTCPChecksum (hupdate : updateTCPChecksum p = .ok after) :
    p.ChangedAt (WordPlaces (headerLen p + 16)) after := by
  rw [updateTCPChecksum, payloadOffset_bind_eq_ok, totalLength, word_bind_eq_ok] at hupdate
  exact changedAt_resum hupdate.2.2

theorem changedAt_updateUDPChecksum (hupdate : updateUDPChecksum p = .ok after) :
    p.ChangedAt (WordPlaces (headerLen p + 6)) after := by
  rw [updateUDPChecksum, payloadOffset_bind_eq_ok] at hupdate
  refine .guard hupdate.2 fun _ hupdate => ?_
  rw [word_bind_eq_ok] at hupdate
  exact .guard hupdate.2 fun _ hupdate => changedAt_resum hupdate

theorem changedAt_updateTransportChecksum (hupdate : updateTransportChecksum p = .ok after) :
    p.ChangedAt (fun index => ∃ offset, checksumOffset (p.byte 9) = some offset ∧
        WordPlaces (headerLen p + offset) index) after := by
  rw [updateTransportChecksum, protocol, p.get_bind_eq_ok] at hupdate
  obtain ⟨-, hupdate⟩ := hupdate
  unfold checksumOffset
  split_ifs at hupdate ⊢
  · exact (changedAt_updateICMPChecksum hupdate).widen fun index hplace => ⟨2, rfl, hplace⟩
  · exact (changedAt_updateTCPChecksum hupdate).widen fun index hplace => ⟨16, rfl, hplace⟩
  · exact (changedAt_updateUDPChecksum hupdate).widen fun index hplace => ⟨6, rfl, hplace⟩
  · cases hupdate
    exact .rfl p

theorem header_of_changedAt {places : Nat → Prop}
    (changed : p.ChangedAt places after) (hplaces : ∀ index, places index → 10 ≤ index) :
    headerLen after = headerLen p ∧ wordAt after 2 = wordAt p 2 ∧ after.byte 9 = p.byte 9 := by
  have hkeep : ∀ index, index < 10 → after.byte index = p.byte index := fun index hindex =>
    changed.byte_eq index fun hplace => Nat.not_le.2 hindex (hplaces index hplace)
  simp only [headerLen, wordAt]
  rw [hkeep 0 (by decide), hkeep 2 (by decide), hkeep (2 + 1) (by decide), hkeep 9 (by decide)]
  exact ⟨rfl, rfl, rfl⟩

theorem header_of_updateIPChecksum (hupdate : updateIPChecksum p = .ok after) :
    headerLen after = headerLen p ∧ wordAt after 2 = wordAt p 2 ∧ after.byte 9 = p.byte 9 := by
  apply header_of_changedAt (changedAt_resum hupdate)
  rintro index (rfl | rfl) <;> decide

theorem changedAt_updateChecksum (hupdate : updateChecksum p = .ok after) :
    p.ChangedAt (ChecksumPlaces p) after := by
  rw [updateChecksum, totalLength, word_bind_eq_ok] at hupdate
  replace hupdate := hupdate.2
  split at hupdate
  · cases hupdate
    exact .rfl p
  · rw [bind_eq_ok] at hupdate
    obtain ⟨middle, hheader, htransport⟩ := hupdate
    have hfirst : p.ChangedAt (WordPlaces 10) middle := changedAt_resum hheader
    obtain ⟨hlen, -, hprotocol⟩ := header_of_updateIPChecksum hheader
    have hsecond := changedAt_updateTransportChecksum htransport
    rw [hlen, hprotocol] at hsecond
    exact (hfirst.widen fun _ => .inl).trans (hsecond.widen fun _ => .inr)

def ChecksumFits (p : Slice) : Prop := wordAt p 2 ≤ p.len → headerLen p ≤ p.len ∧
    (p.byte 9 = protocolICMP → headerLen p + 4 ≤ p.len) ∧
    (p.byte 9 = protocolTCP → headerLen p + 18 ≤ p.len)

theorem succeeds_updateTransportChecksum (hlen : 20 ≤ p.len) (htotal : wordAt p 2 ≤ p.len) :
    Succeeds (updateTransportChecksum p) ↔ (p.byte 9 = protocolICMP → headerLen p + 4 ≤ p.len) ∧
      (p.byte 9 = protocolTCP → headerLen p + 18 ≤ p.len) := by
  have hnine : 9 < p.len := by omega
  have hdistinct : protocolICMP ≠ protocolTCP := by decide
  rw [updateTransportChecksum, protocol, p.succeeds_get_bind]
  split_ifs with hicmp htcp
  · simp [succeeds_updateICMPChecksum hlen htotal, hnine, hicmp, hdistinct]
  · simp [succeeds_updateTCPChecksum hlen htotal, hnine, htcp, hdistinct.symm]
  · simp [succeeds_updateUDPChecksum hlen, hnine, hicmp, htcp]
  · simp [hnine, hicmp, htcp]

theorem succeeds_transport_afterHeader {middle : Slice} (hlen : 20 ≤ p.len)
    (htotal : wordAt p 2 ≤ p.len) (hheader : updateIPChecksum p = .ok middle) :
    Succeeds (updateTransportChecksum middle) ↔ (p.byte 9 = protocolICMP → headerLen p + 4 ≤ p.len)
      ∧ (p.byte 9 = protocolTCP → headerLen p + 18 ≤ p.len) := by
  obtain ⟨hheaderLen, hwords, hprotocol⟩ := header_of_updateIPChecksum hheader
  have hlen_eq := (changedAt_resum hheader).len_eq
  rw [succeeds_updateTransportChecksum (by omega) (by omega), hheaderLen, hprotocol, hlen_eq]

theorem succeeds_updateChecksum (hlen : 20 ≤ p.len) :
    Succeeds (updateChecksum p) ↔ ChecksumFits p := by
  rw [updateChecksum, totalLength, succeeds_word_bind]
  have hthree : 2 + 1 < p.len := by omega
  simp only [hthree, true_and, ChecksumFits]
  by_cases htotal : p.len < wordAt p 2
  · rw [if_pos htotal]
    exact iff_of_true (succeeds_pure p) fun hle => absurd hle (by omega)
  · have hfits : wordAt p 2 ≤ p.len := by omega
    simp only [if_neg htotal, hfits, forall_const]
    rw [succeeds_bind]
    constructor
    · rintro ⟨middle, hheader, htransport⟩
      exact ⟨((succeeds_updateIPChecksum p).mp ⟨middle, hheader⟩).2,
        (succeeds_transport_afterHeader hlen hfits hheader).mp htransport⟩
    · rintro ⟨hheaderFits, htransport⟩
      obtain ⟨middle, hheader⟩ := (succeeds_updateIPChecksum p).mpr ⟨by omega, hheaderFits⟩
      exact ⟨middle, hheader, (succeeds_transport_afterHeader hlen hfits hheader).mpr htransport⟩

end IPv4Packet

end Pig.Network
