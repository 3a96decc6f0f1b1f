import Pig.Network.IPv4

namespace Pig.Network

open Go

def ipProtoHopByHop : UInt8 := 0
def ipProtoTCP : UInt8 := 6
def ipProtoUDP : UInt8 := 17
def ipProtoRouting : UInt8 := 43
def ipProtoFragment : UInt8 := 44
def ipProtoAH : UInt8 := 51
def ipProtoICMPv6 : UInt8 := 58
def ipProtoDestOpts : UInt8 := 60
def ipProtoMobility : UInt8 := 135
def ipProtoHIP : UInt8 := 139
def ipProtoShim6 : UInt8 := 140

namespace IPv6Packet

structure Transport where
  protocol : UInt8
  offset : Nat
  transportLen : Nat
  deriving DecidableEq, Repr

inductive Walk where
  | found (transport : Option Transport)
  | next (nextHeader : UInt8) (offset : Nat)

def skipExtension (p : Slice) (stop offset : Nat) (extLen : UInt8 → Nat) : Checked Walk := do
  if stop < offset + 2 then return .found none
  let size ← p.get (offset + 1)
  let nextHeader ← p.get offset
  if stop < offset + extLen size then return .found none
  return .next nextHeader (offset + extLen size)

def skipFragment (p : Slice) (stop offset : Nat) : Checked Walk := do
  if stop < offset + 8 then return .found none
  let nextHeader ← p.get offset
  let high ← p.get (offset + 2)
  let low ← p.get (offset + 3)
  let fragmentOffset := (high.toUInt16 <<< 8 ||| low.toUInt16) >>> 3
  if fragmentOffset ≠ 0 then return .found none
  return .next nextHeader (offset + 8)

def walk (p : Slice) (stop : Nat) (nextHeader : UInt8) (offset : Nat) : Checked Walk :=
  if nextHeader = ipProtoTCP ∨ nextHeader = ipProtoUDP ∨ nextHeader = ipProtoICMPv6 then
    if stop ≤ offset then return .found none
    else return .found (some ⟨nextHeader, offset, stop - offset⟩)
  else if nextHeader = ipProtoHopByHop ∨ nextHeader = ipProtoRouting ∨ nextHeader = ipProtoDestOpts
      ∨ nextHeader = ipProtoMobility ∨ nextHeader = ipProtoHIP ∨ nextHeader = ipProtoShim6 then
    skipExtension p stop offset fun size => (size.toNat + 1) * 8
  else if nextHeader = ipProtoFragment then skipFragment p stop offset
  else if nextHeader = ipProtoAH then
    skipExtension p stop offset fun size => (size.toNat + 2) * 4
  else return .found none

def walkHeaders (p : Slice) (stop : Nat) : (fuel : Nat) → UInt8 → Nat → Checked (Option Transport)
  | 0, _, _ => return none
  | fuel + 1, nextHeader, offset => do
      match ← walk p stop nextHeader offset with
      | .found transport => return transport
      | .next nextHeader offset => walkHeaders p stop fuel nextHeader offset

def transportHeader (p : Slice) : Checked (Option Transport) := do
  if p.len < 40 then return none
  let payloadLen ← word p 4
  let nextHeader ← p.get 6
  -- Every header is at least eight bytes long.
  walkHeaders p (min (40 + payloadLen) p.len) p.len nextHeader 40

def version (p : Slice) : Checked Nat := do
  let first ← p.get 0
  return (first >>> 4).toNat

def setSourceIP (p : Slice) (ip : Bytes) : Checked Slice := p.copyTo 8 24 (to16 ip)

def setDestinationIP (p : Slice) (ip : Bytes) : Checked Slice := p.copyTo 24 40 (to16 ip)

def totalLength (p : Slice) : Checked Nat := do
  let payloadLen ← word p 4
  return payloadLen + 40

def destinationIP (p : Slice) : Checked Bytes := p.sub 24 40

def sourceIP (p : Slice) : Checked Bytes := p.sub 8 24

def protocol (p : Slice) : Checked UInt8 := do
  match ← transportHeader p with
  | none => if p.len ≤ 6 then return 0 else p.get 6
  | some transport => return transport.protocol

def port (p : Slice) (position : Nat) : Checked Nat := do
  match ← transportHeader p with
  | none => return 0
  | some transport =>
    if transport.protocol ≠ ipProtoTCP ∧ transport.protocol ≠ ipProtoUDP then
      return 0
    if p.len < transport.offset + 4 then return 0
    word p (transport.offset + position)

def sourcePort (p : Slice) : Checked Nat := port p 0

def destinationPort (p : Slice) : Checked Nat := port p 2

def pseudoHeaderSum (p : Slice) (nextHeader : UInt8) (upperLayerLen : Nat) : Checked UInt32 := do
  -- Source and destination address, one after the other.
  let sum ← sumWords p 8 16 0
  return sum + (UInt32.ofNat upperLayerLen >>> 16).toUInt16.toUInt32 +
    (UInt16.ofNat upperLayerLen).toUInt32 + nextHeader.toUInt32

def updateTCPChecksum (p : Slice) : Checked Slice := do
  match ← transportHeader p with
  | none => return p
  | some transport =>
    if transport.protocol ≠ ipProtoTCP then return p
    if p.len < transport.offset + 20 then return p
    resum p (transport.offset + 16) fun p => do
      let sum ← pseudoHeaderSum p ipProtoTCP transport.transportLen
      let sum ← sumTransport p transport.offset transport.transportLen sum
      return foldSum sum

/-- The second half of `updateUDPChecksum`, with the length settled. -/
def sumDatagram (p : Slice) (offset udpLen : Nat) : Checked Slice := do
  if udpLen < 8 ∨ p.len < offset + udpLen then return p
  resum p (offset + 6) fun p => do
    let sum ← pseudoHeaderSum p ipProtoUDP udpLen
    let sum ← sumTransport p offset udpLen sum
    return if foldSum sum = 0 then 0xffff else foldSum sum

def updateUDPChecksum (p : Slice) : Checked Slice := do
  match ← transportHeader p with
  | none => return p
  | some transport =>
    if transport.protocol ≠ ipProtoUDP then return p
    if p.len < transport.offset + 8 then return p
    let udpLen ← word p (transport.offset + 4)
    sumDatagram p transport.offset (if udpLen = 0 then transport.transportLen else udpLen)

def updateICMPv6Checksum (p : Slice) (offset icmpLen : Nat) : Checked Slice := do
  if p.len < offset + 4 ∨ p.len < offset + icmpLen ∨ icmpLen < 4 then
    return p
  resum p (offset + 2) fun p => do
    let sum ← pseudoHeaderSum p ipProtoICMPv6 icmpLen
    let sum ← sumTransport p offset icmpLen sum
    return foldSum sum

def updateChecksum (p : Slice) : Checked Slice := do
  match ← transportHeader p with
  | none => return p
  | some transport =>
    if transport.protocol = ipProtoTCP then updateTCPChecksum p
    else if transport.protocol = ipProtoUDP then updateUDPChecksum p
    else if transport.protocol = ipProtoICMPv6 then
      updateICMPv6Checksum p transport.offset transport.transportLen
    else return p

/-! One header of the walk: it finds nothing, finds a transport header where it
stands, or goes on at least eight bytes further. -/

variable {p : Slice}

variable {stop : Nat}

theorem skipExtension_cases (hstop : stop ≤ p.len)
    (offset : Nat) {extLen : UInt8 → Nat} (hext : ∀ size, 8 ≤ extLen size) :
    skipExtension p stop offset extLen = .ok (.found none) ∨
      ∃ nextHeader further, offset + 8 ≤ further ∧ further ≤ stop ∧
        skipExtension p stop offset extLen = .ok (.next nextHeader further) := by
  rw [skipExtension]
  by_cases hroom : stop < offset + 2
  · exact .inl (if_pos hroom)
  · rw [if_neg hroom, Slice.get, if_pos (by omega), ok_bind, Slice.get, if_pos (by omega), ok_bind]
    by_cases hsize : stop < offset + extLen (p.byte (offset + 1))
    · exact .inl (if_pos hsize)
    · have hlong := hext (p.byte (offset + 1))
      exact .inr ⟨_, _, by omega, by omega, if_neg hsize⟩

theorem skipFragment_cases (hstop : stop ≤ p.len) (offset : Nat) :
    skipFragment p stop offset = .ok (.found none) ∨ ∃ nextHeader further, offset + 8 ≤ further ∧
      further ≤ stop ∧ skipFragment p stop offset = .ok (.next nextHeader further) := by
  rw [skipFragment]
  by_cases hroom : stop < offset + 8
  · exact .inl (if_pos hroom)
  · rw [if_neg hroom]
    simp only [Slice.get]
    rw [if_pos (by omega), ok_bind, if_pos (by omega), ok_bind, if_pos (by omega), ok_bind]
    split
    · exact .inl rfl
    · exact .inr ⟨_, _, Nat.le_refl _, by omega, rfl⟩

theorem walk_cases (hstop : stop ≤ p.len) (nextHeader : UInt8) (offset : Nat) :
    walk p stop nextHeader offset = .ok (.found none) ∨ ((nextHeader = ipProtoTCP ∨ nextHeader =
      ipProtoUDP ∨ nextHeader = ipProtoICMPv6) ∧ offset < stop ∧ walk p stop nextHeader offset = .ok
      (.found (some ⟨nextHeader, offset, stop - offset⟩))) ∨ ∃ following further, offset + 8 ≤
      further ∧ further ≤ stop ∧ walk p stop nextHeader offset = .ok (.next following further) := by
  rw [walk]
  split_ifs with htransport hoffset
  · exact .inl rfl
  · exact .inr (.inl ⟨htransport, by omega, rfl⟩)
  · exact (skipExtension_cases hstop offset (by intro size; omega)).imp_right .inr
  · exact (skipFragment_cases hstop offset).imp_right .inr
  · exact (skipExtension_cases hstop offset (by intro size; omega)).imp_right .inr
  · exact .inl rfl

theorem walkHeaders_ok (hstop : stop ≤ p.len) (fuel : Nat) (nextHeader : UInt8) (offset : Nat) :
    ∃ found, walkHeaders p stop fuel nextHeader offset = .ok found ∧ ∀ transport, found = some
      transport → offset ≤ transport.offset ∧ transport.offset + transport.transportLen = stop := by
  induction fuel generalizing nextHeader offset with
  | zero => exact ⟨none, rfl, by simp⟩
  | succ fuel ih =>
    rw [walkHeaders]
    obtain hwalk | ⟨-, hoffset, hwalk⟩ | ⟨following, further, hlow, hhigh, hwalk⟩ :=
      walk_cases hstop nextHeader offset
    · rw [hwalk]
      exact ⟨none, rfl, by simp⟩
    · rw [hwalk]
      refine ⟨_, rfl, ?_⟩
      rintro transport ⟨⟩
      exact ⟨Nat.le_refl _, Nat.add_sub_of_le (Nat.le_of_lt hoffset)⟩
    · rw [hwalk]
      obtain ⟨found, hfound, hbounds⟩ := ih following further
      refine ⟨found, hfound, fun transport htransport => ?_⟩
      obtain ⟨hoffset, hend⟩ := hbounds transport htransport
      exact ⟨by omega, hend⟩

theorem transportHeader_ok (p : Slice) : ∃ found, transportHeader p = .ok found ∧
      ∀ transport, found = some transport → 40 ≤ p.len ∧ 40 ≤ transport.offset ∧
          transport.offset + transport.transportLen ≤ p.len := by
  rw [transportHeader]
  by_cases hlen : p.len < 40
  · exact ⟨none, if_pos hlen, by simp⟩
  · rw [if_neg hlen]
    have hstop : min (40 + wordAt p 4) p.len ≤ p.len := Nat.min_le_right _ _
    obtain ⟨found, hfound, hbounds⟩ := walkHeaders_ok hstop p.len (p.byte 6) 40
    refine ⟨found, ?_, fun transport htransport => ?_⟩
    · rw [word_bind_eq_ok, p.get_bind_eq_ok]
      exact ⟨by omega, by omega, hfound⟩
    · obtain ⟨hoffset, hend⟩ := hbounds transport htransport
      exact ⟨by omega, hoffset, by omega⟩

theorem succeeds_transportHeader_bind {Result : Type} {next : Option Transport → Checked
    Result} (hnone : Succeeds (next none)) (hsome : ∀ transport, 40 ≤ p.len → 40 ≤ transport.offset
    → transport.offset + transport.transportLen ≤ p.len → Succeeds (next (some transport))) :
    Succeeds (transportHeader p >>= next) := by
  obtain ⟨found, hfound, hbounds⟩ := transportHeader_ok p
  rw [hfound, ok_bind]
  cases found with
  | none => exact hnone
  | some transport =>
    obtain ⟨hlen, hoffset, hend⟩ := hbounds transport rfl
    exact hsome transport hlen hoffset hend

theorem succeeds_transportSums {nextHeader : UInt8} {offset length : Nat}
    {checksum : UInt32 → UInt16} (hlen : 40 ≤ p.len) (hend : offset + length ≤ p.len) :
    Succeeds (do
      let sum ← pseudoHeaderSum p nextHeader length
      let sum ← sumTransport p offset length sum
      return checksum sum) := by
  rw [succeeds_bind_of_iff (c := offset + length ≤ p.len)]
  · rw [pseudoHeaderSum, succeeds_bind_pure, succeeds_sumWords]
    omega
  · intro found
    rw [succeeds_bind_pure, succeeds_sumTransport]
    omega

theorem succeeds_updateTCPChecksum (p : Slice) : Succeeds (updateTCPChecksum p) := by
  apply succeeds_transportHeader_bind (succeeds_pure p)
  intro transport hlen hoffset hend
  refine succeeds_guard fun _ => succeeds_guard fun hroom => ?_
  rw [succeeds_resum]
  exact ⟨by omega, succeeds_transportSums hlen hend⟩

theorem succeeds_sumDatagram (hlen : 40 ≤ p.len)
    (offset udpLen : Nat) : Succeeds (sumDatagram p offset udpLen) := by
  refine succeeds_guard fun hroom => ?_
  rw [succeeds_resum]
  exact ⟨by omega, succeeds_transportSums hlen (by rw [len_cleared]; omega)⟩

theorem succeeds_updateUDPChecksum (p : Slice) : Succeeds (updateUDPChecksum p) := by
  apply succeeds_transportHeader_bind (succeeds_pure p)
  intro transport hlen hoffset hend
  refine succeeds_guard fun _ => succeeds_guard fun hroom => ?_
  rw [succeeds_word_bind]
  exact ⟨by omega, succeeds_sumDatagram hlen _ _⟩

theorem succeeds_updateICMPv6Checksum (hlen : 40 ≤ p.len)
    (offset icmpLen : Nat) : Succeeds (updateICMPv6Checksum p offset icmpLen) := by
  refine succeeds_guard fun hroom => ?_
  rw [succeeds_resum]
  exact ⟨by omega, succeeds_transportSums hlen (by rw [len_cleared]; omega)⟩

theorem succeeds_updateChecksum (p : Slice) : Succeeds (updateChecksum p) := by
  apply succeeds_transportHeader_bind (succeeds_pure p)
  intro transport hlen _ _
  dsimp only
  split_ifs
  · exact succeeds_updateTCPChecksum p
  · exact succeeds_updateUDPChecksum p
  · exact succeeds_updateICMPv6Checksum hlen _ _
  · exact succeeds_pure p

theorem succeeds_protocol (p : Slice) : Succeeds (protocol p) := by
  refine succeeds_transportHeader_bind (succeeds_guard fun hlen => ?_)
    fun transport _ _ _ => succeeds_pure _
  rw [Slice.get, succeeds_check]
  omega

theorem succeeds_port (p : Slice) {position : Nat} (hposition : position ≤ 2) :
    Succeeds (port p position) := by
  apply succeeds_transportHeader_bind (succeeds_pure 0)
  intro transport _ _ _
  refine succeeds_guard fun _ => succeeds_guard fun hroom => ?_
  rw [← bind_pure (word p _), succeeds_word_bind]
  exact ⟨by omega, succeeds_pure _⟩

def checksumOffset (protocol : UInt8) : Option Nat :=
  if protocol = ipProtoTCP then some 16
  else if protocol = ipProtoUDP then some 6
  else if protocol = ipProtoICMPv6 then some 2
  else none

def ChecksumPlaces (p : Slice) (index : Nat) : Prop := ∃ transport offset, transportHeader p = .ok
  (some transport) ∧ checksumOffset transport.protocol = some offset ∧ WordPlaces
  (transport.offset + offset) index

variable {after : Slice}

theorem changedAt_transportHeader_bind {places : Nat → Prop}
    {next : Option Transport → Checked Slice} (hupdate : (transportHeader p >>= next) = .ok after)
    (hnone : next none = .ok p) (hsome : ∀ transport, transportHeader p = .ok (some transport) →
      next (some transport) = .ok after → p.ChangedAt places after) :
    p.ChangedAt places after := by
  obtain ⟨found, hfound, hupdate⟩ := bind_eq_ok.mp hupdate
  cases found with
  | none =>
    cases hnone.symm.trans hupdate
    exact .rfl p
  | some transport => exact hsome transport hfound hupdate

theorem changedAt_updateTCPChecksum (hupdate : updateTCPChecksum p = .ok after) :
    p.ChangedAt (ChecksumPlaces p) after := by
  refine changedAt_transportHeader_bind hupdate rfl fun transport hfound hupdate =>
    .guard hupdate fun hprotocol hupdate => .guard hupdate fun _ hupdate =>
    (changedAt_resum hupdate).widen fun index hplace => ⟨transport, 16, hfound, ?_, hplace⟩
  rw [not_not.mp hprotocol]
  rfl

theorem changedAt_updateUDPChecksum (hupdate : updateUDPChecksum p = .ok after) :
    p.ChangedAt (ChecksumPlaces p) after := by
  refine changedAt_transportHeader_bind hupdate rfl fun transport hfound hupdate =>
    .guard hupdate fun hprotocol hupdate => .guard hupdate fun _ hupdate => ?_
  rw [word_bind_eq_ok] at hupdate
  refine (Slice.ChangedAt.guard hupdate.2 fun _ hupdate =>
    changedAt_resum hupdate).widen fun index hplace => ⟨transport, 6, hfound, ?_, hplace⟩
  rw [not_not.mp hprotocol]
  rfl

theorem changedAt_updateChecksum (hupdate : updateChecksum p = .ok after) :
    p.ChangedAt (ChecksumPlaces p) after := by
  refine changedAt_transportHeader_bind hupdate rfl
    fun transport hfound hupdate => ?_
  dsimp only at hupdate
  split_ifs at hupdate with htcp hudp hicmp
  · exact changedAt_updateTCPChecksum hupdate
  · exact changedAt_updateUDPChecksum hupdate
  · refine (Slice.ChangedAt.guard hupdate fun _ hupdate => changedAt_resum hupdate).widen
      fun index hplace => ⟨transport, 2, hfound, ?_, hplace⟩
    rw [hicmp]
    rfl
  · cases hupdate
    exact .rfl p

section

variable {q : Slice} {further offset position : Nat} {following : UInt8}

section

variable (hfurther : stop ≤ further) (hlen : further ≤ q.len)
  (hbytes : ∀ index, offset ≤ index → index < stop → p.byte index = q.byte index)

include hfurther hlen hbytes

theorem skipExtension_agree {extLen : UInt8 → Nat}
    (hskip : skipExtension p stop offset extLen = .ok (.next following position)) :
    skipExtension q further offset extLen = .ok (.next following position) := by
  rw [skipExtension] at hskip ⊢
  split at hskip
  · cases hskip
  · rw [p.get_bind_eq_ok, p.get_bind_eq_ok] at hskip
    obtain ⟨hsecond, hfirst, hskip⟩ := hskip
    rw [if_neg (by omega), q.get_bind_eq_ok, q.get_bind_eq_ok, ← hbytes (offset + 1) (by omega)
      (by omega), ← hbytes offset (by omega) (by omega)]
    refine ⟨by omega, by omega, ?_⟩
    split at hskip
    · cases hskip
    · rw [if_neg (by omega)]
      exact hskip

theorem skipFragment_agree (hskip : skipFragment p stop offset = .ok (.next following position)) :
    skipFragment q further offset = .ok (.next following position) := by
  rw [skipFragment] at hskip ⊢
  split at hskip
  · cases hskip
  · rw [p.get_bind_eq_ok, p.get_bind_eq_ok, p.get_bind_eq_ok] at hskip
    obtain ⟨-, -, -, hskip⟩ := hskip
    rw [if_neg (by omega), q.get_bind_eq_ok, q.get_bind_eq_ok, q.get_bind_eq_ok, ← hbytes offset
      (by omega) (by omega), ← hbytes (offset + 2) (by omega) (by omega), ← hbytes (offset + 3)
      (by omega) (by omega)]
    exact ⟨by omega, by omega, by omega, hskip⟩

theorem walk_next_agree {nextHeader : UInt8}
    (hwalk : walk p stop nextHeader offset = .ok (.next following position)) :
    walk q further nextHeader offset = .ok (.next following position) := by
  unfold walk at hwalk ⊢
  split_ifs at hwalk ⊢
  any_goals cases hwalk
  · exact skipExtension_agree hfurther hlen hbytes hwalk
  · exact skipFragment_agree hfurther hlen hbytes hwalk
  · exact skipExtension_agree hfurther hlen hbytes hwalk

theorem walkHeaders_agree {fuel more : Nat} {nextHeader : UInt8}
    {transport : Transport} (hstop : stop ≤ p.len) (hmore : further ≤ offset + 8 * more)
    (hwalk : walkHeaders p stop fuel nextHeader offset = .ok (some transport)) :
    walkHeaders q further more nextHeader offset =
      .ok (some { transport with
        transportLen := further - transport.offset }) := by
  induction fuel generalizing more nextHeader offset with
  | zero => cases hwalk
  | succ fuel ih =>
    rw [walkHeaders] at hwalk
    obtain hnone | ⟨htransport, hoffset, hfound⟩ | ⟨following, position, hlow, hhigh, hnext⟩ :=
      walk_cases hstop nextHeader offset
    · rw [hnone] at hwalk
      cases hwalk
    · rw [hfound] at hwalk
      cases hwalk
      obtain ⟨more, rfl⟩ : ∃ fewer, more = fewer + 1 := Nat.exists_eq_add_one.mpr (by omega)
      rw [walkHeaders, walk, if_pos htransport, if_neg (by omega)]
      rfl
    · rw [hnext] at hwalk
      obtain ⟨more, rfl⟩ : ∃ fewer, more = fewer + 1 := Nat.exists_eq_add_one.mpr (by omega)
      rw [walkHeaders, walk_next_agree hfurther hlen hbytes hnext]
      exact ih (fun index hindex => hbytes index (by omega)) (by omega) hwalk

end

theorem checksumPlaces_agree {index : Nat} (hcomplete : q.len = wordAt q 4 + 40)
    (hfixed : ∀ index, index < 8 → p.byte index = q.byte index)
    (hbytes : ∀ index, 40 ≤ index → index < q.len → p.byte index = q.byte index)
    (hplace : ChecksumPlaces p index) : ChecksumPlaces q index := by
  obtain ⟨transport, offset, hfound, hoffset, hword⟩ := hplace
  refine ⟨{ transport with transportLen := q.len - transport.offset }, offset, ?_, hoffset, hword⟩
  have hpayload : wordAt p 4 = wordAt q 4 := by
    simp only [wordAt, hfixed 4 (by decide), hfixed (4 + 1) (by decide)]
  rw [transportHeader] at hfound ⊢
  split at hfound
  · cases hfound
  · rw [word_bind_eq_ok, p.get_bind_eq_ok, hpayload, hfixed 6 (by decide)] at hfound
    rw [if_neg (by omega), word_bind_eq_ok, q.get_bind_eq_ok]
    have hshorter : min (40 + wordAt q 4) p.len ≤ q.len := by omega
    have hwhole : min (40 + wordAt q 4) q.len = q.len := by omega
    rw [hwhole]
    exact ⟨by omega, by omega, walkHeaders_agree hshorter (Nat.le_refl _)
      (fun index hlow hhigh => hbytes index hlow (by omega)) (Nat.min_le_right _ _) (by omega)
      hfound.2.2⟩

end

end IPv6Packet

end Pig.Network
