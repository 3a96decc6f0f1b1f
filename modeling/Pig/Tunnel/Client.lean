import Pig.Tunnel.Inbound

namespace Pig.Tunnel.Client

open Go Network

/-! The client's side: packets from the server get back the address that the
connection tracking noted for their flow. -/

inductive ProtocolData where
  | generic (data : UInt8)
  | portBased (srcPort destPort : Nat)
  | icmp (type code : UInt8)
  deriving DecidableEq, Repr

structure Tuple where
  family : UInt8
  srcIP : Bytes
  destIP : Bytes
  protocol : UInt8
  protocolData : ProtocolData
  direction : UInt8
  deriving DecidableEq, Repr

structure ConnTrackEntry where
  inMappedDst : Option Bytes
  deriving DecidableEq, Repr

def getICMPProtocolData (pkt : IPPacket) : Checked ProtocolData := do
  let payload ← pkt.slice.dropFront (← pkt.payloadOffset)
  let type ← payload.get 0
  let code ← payload.get 1
  return .icmp type code

def protocolData (pkt : IPPacket) (protocol : UInt8) : Checked ProtocolData := do
  if protocol = protocolTCP ∨ protocol = protocolUDP then
    return .portBased (← pkt.sourcePort) (← pkt.destinationPort)
  else if protocol = protocolICMP then getICMPProtocolData pkt
  else return .generic protocol

def newTuple (pkt : IPPacket) : Checked Tuple := do
  let family := if (← pkt.version) = 6 then 6 else 4
  let protocol ← pkt.protocol
  let protocolData ← protocolData pkt protocol
  let srcIP ← pkt.sourceIP
  let destIP ← pkt.destinationIP
  return ⟨family, srcIP, destIP, protocol, protocolData, 0⟩

def bufferSize (minCap : Nat) : Nat :=
  if minCap ≤ 512 then 512
  else if minCap ≤ 1024 then 1024
  else if minCap ≤ 2048 then 2048
  else if minCap ≤ 4096 then 4096
  else if minCap ≤ 65536 then 65536
  else minCap

/-- What the handler finds around it: the adapter, the pool with whatever its
buffers last held, the tracking table and the room in the queue, for each packet
taken in turn. -/
structure Env where
  mtu : Nat
  ip : Bytes
  ip6 : Bytes
  buffer : Nat → Slice
  len_buffer : ∀ index, (buffer index).len = bufferSize mtu
  load : Nat → Tuple → Option ConnTrackEntry
  accepts : Nat → Bool

variable (env : Env)

def rewrite (index : Nat) : IPPacket → Checked IPPacket
  | .v4 p => do
      let tuple ← newTuple (.v4 p)
      match env.load index { tuple with destIP := env.ip } with
      | none => return .v4 p
      | some entry =>
        match entry.inMappedDst with
        | none => return .v4 p
        | some ip => return .v4 (← IPv4Packet.setDestinationIP p ip)
  | .v6 p => return .v6 (← IPv6Packet.setDestinationIP p env.ip6)

/-- One iteration of the inner loop of `processInbound`, which is left when it
waits for more data. The rest returned is `unprocessed[processed:]`. -/
def extract (inbound : Inbound) (pending : Bytes) : Checked (Option (Inbound × Bytes)) := do
  if pending.length < 20 then return none
  let (prePkt, totalLen) ← peek pending
  if env.mtu < totalLen then
    -- An oversized packet is skipped before it is known to be complete.
    let rest ← (Slice.ofBytes pending).dropFront totalLen
    return some (inbound, rest.array)
  if pending.length < totalLen then return none
  let pkt ← fillPacket (env.buffer inbound.taken)
    (rewrite env inbound.taken) prePkt (pending.take totalLen)
  return some (inbound.enqueue (env.accepts inbound.taken) pkt, pending.drop totalLen)

theorem le_bufferSize (minCap : Nat) : minCap ≤ bufferSize minCap ∧ 512 ≤ bufferSize minCap := by
  rw [bufferSize]
  repeat' split
  all_goals omega

variable (index : Nat)

theorem mtu_le_cap : env.mtu ≤ (env.buffer index).cap := by
  have hlen := env.len_buffer index
  have hle := (env.buffer index).len_le
  have hsize := (le_bufferSize env.mtu).1
  rw [Slice.cap]
  omega

theorem le_len_buffer : 512 ≤ (env.buffer index).len := by
  rw [env.len_buffer]
  exact (le_bufferSize env.mtu).2

variable {p : Slice}

theorem succeeds_getICMPProtocolData (hlen : 512 ≤ p.len) :
    Succeeds (getICMPProtocolData (.v4 p)) := by
  have hheader := IPv4Packet.headerLen_le p
  rw [getICMPProtocolData]
  simp only [IPPacket.payloadOffset, IPPacket.slice]
  rw [IPv4Packet.succeeds_payloadOffset_bind]
  refine ⟨by omega, ?_⟩
  rw [Slice.dropFront, dif_pos (by omega), ok_bind, Slice.succeeds_get_bind,
    Slice.succeeds_get_bind]
  exact ⟨by simp only; omega, by simp only; omega, succeeds_pure _⟩

theorem succeeds_protocolData (hlen : 512 ≤ p.len) :
    Succeeds (protocolData (.v4 p) (p.byte 9)) := by
  have hget : IPv4Packet.protocol p = .ok (p.byte 9) := if_pos (by omega)
  rw [protocolData]
  split
  · rename_i hports
    have hneither : ¬ (p.byte 9 ≠ protocolTCP ∧ p.byte 9 ≠ protocolUDP) :=
      fun h => hports.elim h.1 h.2
    simp only [IPPacket.sourcePort, IPv4Packet.sourcePort,
      IPPacket.destinationPort, IPv4Packet.destinationPort]
    rw [hget, ok_bind, if_neg hneither, succeeds_word_bind, ok_bind,
      if_neg hneither, succeeds_word_bind]
    exact ⟨by omega, by omega, succeeds_pure _⟩
  · split
    · exact succeeds_getICMPProtocolData hlen
    · exact succeeds_pure _

theorem succeeds_newTuple (hlen : 512 ≤ p.len) : Succeeds (newTuple (.v4 p)) := by
  have hcap : 512 ≤ p.cap := Nat.le_trans hlen p.len_le
  have hsub : ∀ low high, low ≤ high → high ≤ 512 →
      p.sub low high = .ok (p.array.window low (high - low)) :=
    fun low high hle hhigh => if_pos ⟨hle, Nat.le_trans hhigh hcap⟩
  obtain ⟨data, hdata⟩ := succeeds_protocolData hlen
  have hget : IPv4Packet.protocol p = .ok (p.byte 9) := if_pos (by omega)
  simp only [newTuple, IPPacket.version, IPv4Packet.version, bind_assoc, pure_bind]
  rw [p.succeeds_get_bind]
  refine ⟨by omega, ?_⟩
  simp only [IPPacket.protocol, IPPacket.sourceIP, IPv4Packet.sourceIP,
    IPPacket.destinationIP, IPv4Packet.destinationIP]
  rw [hget, ok_bind, hdata, ok_bind, hsub 12 16 (by decide) (by decide),
    ok_bind, hsub 16 20 (by decide) (by decide)]
  exact succeeds_pure _

def addressPlaces : IPPacket → Nat → Prop
  | .v4 _, index => 16 ≤ index ∧ index < 20
  | .v6 _, index => 24 ≤ index ∧ index < 40

theorem rewritesAt_v4 (hlen : 512 ≤ p.len) :
    RewritesAt (addressPlaces (.v4 p)) (rewrite env index) (.v4 p) := by
  obtain ⟨tuple, htuple⟩ := succeeds_newTuple hlen
  have hcap : 20 ≤ p.cap := Nat.le_trans (by omega) p.len_le
  simp only [RewritesAt, rewrite, htuple, ok_bind]
  split
  · exact ⟨_, rfl, .rfl p⟩
  · split
    · exact ⟨_, rfl, .rfl p⟩
    · rename_i ip _
      obtain ⟨q, hcopy, hchanged⟩ := Slice.ChangedAt.exists_copyTo p
        (by decide : 16 ≤ 20) hcap (to4 ip)
      refine ⟨.v4 q, ?_, hchanged⟩
      rw [IPv4Packet.setDestinationIP, hcopy]
      rfl

theorem rewritesAt_v6 (hlen : 512 ≤ p.len) :
    RewritesAt (addressPlaces (.v6 p)) (rewrite env index) (.v6 p) := by
  have hcap : 40 ≤ p.cap := Nat.le_trans (by omega) p.len_le
  obtain ⟨q, hcopy, hchanged⟩ := Slice.ChangedAt.exists_copyTo p
    (by decide : 24 ≤ 40) hcap (to16 env.ip6)
  refine ⟨.v6 q, ?_, hchanged⟩
  rw [rewrite, IPv6Packet.setDestinationIP, hcopy]
  rfl

section

variable {env} {inbound : Inbound} {pending : Bytes} {prePkt : IPPacket}

theorem extract_of_short (hshort : pending.length < 20) : extract env inbound pending = .ok none :=
  if_pos hshort

theorem extract_of_none (hlen : 20 ≤ pending.length) (hhead : headPacket pending = none) :
    extract env inbound pending = .error .nilInterface := by
  rw [extract, if_neg (by omega), peek_of_none hlen hhead]
  rfl

theorem extract_of_some (hlen : 20 ≤ pending.length) (hhead : headPacket pending = some prePkt) :
    extract env inbound pending =
      if env.mtu < prePkt.statedLength then do
        let rest ← (Slice.ofBytes pending).dropFront prePkt.statedLength
        return some (inbound, rest.array)
      else if pending.length < prePkt.statedLength then .ok none
      else do
        let pkt ← fillPacket (env.buffer inbound.taken) (rewrite env inbound.taken) prePkt
          (pending.take prePkt.statedLength)
        return some (inbound.enqueue (env.accepts inbound.taken) pkt,
          pending.drop prePkt.statedLength) := by
  rw [extract, if_neg (by omega), peek_of_some hlen hhead]
  rfl

end

end Pig.Tunnel.Client
