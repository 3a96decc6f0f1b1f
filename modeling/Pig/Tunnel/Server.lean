import Pig.Tunnel.Inbound

namespace Pig.Tunnel.Server

open Go Network

/-! The server's side: packets from a client get the source address assigned to
that client. -/

/-- Buffers of the pool have room for the MTU, but one that was cut to a packet
read from the adapter comes back with the length of that packet. -/
structure Env where
  mtu : Nat
  sourceIP : Bytes
  sourceIP6 : Option Bytes
  buffer : Nat → Slice
  mtu_le_cap : ∀ index, mtu ≤ (buffer index).cap
  header_le_len : ∀ index, 20 ≤ (buffer index).len
  accepts : Nat → Bool

variable (env : Env)

def rewrite : IPPacket → Checked IPPacket
  | .v4 p => return .v4 (← IPv4Packet.setSourceIP p env.sourceIP)
  | .v6 p =>
    match env.sourceIP6 with
    | none => return .v6 p
    | some ip => return .v6 (← IPv6Packet.setSourceIP p ip)

def describe (pkt : IPPacket) : Checked Unit := do
  let _ ← pkt.version
  let _ ← pkt.protocol
  let _ ← pkt.sourcePort
  let _ ← pkt.sourceIP
  let _ ← pkt.destinationIP
  let _ ← pkt.destinationPort

/-- One iteration of the inner loop of `handleInbound`. Here a packet is known
to be complete before its length is compared with the MTU. -/
def extract (inbound : Inbound) (pending : Bytes) : Checked (Option (Inbound × Bytes)) := do
  if pending.length < 20 then return none
  let (prePkt, totalLen) ← peek pending
  if pending.length < totalLen then return none
  if env.mtu < totalLen then
    describe prePkt
    return some (inbound, pending.drop totalLen)
  let pkt ← fillPacket (env.buffer inbound.taken) (rewrite env) prePkt (pending.take totalLen)
  return some (inbound.enqueue (env.accepts inbound.taken) pkt, pending.drop totalLen)

def addressPlaces : IPPacket → Nat → Prop
  | .v4 _, index => 12 ≤ index ∧ index < 16
  | .v6 _, index => 8 ≤ index ∧ index < 24

theorem rewritesAt_v4 {p : Slice} (hlen : 20 ≤ p.len) :
    RewritesAt (addressPlaces (.v4 p)) (rewrite env) (.v4 p) := by
  have hcap : 16 ≤ p.cap := Nat.le_trans (by omega) p.len_le
  obtain ⟨q, hcopy, hchanged⟩ := Slice.ChangedAt.exists_copyTo p
    (by decide : 12 ≤ 16) hcap (to4 env.sourceIP)
  refine ⟨.v4 q, ?_, hchanged⟩
  rw [rewrite, IPv4Packet.setSourceIP, hcopy]
  rfl

theorem rewritesAt_v6 {p : Slice} (hcap : 24 ≤ p.cap) :
    RewritesAt (addressPlaces (.v6 p)) (rewrite env) (.v6 p) := by
  simp only [RewritesAt, rewrite]
  split
  · exact ⟨_, rfl, .rfl p⟩
  · rename_i ip _
    obtain ⟨q, hcopy, hchanged⟩ := Slice.ChangedAt.exists_copyTo p
      (by decide : 8 ≤ 24) hcap (to16 ip)
    refine ⟨.v6 q, ?_, hchanged⟩
    rw [IPv6Packet.setSourceIP, hcopy]
    rfl

section

variable {env} {inbound : Inbound} {pending : Bytes} {prePkt : IPPacket}

theorem extract_of_short (hshort : pending.length < 20) : extract env inbound pending = .ok none :=
  if_pos hshort

theorem extract_of_none (hlen : 20 ≤ pending.length) (hhead : headPacket pending = none) :
    extract env inbound pending = .error .nilInterface := by
  rw [extract, if_neg (by omega), peek_of_none hlen hhead]
  rfl

theorem extract_of_some (hlen : 20 ≤ pending.length) (hhead : headPacket pending = some prePkt) :
    extract env inbound pending =
      if pending.length < prePkt.statedLength then .ok none
      else if env.mtu < prePkt.statedLength then do
        describe prePkt
        return some (inbound, pending.drop prePkt.statedLength)
      else do
        let pkt ← fillPacket (env.buffer inbound.taken) (rewrite env) prePkt
          (pending.take prePkt.statedLength)
        return some (inbound.enqueue (env.accepts inbound.taken) pkt,
          pending.drop prePkt.statedLength) := by
  rw [extract, if_neg (by omega), peek_of_some hlen hhead]
  rfl

end

end Pig.Tunnel.Server
