import Pig.Lib.Reassembly
import Pig.Network.IPv6

namespace Pig.Network

open Go

inductive IPPacket where
  | v4 (p : Slice)
  | v6 (p : Slice)
  deriving DecidableEq, Repr

namespace IPPacket

def slice : IPPacket → Slice
  | .v4 p => p
  | .v6 p => p

def ofVersion (p : Slice) : Nat → Option IPPacket
  | 4 => some (.v4 p)
  | 6 => some (.v6 p)
  | _ => none

def inBuffer (buffer : Slice) : IPPacket → IPPacket
  | .v4 _ => .v4 buffer
  | .v6 _ => .v6 buffer

def version : IPPacket → Checked Nat
  | .v4 p => IPv4Packet.version p
  | .v6 p => IPv6Packet.version p

def totalLength : IPPacket → Checked Nat
  | .v4 p => IPv4Packet.totalLength p
  | .v6 p => IPv6Packet.totalLength p

def destinationIP : IPPacket → Checked Bytes
  | .v4 p => IPv4Packet.destinationIP p
  | .v6 p => IPv6Packet.destinationIP p

def sourceIP : IPPacket → Checked Bytes
  | .v4 p => IPv4Packet.sourceIP p
  | .v6 p => IPv6Packet.sourceIP p

def destinationPort : IPPacket → Checked Nat
  | .v4 p => IPv4Packet.destinationPort p
  | .v6 p => IPv6Packet.destinationPort p

def sourcePort : IPPacket → Checked Nat
  | .v4 p => IPv4Packet.sourcePort p
  | .v6 p => IPv6Packet.sourcePort p

def protocol : IPPacket → Checked UInt8
  | .v4 p => IPv4Packet.protocol p
  | .v6 p => IPv6Packet.protocol p

def payloadOffset : IPPacket → Checked Nat
  | .v4 p => IPv4Packet.payloadOffset p
  | .v6 _ => return 40

def updateChecksum : IPPacket → Checked IPPacket
  | .v4 p => return .v4 (← IPv4Packet.updateChecksum p)
  | .v6 p => return .v6 (← IPv6Packet.updateChecksum p)

def ChecksumPlaces : IPPacket → Nat → Prop
  | .v4 p => IPv4Packet.ChecksumPlaces p
  | .v6 p => IPv6Packet.ChecksumPlaces p

def ChangedAt (places : Nat → Prop) : IPPacket → IPPacket → Prop
  | .v4 p, .v4 q => p.ChangedAt places q
  | .v6 p, .v6 q => p.ChangedAt places q
  | _, _ => False

def statedLength : IPPacket → Nat
  | .v4 p => wordAt p 2
  | .v6 p => wordAt p 4 + 40

theorem totalLength_eq {pkt : IPPacket} (hlen : 6 ≤ pkt.slice.len) :
    pkt.totalLength = .ok pkt.statedLength := by
  cases pkt with
  | v4 p => exact word_eq (Nat.lt_of_lt_of_le (by decide) hlen)
  | v6 p =>
    simp only [totalLength, IPv6Packet.totalLength]
    rw [word_bind_eq_ok]
    exact ⟨Nat.lt_of_lt_of_le (by decide) hlen, rfl⟩

@[simp] theorem slice_inBuffer (buffer : Slice) (pkt : IPPacket) :
    (pkt.inBuffer buffer).slice = buffer := by
  cases pkt <;> rfl

end IPPacket

end Pig.Network

namespace Pig.Tunnel

open Go Network

def readBufferSize : Nat := 64 * 1024

structure Inbound where
  taken : Nat
  queue : List IPPacket
  deriving DecidableEq, Repr

namespace Inbound

def empty : Inbound := ⟨0, []⟩

def enqueue (inbound : Inbound) (accepts : Bool) (pkt : IPPacket) : Inbound where
  taken := inbound.taken + 1
  queue := if accepts then inbound.queue ++ [pkt] else inbound.queue

end Inbound

def peek (pending : Bytes) : Checked (IPPacket × Nat) := do
  let head := Slice.ofBytes pending
  let version ← IPv4Packet.version head
  let prePkt ← deref (IPPacket.ofVersion head version)
  let totalLen ← prePkt.totalLength
  return (prePkt, totalLen)

def fillPacket (buffer : Slice) (rewrite : IPPacket → Checked IPPacket)
    (prePkt : IPPacket) (data : Bytes) : Checked IPPacket := do
  let buffer ← buffer.copyTo 0 data.length data
  let pkt ← rewrite (prePkt.inBuffer buffer)
  pkt.updateChecksum

section

variable {buffer : Slice} {rewrite : IPPacket → Checked IPPacket}
  {addresses : Nat → Prop} {p : Slice} {data : Bytes}

theorem copyTo_data (hcap : data.length ≤ buffer.cap) :
    buffer.copyTo 0 data.length data = .ok (buffer.write 0 data) := by
  rw [Slice.copyTo_eq_ok_iff, Nat.sub_zero, List.take_length]
  exact ⟨⟨Nat.zero_le _, hcap⟩, rfl⟩

theorem byte_write_data (hcap : data.length ≤ buffer.cap) {index : Nat}
    (hindex : index < data.length) :
    (buffer.write 0 data).byte index = data.getD index 0 := by
  rw [Slice.byte_write_of_inside _ (Nat.zero_le _) (by omega) (by omega), Nat.sub_zero]

def RewritesAt (addresses : Nat → Prop) (rewrite : IPPacket → Checked IPPacket) (pkt : IPPacket) :
  Prop := ∃ after, rewrite pkt = .ok after ∧ pkt.ChangedAt addresses after

theorem fillPacket_eq (prePkt after : IPPacket) (hcap : data.length ≤ buffer.cap)
    (hafter : rewrite (prePkt.inBuffer (buffer.write 0 data)) = .ok after) :
    fillPacket buffer rewrite prePkt data = after.updateChecksum := by
  rw [fillPacket, copyTo_data hcap, ok_bind, hafter, ok_bind]

variable (hcap : data.length ≤ buffer.cap)

include hcap

theorem fillPacket_v4 (hrewrite : RewritesAt addresses rewrite (.v4 (buffer.write 0 data))) :
    ∃ q, (buffer.write 0 data).ChangedAt addresses q ∧ fillPacket buffer rewrite (.v4 p) data =
        (IPv4Packet.updateChecksum q >>= fun q => pure (.v4 q)) := by
  obtain ⟨after, hafter, hchanged⟩ := hrewrite
  cases after with
  | v4 q => exact ⟨q, hchanged, fillPacket_eq (.v4 p) (.v4 q) hcap hafter⟩
  | v6 q => exact hchanged.elim

theorem fillPacket_v6 (hrewrite : RewritesAt addresses rewrite (.v6 (buffer.write 0 data))) :
    ∃ q, (buffer.write 0 data).ChangedAt addresses q ∧ fillPacket buffer rewrite (.v6 p) data =
        (IPv6Packet.updateChecksum q >>= fun q => pure (.v6 q)) := by
  obtain ⟨after, hafter, hchanged⟩ := hrewrite
  cases after with
  | v4 q => exact hchanged.elim
  | v6 q => exact ⟨q, hchanged, fillPacket_eq (.v6 p) (.v6 q) hcap hafter⟩

theorem succeeds_fillPacket_v4 (hlen : 20 ≤ buffer.len) (hrewrite : RewritesAt addresses rewrite
    (.v4 (buffer.write 0 data))) (haddresses : ∀ index, addresses index → 10 ≤ index) :
    Succeeds (fillPacket buffer rewrite (.v4 p) data) ↔
      IPv4Packet.ChecksumFits (buffer.write 0 data) := by
  obtain ⟨q, hchanged, hfill⟩ := fillPacket_v4 (p := p) hcap hrewrite
  obtain ⟨hheader, hwords, hprotocol⟩ := IPv4Packet.header_of_changedAt hchanged haddresses
  have hlen_eq : q.len = (buffer.write 0 data).len := hchanged.len_eq
  rw [hfill, succeeds_bind_pure, IPv4Packet.succeeds_updateChecksum (hlen_eq ▸ hlen)]
  simp only [IPv4Packet.ChecksumFits, hheader, hwords, hprotocol, hlen_eq]

theorem succeeds_fillPacket_v6
    (hrewrite : RewritesAt addresses rewrite (.v6 (buffer.write 0 data))) :
    Succeeds (fillPacket buffer rewrite (.v6 p) data) := by
  obtain ⟨q, -, hfill⟩ := fillPacket_v6 (p := p) hcap hrewrite
  rw [hfill, succeeds_bind_pure]
  exact IPv6Packet.succeeds_updateChecksum q

end

def headPacket (pending : Bytes) : Option IPPacket :=
  IPPacket.ofVersion (Slice.ofBytes pending) (pending.getD 0 0 >>> 4).toNat

variable {prePkt : IPPacket}

variable {pending : Bytes}

theorem headPacket_cases (hhead : headPacket pending = some prePkt) :
    ((pending.getD 0 0 >>> 4).toNat = 4 ∧ prePkt = .v4 (Slice.ofBytes pending)) ∨
    ((pending.getD 0 0 >>> 4).toNat = 6 ∧ prePkt = .v6 (Slice.ofBytes pending)) := by
  rw [headPacket, IPPacket.ofVersion.eq_def] at hhead
  split at hhead
  · cases hhead
    exact .inl ⟨by assumption, rfl⟩
  · cases hhead
    exact .inr ⟨by assumption, rfl⟩
  · cases hhead

theorem slice_headPacket (hhead : headPacket pending = some prePkt) :
    prePkt.slice = Slice.ofBytes pending := by
  obtain ⟨-, rfl⟩ | ⟨-, rfl⟩ := headPacket_cases hhead <;> rfl

theorem peek_eq (hlen : 20 ≤ pending.length) : peek pending = do
    let prePkt ← deref (headPacket pending)
    return (prePkt, ← prePkt.totalLength) := by
  have hget : (Slice.ofBytes pending).get 0 = .ok (pending.getD 0 0) :=
    Slice.get_ofBytes (Nat.lt_of_lt_of_le (by decide) hlen)
  simp only [peek, IPv4Packet.version, hget, ok_bind, pure_bind]
  rfl

theorem peek_of_none (hlen : 20 ≤ pending.length) (hhead : headPacket pending = none) :
    peek pending = .error .nilInterface := by
  rw [peek_eq hlen, hhead]
  rfl

theorem peek_of_some (hlen : 20 ≤ pending.length) (hhead : headPacket pending = some prePkt) :
    peek pending = .ok (prePkt, prePkt.statedLength) := by
  have htotal : prePkt.totalLength = .ok prePkt.statedLength := by
    apply IPPacket.totalLength_eq
    rw [slice_headPacket hhead]
    exact Nat.le_trans (by decide) hlen
  rw [peek_eq hlen, hhead, deref_some, ok_bind, htotal]
  rfl

end Pig.Tunnel
