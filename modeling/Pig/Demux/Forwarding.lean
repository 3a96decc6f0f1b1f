import Pig.Network.IPv4

namespace Pig.Demux

open Go Network

/-! Packets written to an adapter of the demultiplexer, on their way through a
pooled buffer to the real adapter. -/

/-- The packet that is queued. It has the type of an IPv4 packet. -/
def Adapter.write (buffer : Slice) (b : Bytes) : Slice := buffer.write 0 (b.take buffer.len)

def writeToAdapter (pkt : Slice) : Checked Bytes := do
  let totalLength ← IPv4Packet.totalLength pkt
  pkt.sub 0 totalLength

inductive IsPacket (b : Bytes) : Prop
  | v4 (version : b.getD 0 0 >>> 4 = 4) (least : 20 ≤ b.length)
      (total : wordAt (.ofBytes b) 2 = b.length)
  | v6 (version : b.getD 0 0 >>> 4 = 6) (total : wordAt (.ofBytes b) 4 + 40 = b.length)

theorem IsPacket.least {b : Bytes} (packet : IsPacket b) : 20 ≤ b.length := by
  cases packet <;> omega

section

variable {buffer : Slice} {b : Bytes}

theorem byte_write {index : Nat} (hindex : index < b.length) (hfits : b.length ≤ buffer.len) :
    (Adapter.write buffer b).byte index = b.getD index 0 := by
  have hcap : buffer.len ≤ buffer.cap := buffer.len_le
  rw [Adapter.write, List.take_of_length_le hfits]
  exact buffer.byte_write_of_inside (Nat.zero_le _) (by omega) (by omega)

/-- Whatever the buffer held before, a packet comes through unchanged exactly
if the field that an IPv4 header has at this place states its length. -/
theorem writeToAdapter_eq_iff {mtu : Nat} (hbuffer : mtu ≤ buffer.len) (packet : IsPacket b)
    (hmtu : b.length ≤ mtu) : writeToAdapter (Adapter.write buffer b) = .ok b ↔
      b.getD 0 0 >>> 4 = 4 ∨ wordAt (.ofBytes b) 2 = b.length := by
  have hleast := packet.least
  have hfits : b.length ≤ buffer.len := Nat.le_trans hmtu hbuffer
  have hcap : b.length ≤ (Adapter.write buffer b).cap := by
    rw [Adapter.write, Slice.cap_write]
    exact Nat.le_trans hfits buffer.len_le
  have hlength : IPv4Packet.totalLength (Adapter.write buffer b) =
      .ok (wordAt (.ofBytes b) 2) := by
    have hheader : 2 + 1 < (Adapter.write buffer b).len := Nat.lt_of_lt_of_le (by omega) hfits
    rw [IPv4Packet.totalLength, word_eq hheader, wordAt, byte_write (by omega) hfits,
      byte_write (by omega) hfits]
    rfl
  have hsame : writeToAdapter (Adapter.write buffer b) = .ok b ↔
      wordAt (.ofBytes b) 2 = b.length := by
    rw [writeToAdapter, hlength, ok_bind, Slice.sub_eq_ok_iff]
    constructor
    · rintro ⟨hbounds, hwindow⟩
      have hcount := congrArg List.length hwindow
      rwa [Bytes.length_window _ _ _ (by rw [← Slice.cap]; omega), Nat.sub_zero] at hcount
    · intro htotal
      rw [htotal]
      refine ⟨⟨Nat.zero_le _, hcap⟩, Slice.window_eq_of_byte _ 0 b (by omega) fun index hindex =>
        ?_⟩
      rw [Nat.zero_add, byte_write hindex hfits]
  rw [hsame]
  refine ⟨.inr, ?_⟩
  rintro (hversion | htotal)
  · cases packet with
    | v4 _ _ total => exact total
    | v6 version => cases hversion.symm.trans version
  · exact htotal

end

def sampleHeader (version totalLength : UInt8) : Bytes :=
  [version <<< 4, 0, 0, totalLength] ++ List.replicate 16 0

theorem writeToAdapter_eq_iff_ipv4 : writeToAdapter (Adapter.write (.ofBytes
    (List.replicate 64 0xaa)) (sampleHeader 4 20)) = .ok (sampleHeader 4 20) :=
  (writeToAdapter_eq_iff (Nat.le_refl 64) (.v4 (by decide) (by decide) (by decide))
    (by decide)).mpr (.inl (by decide))

/-- Nothing of an IPv6 packet without payload and flow label is passed on. -/
theorem exists_not_forwarded : IsPacket (sampleHeader 6 0 ++ List.replicate 20 0) ∧
    writeToAdapter (Adapter.write (.ofBytes (List.replicate 64 0xaa))
      (sampleHeader 6 0 ++ List.replicate 20 0)) = .ok [] :=
  ⟨.v6 (by decide) (by decide), by decide +kernel⟩

end Pig.Demux
