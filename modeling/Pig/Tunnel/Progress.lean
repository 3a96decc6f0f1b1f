import Pig.Tunnel.Reframing

namespace Pig.Tunnel

open Go Network Reassembly

/-! Arbitrary data in place of packets: which iterations of the two extraction
loops consume something or wait, and which fail a check or repeat. -/

theorem length_drop_lt_iff {pending : Bytes} {stated : Nat} (hlen : 20 ≤ pending.length) :
    (pending.drop stated).length < pending.length ↔ 0 < stated := by
  rw [List.length_drop]
  omega

theorem progresses_of_fill {Found : Type} {capacity : Nat} {extract : Inbound → Bytes → Checked
    (Option (Inbound × Bytes))} {inbound : Inbound} {pending : Bytes} {stated : Nat}
    {found : Checked Found} {after : Found → Inbound} (hlen : 20 ≤ pending.length)
    (hextract : extract inbound pending = found >>= fun pkt => pure
    (some (after pkt, pending.drop stated))) :
    Progresses capacity extract inbound pending ↔ Succeeds found ∧ 0 < stated := by
  cases found with
  | error fault =>
    exact iff_of_false (progresses_of_error _ _ hextract)
      fun h => not_succeeds_error fault h.1
  | ok pkt =>
    rw [progresses_of_some _ _ hextract, length_drop_lt_iff hlen]
    simp

theorem progresses_iff_head {extract : Inbound → Bytes → Checked (Option (Inbound × Bytes))}
    {inbound : Inbound} {pending : Bytes} {handled : IPPacket → Prop}
    (hshort : pending.length < 20 → extract inbound pending = .ok none)
    (hnone : 20 ≤ pending.length → headPacket pending = none → extract inbound pending = .error
    .nilInterface) (hsome : ∀ prePkt, 20 ≤ pending.length → headPacket pending = some prePkt →
    (Progresses readBufferSize extract inbound pending ↔ handled prePkt)) :
    Progresses readBufferSize extract inbound pending ↔ pending.length < 20 ∨
      ∃ prePkt, headPacket pending = some prePkt ∧ handled prePkt := by
  by_cases hlen : pending.length < 20
  · rw [progresses_of_none _ _ (hshort hlen)]
    exact iff_of_true (Nat.lt_trans hlen (by decide)) (.inl hlen)
  · cases hhead : headPacket pending with
    | none =>
      exact iff_of_false (progresses_of_error _ _ (hnone (by omega) hhead)) (by simp [hlen])
    | some prePkt =>
      rw [hsome prePkt (by omega) hhead]
      simp [hlen]

namespace Client

variable {env : Env} {inbound : Inbound} {pending : Bytes} {prePkt : IPPacket}

/-- A known version, a length that is not zero, all of an oversized packet, and
a packet that fits the read buffer. -/
def Handled (env : Env) (pending : Bytes) : Prop := pending.length < 20 ∨
    ∃ prePkt, headPacket pending = some prePkt ∧ 0 < prePkt.statedLength ∧
      (env.mtu < prePkt.statedLength → prePkt.statedLength ≤ pending.length) ∧
      (pending.length < prePkt.statedLength → pending.length < readBufferSize)

theorem succeeds_fillPacket {data : Bytes} (index : Nat) (hdata : data.length ≤ env.mtu) :
    Succeeds (fillPacket (env.buffer index) (rewrite env index) prePkt data) := by
  have hlen := le_len_buffer env index
  have hcap := Nat.le_trans hdata (mtu_le_cap env index)
  cases prePkt with
  | v4 p =>
    rw [succeeds_fillPacket_v4 hcap (by omega) (rewritesAt_v4 env index hlen) fun place hplace =>
        Nat.le_trans (by decide) hplace.1]
    have hheader := IPv4Packet.headerLen_le ((env.buffer index).write 0 data)
    intro _
    rw [Slice.len_write]
    exact ⟨by omega, fun _ => by omega, fun _ => by omega⟩
  | v6 p => exact succeeds_fillPacket_v6 hcap (rewritesAt_v6 env index hlen)

theorem progresses_iff : Progresses readBufferSize (extract env) inbound pending ↔
      Handled env pending := by
  refine progresses_iff_head extract_of_short extract_of_none fun prePkt hlong hhead => ?_
  have hextract : extract env inbound pending = _ := extract_of_some hlong hhead
  by_cases hmtu : env.mtu < prePkt.statedLength
  · rw [if_pos hmtu] at hextract
    by_cases hstated : prePkt.statedLength ≤ pending.length
    · rw [Slice.dropFront_ofBytes hstated, ok_bind] at hextract
      rw [progresses_of_some _ _ hextract, Slice.ofBytes, length_drop_lt_iff hlong]
      omega
    · rw [Slice.dropFront, dif_neg (by exact hstated), error_bind] at hextract
      exact iff_of_false (progresses_of_error _ _ hextract)
        fun h => hstated (h.2.1 hmtu)
  · rw [if_neg hmtu] at hextract
    by_cases hstated : pending.length < prePkt.statedLength
    · rw [if_pos hstated] at hextract
      rw [progresses_of_none _ _ hextract]
      omega
    · rw [if_neg hstated] at hextract
      rw [progresses_of_fill hlong hextract]
      have hdata := List.length_take_of_le (Nat.not_lt.mp hstated)
      have hfill : Succeeds (fillPacket (env.buffer inbound.taken) (rewrite env inbound.taken)
        prePkt (pending.take prePkt.statedLength)) := succeeds_fillPacket inbound.taken (by omega)
      simp only [hfill, true_and, hmtu, hstated, false_implies, and_true]

end Client

namespace Server

variable {env : Env} {inbound : Inbound} {pending : Bytes} {prePkt : IPPacket}

def Describable : IPPacket → Prop
  | .v4 p => p.byte 9 = protocolTCP ∨ p.byte 9 = protocolUDP → 24 ≤ p.len
  | .v6 _ => True

def Summable (buffer : Slice) (data : Bytes) : IPPacket → Prop
  | .v4 _ => IPv4Packet.ChecksumFits (buffer.write 0 data)
  | .v6 _ => True

/-- A known version, a length that is not zero, a packet that fits the read
buffer and, once it is complete, fields where they are looked for. -/
def Handled (env : Env) (inbound : Inbound) (pending : Bytes) : Prop := pending.length < 20 ∨
    ∃ prePkt, headPacket pending = some prePkt ∧ 0 < prePkt.statedLength ∧
      (pending.length < prePkt.statedLength → pending.length < readBufferSize) ∧
      (prePkt.statedLength ≤ pending.length → (env.mtu < prePkt.statedLength → Describable prePkt) ∧
        (prePkt.statedLength ≤ env.mtu → Summable (env.buffer inbound.taken)
            (pending.take prePkt.statedLength) prePkt))

theorem succeeds_describe_v4 {p : Slice} (hlen : 20 ≤ p.len) :
    Succeeds (describe (.v4 p)) ↔ Describable (.v4 p) := by
  have hcap : 20 ≤ p.cap := Nat.le_trans hlen p.len_le
  have hsub : ∀ low high, low ≤ high → high ≤ 20 →
      p.sub low high = .ok (p.array.window low (high - low)) :=
    fun low high hle hhigh => if_pos ⟨hle, Nat.le_trans hhigh hcap⟩
  have hget : ∀ index, index < 20 → p.get index = .ok (p.byte index) :=
    fun index hindex => if_pos (Nat.lt_of_lt_of_le hindex hlen)
  simp only [describe, IPPacket.version, IPv4Packet.version, IPPacket.protocol, IPPacket.sourcePort,
    IPv4Packet.sourcePort, IPPacket.sourceIP, IPv4Packet.sourceIP, IPPacket.destinationIP,
    IPv4Packet.destinationIP, IPPacket.destinationPort, IPv4Packet.destinationPort,
    IPv4Packet.protocol, hget 0 (by decide), hget 9 (by decide), hsub 12 16 (by decide) (by decide),
    hsub 16 20 (by decide) (by decide), ok_bind, pure_bind, Describable]
  by_cases hports : p.byte 9 = protocolTCP ∨ p.byte 9 = protocolUDP
  · have hneither : ¬ (p.byte 9 ≠ protocolTCP ∧ p.byte 9 ≠ protocolUDP) :=
      fun h => hports.elim h.1 h.2
    simp only [if_neg hneither, hports, forall_const]
    rw [succeeds_word_bind, succeeds_word_bind]
    constructor
    · omega
    · intro hlen
      exact ⟨by omega, by omega, succeeds_pure _⟩
  · have hneither : p.byte 9 ≠ protocolTCP ∧ p.byte 9 ≠ protocolUDP := not_or.mp hports
    simp only [if_pos hneither, pure_bind, hports, false_implies]
    exact iff_of_true (succeeds_pure _) trivial

theorem succeeds_describe_v6 {p : Slice} (hlen : 40 ≤ p.len) : Succeeds (describe (.v6 p)) := by
  have hcap : 40 ≤ p.cap := Nat.le_trans hlen p.len_le
  have hsub : ∀ low high, low ≤ high → high ≤ 40 →
      p.sub low high = .ok (p.array.window low (high - low)) :=
    fun low high hle hhigh => if_pos ⟨hle, Nat.le_trans hhigh hcap⟩
  have hget : p.get 0 = .ok (p.byte 0) := if_pos (by omega)
  obtain ⟨protocol, hprotocol⟩ := IPv6Packet.succeeds_protocol p
  obtain ⟨source, hsource⟩ := IPv6Packet.succeeds_port p (by decide : 0 ≤ 2)
  obtain ⟨destination, hdestination⟩ := IPv6Packet.succeeds_port p (Nat.le_refl 2)
  simp only [describe, IPPacket.version, IPv6Packet.version, IPPacket.protocol, hprotocol,
    IPPacket.sourcePort, IPv6Packet.sourcePort, hsource, IPPacket.sourceIP, IPv6Packet.sourceIP,
    IPPacket.destinationIP, IPv6Packet.destinationIP, IPPacket.destinationPort,
    IPv6Packet.destinationPort, hdestination, hget, hsub 8 24 (by decide) (by decide), hsub 24 40
    (by decide) (by decide), ok_bind, pure_bind]
  exact succeeds_pure _

theorem succeeds_describe (hlen : 20 ≤ pending.length) (hhead : headPacket pending = some prePkt)
    (hstated : prePkt.statedLength ≤ pending.length) :
    Succeeds (describe prePkt) ↔ Describable prePkt := by
  obtain ⟨-, rfl⟩ | ⟨-, rfl⟩ := headPacket_cases hhead
  · exact succeeds_describe_v4 hlen
  · rw [IPPacket.statedLength] at hstated
    exact iff_of_true (succeeds_describe_v6 (Nat.le_trans (by omega) hstated)) trivial

theorem succeeds_fillPacket (hhead : headPacket pending = some prePkt)
    (hstated : prePkt.statedLength ≤ pending.length)
    (hmtu : prePkt.statedLength ≤ env.mtu) (index : Nat) :
    Succeeds (fillPacket (env.buffer index) (rewrite env) prePkt (pending.take prePkt.statedLength))
      ↔ Summable (env.buffer index) (pending.take prePkt.statedLength)
        prePkt := by
  have hdata := List.length_take_of_le hstated
  have hroom := env.mtu_le_cap index
  have hbuffer := env.header_le_len index
  obtain ⟨-, rfl⟩ | ⟨-, rfl⟩ := headPacket_cases hhead
  · exact succeeds_fillPacket_v4 (by omega) hbuffer (rewritesAt_v4 env hbuffer) fun place hplace =>
        Nat.le_trans (by decide) hplace.1
  · refine iff_of_true (succeeds_fillPacket_v6 (by omega) (rewritesAt_v6 env ?_)) trivial
    rw [Slice.cap_write]
    rw [IPPacket.statedLength] at hmtu
    omega

theorem progresses_iff : Progresses readBufferSize (extract env) inbound pending ↔
      Handled env inbound pending := by
  refine progresses_iff_head extract_of_short extract_of_none fun prePkt hlong hhead => ?_
  have hextract : extract env inbound pending = _ := extract_of_some hlong hhead
  by_cases hstated : pending.length < prePkt.statedLength
  · rw [if_pos hstated] at hextract
    rw [progresses_of_none _ _ hextract]
    omega
  · rw [if_neg hstated] at hextract
    have hle : prePkt.statedLength ≤ pending.length := by omega
    simp only [hstated, hle, false_implies, true_and, forall_const]
    by_cases hmtu : env.mtu < prePkt.statedLength
    · rw [if_pos hmtu] at hextract
      have hnot : ¬ prePkt.statedLength ≤ env.mtu := by omega
      rw [progresses_of_fill hlong hextract, succeeds_describe hlong hhead hle]
      simp only [hmtu, hnot, forall_const, false_implies, and_true]
      exact and_comm
    · rw [if_neg hmtu] at hextract
      have hfits : prePkt.statedLength ≤ env.mtu := by omega
      rw [progresses_of_fill hlong hextract, succeeds_fillPacket hhead hle hfits]
      simp only [hmtu, hfits, forall_const, false_implies, true_and]
      exact and_comm

end Server

/-- In a run whose iterations all find the data handled no check fails, and in
every state reached the next iteration consumes something or waits for a read
that has room exactly when it finds the data handled. -/
theorem extraction_progresses_iff (client : Client.Env) (server : Server.Env)
    (inputs : List Input) :
    (∀ last, Run (step readBufferSize (Client.extract client)) (fun state input => input = .extract
      → ∀ reader, state = .ok reader → Client.Handled client reader.pending) (start Inbound.empty)
      inputs last → ∃ reader, last = .ok reader ∧ (Progresses readBufferSize (Client.extract client)
      reader.state reader.pending ↔ Client.Handled client reader.pending)) ∧
    (∀ last, Run (step readBufferSize (Server.extract server)) (fun state input => input = .extract
      → ∀ reader, state = .ok reader → Server.Handled server reader.state reader.pending)
      (start Inbound.empty) inputs last → ∃ reader, last = .ok reader ∧
      (Progresses readBufferSize (Server.extract server) reader.state reader.pending ↔
      Server.Handled server reader.state reader.pending)) := by
  constructor
  · intro last run
    obtain ⟨reader, hreader⟩ := ok_of_progresses (run.weaken
      fun state input hallowed hextract reader hstate =>
        Client.progresses_iff.mpr (hallowed hextract reader hstate))
    exact ⟨reader, hreader, Client.progresses_iff⟩
  · intro last run
    obtain ⟨reader, hreader⟩ := ok_of_progresses (run.weaken
      fun state input hallowed hextract reader hstate =>
        Server.progresses_iff.mpr (hallowed hextract reader hstate))
    exact ⟨reader, hreader, Server.progresses_iff⟩

theorem extraction_progresses_iff_datagram :
    Progresses readBufferSize (Client.extract sampleClient) .empty datagram4 ∧
      Progresses readBufferSize (Server.extract sampleServer) .empty
        datagram4 := by
  have hhead : headPacket datagram4 = some (.v4 (Slice.ofBytes datagram4)) := by decide
  constructor
  · obtain ⟨reader, hreader, hiff⟩ := (extraction_progresses_iff sampleClient
      sampleServer [.read datagram4]).1 _ (run_read (fun h => by cases h) (by decide))
    cases hreader
    exact hiff.mpr (.inr ⟨_, hhead, by decide, by decide, by decide⟩)
  · obtain ⟨reader, hreader, hiff⟩ := (extraction_progresses_iff sampleClient
      sampleServer [.read datagram4]).2 _ (run_read (fun h => by cases h) (by decide))
    cases hreader
    refine hiff.mpr (.inr ⟨_, hhead, by decide, by decide, fun _ =>
      ⟨fun hmtu => absurd hmtu (by decide), fun _ _ => ?_⟩⟩)
    have hheader := IPv4Packet.headerLen_le ((blank 1500).write 0 datagram4)
    exact ⟨Nat.le_trans hheader (by decide),
      fun _ => Nat.le_trans (Nat.add_le_add_right hheader 4) (by decide),
      fun _ => Nat.le_trans (Nat.add_le_add_right hheader 18) (by decide)⟩

/-! A version that is neither 4 nor 6, an IPv4 packet of length zero, and an
oversized one that is not complete yet. -/

def unknownVersion : Bytes := List.replicate 20 0
def zeroLength : Bytes := 0x45 :: List.replicate 19 0
def oversized : Bytes := [0x45, 0, 0xff, 0xff] ++ List.replicate 16 0

theorem exists_not_progresses : (∀ chunk ∈ [unknownVersion, zeroLength, oversized], Run
    (step readBufferSize (Client.extract sampleClient)) (fun _ _ => True) (start .empty)
    [.read chunk] (.ok ⟨.empty, chunk, false⟩) ∧ ¬ Progresses readBufferSize
    (Client.extract sampleClient) .empty chunk) ∧ (∀ chunk ∈ [unknownVersion, zeroLength], Run
    (step readBufferSize (Server.extract sampleServer)) (fun _ _ => True) (start .empty)
    [.read chunk] (.ok ⟨.empty, chunk, false⟩) ∧ ¬ Progresses readBufferSize
    (Server.extract sampleServer) .empty chunk) := by
  have hunknown : headPacket unknownVersion = none := by decide
  have hzero : headPacket zeroLength = some (.v4 (Slice.ofBytes zeroLength)) := by decide
  have hover : headPacket oversized = some (.v4 (Slice.ofBytes oversized)) := by decide
  constructor
  · intro chunk hchunk
    simp only [List.mem_cons, List.not_mem_nil, or_false] at hchunk
    obtain rfl | rfl | rfl := hchunk
    · exact ⟨run_read trivial (by decide),
        progresses_of_error _ _ (Client.extract_of_none (by decide) hunknown)⟩
    · refine ⟨run_read trivial (by decide), ?_⟩
      rw [Client.progresses_iff, Client.Handled, hzero]
      simp only [Option.some.injEq, exists_eq_left']
      decide
    · refine ⟨run_read trivial (by decide), ?_⟩
      rw [Client.progresses_iff, Client.Handled, hover]
      simp only [Option.some.injEq, exists_eq_left']
      decide
  · intro chunk hchunk
    simp only [List.mem_cons, List.not_mem_nil, or_false] at hchunk
    obtain rfl | rfl := hchunk
    · exact ⟨run_read trivial (by decide),
        progresses_of_error _ _ (Server.extract_of_none (by decide) hunknown)⟩
    · refine ⟨run_read trivial (by decide), ?_⟩
      rw [Server.progresses_iff, Server.Handled, hzero]
      rintro (hshort | ⟨prePkt, hhead, hpositive, -⟩)
      · exact absurd hshort (by decide)
      · cases hhead
        exact absurd hpositive (by decide)

end Pig.Tunnel
