import Pig.Icmp.Stream
import Pig.Lib.Run

namespace Pig.Icmp

/-! Two connections that talk to each other: what one has delivered is always
the beginning of what the other has sent. -/

namespace RetransmitQueue

variable {State : Type} {fn : State → Packet → UInt32 → State × Bool}

theorem rangeStart_suffix (seq : UInt32) (queue : List Packet) :
    rangeStart seq queue <:+ queue := by
  induction queue with
  | nil => exact List.suffix_rfl
  | cons entry rest ih =>
    unfold rangeStart
    split
    · exact List.suffix_rfl
    · split
      · exact List.nil_suffix
      · exact ih.trans (List.suffix_cons entry rest)

theorem rangeStart_packetSeq {seq : UInt32} {queue rest : List Packet}
    {entry : Packet} (hstart : rangeStart seq queue = entry :: rest) :
    entry.packetSeq = seq := by
  induction queue with
  | nil => simp [rangeStart] at hstart
  | cons first others ih =>
    unfold rangeStart at hstart
    split at hstart
    · rename_i hfirst
      cases hstart
      simpa using hfirst
    · split at hstart
      · simp at hstart
      · exact ih hstart

/-- The loop keeps what its body keeps when the body is run on the packet at
the expected position, because it goes on only to such a packet. -/
theorem rangeLoop_keeps (kept : State → Prop) (position : State → UInt32) (usable : Packet → Prop)
    (hbody : ∀ state entry nextSeq, kept state → usable entry → entry.packetSeq = position state →
    kept (fn state entry nextSeq).1 ∧ ((fn state entry nextSeq).2 = true → nextSeq = position
    (fn state entry nextSeq).1)) (entries : List Packet) (state : State) (hkept : kept state)
    (husable : ∀ entry ∈ entries, usable entry) (hfirst : ∀ entry rest, entries = entry :: rest →
    entry.packetSeq = position state) :
    kept (rangeLoop fn state entries) := by
  induction entries generalizing state with
  | nil => exact hkept
  | cons entry rest ih =>
    have hentry := hbody state entry (nextEntrySeq rest) hkept
      (husable entry List.mem_cons_self) (hfirst entry rest rfl)
    unfold rangeLoop
    dsimp only
    split
    · rename_i hcontinue
      refine ih _ hentry.1 (fun other hmem => husable other (List.mem_cons_of_mem _ hmem)) ?_
      intro next others hrest
      subst hrest
      exact hentry.2 hcontinue
    · exact hentry.1

end RetransmitQueue

namespace Endpoint

variable {stream : Bytes} {k : Transfer} {c : Conn} {packet : Packet} {ack : UInt32}

theorem deliver (endpoint : Endpoint stream k) (hshort : stream.length < 2 ^ 31)
    (segment : Segment stream packet.packetSeq packet.data) (hnext : packet.packetSeq = k.peerSeq) :
    Endpoint stream { k with
      readBuf := { k.readBuf with bytes := k.readBuf.bytes ++ packet.data }
      peerSeq := packet.nextSeq } := by
  have hposition : packet.packetSeq.toNat = k.readBuf.bytes.length := by
    rw [hnext]
    exact endpoint.peerSeq_eq
  have hgrows : k.readBuf.bytes.length ≤ (k.readBuf.bytes ++ packet.data).length := by
    simp
  exact { endpoint with
    delivered := segment.deliver endpoint.delivered hposition
    peerSeq_eq := by
      simp only [Packet.nextSeq, segment.toNat_next hshort, hposition, List.length_append]
    ack_le := Nat.le_trans endpoint.ack_le hgrows
    sentAck_le := Nat.le_trans endpoint.sentAck_le hgrows
    acked := fun message hmem =>
      Nat.le_trans (endpoint.acked message hmem) hgrows }

variable (endpoint : Endpoint stream c.toTransfer)

include endpoint

theorem serializeDuplicateAck (hack : ack.toNat ≤ c.readBuf.bytes.length) :
    Endpoint stream (c.serializeDuplicateAck c.seq ack).toTransfer :=
  endpoint.emit [] rfl (by simp [Conn.echoMessage]) endpoint.seq_segment hack

theorem serializeAck (hack : ack.toNat ≤ c.readBuf.bytes.length) :
    Endpoint stream (c.serializeAck ack).toTransfer := by
  unfold Conn.serializeAck
  split
  · exact endpoint
  · have hmarked : Endpoint stream { c.toTransfer with sentAck := ack } :=
      { endpoint with sentAck_le := hack }
    exact hmarked.emit [] rfl (by simp [Conn.echoMessage]) endpoint.seq_segment hack

theorem acknowledge :
    Endpoint stream c.acknowledge.toTransfer := by
  have hack : c.peerSeq.toNat ≤ c.readBuf.bytes.length := Nat.le_of_eq endpoint.peerSeq_eq
  have hstored : Endpoint stream { c.toTransfer with ack := c.peerSeq } :=
    { endpoint with ack_le := hack }
  exact serializeAck (c := { c with ack := c.peerSeq }) hstored hack

theorem dropRecovered :
    Endpoint stream c.dropRecovered.toTransfer :=
  { endpoint with
    kept := fun packet hmem =>
      endpoint.kept packet (RetransmitQueue.mem_of_mem_deleteUntil hmem) }

theorem stashPacket (segment : Segment stream packet.packetSeq packet.data) :
    Endpoint stream (c.stashPacket packet).toTransfer := by
  refine { endpoint with kept := ?_ }
  intro entry hmem
  rcases RetransmitQueue.mem_of_mem_put hmem with hold | rfl
  · exact endpoint.kept entry hold
  · exact segment

theorem readLoopAckTimer :
    Endpoint stream c.readLoopAckTimer.toTransfer := by
  unfold Conn.readLoopAckTimer
  split
  · exact endpoint
  · exact endpoint.serializeAck endpoint.ack_le

theorem transmit {count : Nat} (hinside : c.writeBuf.readPos + count ≤ c.writeBuf.bytes.length)
    (hshort : c.writeBuf.readPos + count < 2 ^ 31) (rawBuf : BufferId) :
    Endpoint stream (c.transmit (c.writeBuf.next count)
      (c.writeBuf.advance count) rawBuf).toTransfer := by
  have hlength : (c.writeBuf.next count).length = count := Bytes.length_window _ _ _ hinside
  have htaken : (c.writeBuf.advance count).taken = c.writeBuf.taken ++ c.writeBuf.next count :=
    (Bytes.take_append_window ..).symm
  have hextends : c.writeBuf.taken <+: (c.writeBuf.advance count).taken := ⟨_, htaken.symm⟩
  have hsegment : Segment (c.writeBuf.advance count).taken c.seq (c.writeBuf.next count) := by
    have hseq : c.seq.toNat = c.writeBuf.taken.length := by
      rw [endpoint.seq_eq, UInt32.toNat_ofNat', Buffer.length_taken endpoint.readPos_le]
      omega
    rw [htaken]
    exact Segment.append_right hseq
  have hstored : Endpoint stream (c.storeOutbound (c.outboundPacket (c.writeBuf.next count) rawBuf)
      (c.writeBuf.advance count)).toTransfer := { endpoint with
    readPos_le := hinside
    seq_eq := by
      simp only [Conn.storeOutbound, Conn.clearMemory, Packet.nextSeq, Conn.outboundPacket,
        Buffer.advance, endpoint.seq_eq, hlength, UInt32.ofNat_add]
    stored := fun packet hmem => by
      rcases RetransmitQueue.mem_of_mem_put hmem with hold | rfl
      · exact (endpoint.stored packet hold).extend hextends
      · exact ⟨rfl, hsegment⟩
    sent := fun message hmem => (endpoint.sent message hmem).extend hextends
    sentAck_le := endpoint.ack_le }
  exact hstored.emit _ rfl rfl hsegment endpoint.ack_le

variable (hshort : stream.length < 2 ^ 31)

include hshort

theorem recoverPacket (segment : Segment stream packet.packetSeq packet.data)
    (hnext : packet.packetSeq = c.peerSeq) (nextSeq : UInt32) :
    Endpoint stream (c.recoverPacket packet nextSeq).1.toTransfer ∧
      ((c.recoverPacket packet nextSeq).2 = true →
        nextSeq = (c.recoverPacket packet nextSeq).1.peerSeq) := by
  have hwrite := Buffer.write_of_open endpoint.readBuf_open packet.data
  have hdelivered := endpoint.deliver hshort segment hnext
  unfold Conn.recoverPacket
  rw [hwrite]
  exact ⟨{ hdelivered with }, fun hcontinue => by simpa using hcontinue⟩

theorem recoverFromLoss {startSeq : UInt32} (hstart : startSeq = c.peerSeq) :
    Endpoint stream (c.recoverFromLoss startSeq).toTransfer := by
  refine acknowledge (dropRecovered ?_)
  apply RetransmitQueue.rangeLoop_keeps
    (fun c : Conn => Endpoint stream c.toTransfer) (fun c => c.peerSeq)
  · intro state entry nextSeq hkept husable hposition
    exact recoverPacket hkept hshort husable hposition nextSeq
  · exact endpoint
  · intro entry hmem
    exact endpoint.kept entry ((RetransmitQueue.rangeStart_suffix _ _).subset hmem)
  · intro entry rest hfirst
    rw [RetransmitQueue.rangeStart_packetSeq hfirst, hstart]

variable (segment : Segment stream packet.packetSeq packet.data)

include segment

theorem deliverMissing (hnext : packet.packetSeq = c.peerSeq) :
    Endpoint stream (c.deliverMissing packet).toTransfer := by
  have hwrite := Buffer.write_of_open endpoint.readBuf_open packet.data
  have hdelivered := endpoint.deliver hshort segment hnext
  unfold Conn.deliverMissing
  rw [hwrite]
  exact { hdelivered with }

theorem processRecoveryData :
    Endpoint stream (c.processRecoveryData packet).toTransfer := by
  unfold Conn.processRecoveryData
  split
  · exact serializeDuplicateAck (c := c.stashPacket packet)
      (endpoint.stashPacket segment) endpoint.sentAck_le
  · rename_i hequal
    have hnext : c.peerSeq = packet.packetSeq := by simpa using hequal
    rw [Conn.toTransfer_unblockTransmit]
    exact (endpoint.deliverMissing hshort segment hnext.symm).recoverFromLoss hshort rfl

theorem processData (hnext : packet.packetSeq = c.peerSeq) :
    Endpoint stream (c.processData packet).toTransfer := by
  have hwrite := Buffer.write_of_open endpoint.readBuf_open packet.data
  have hdelivered := endpoint.deliver hshort segment hnext
  have hack := Nat.le_of_eq hdelivered.peerSeq_eq
  unfold Conn.processData
  rw [hwrite]
  dsimp only
  split
  · exact { hdelivered with ack_le := hack }
  · exact serializeAck (c := Conn.clearMemory _ _) { hdelivered with ack_le := hack } hack

theorem processPayload (hnext : c.recovery = false → packet.packetSeq = c.peerSeq) :
    Endpoint stream (c.processPayload packet).toTransfer := by
  unfold Conn.processPayload
  split
  · exact endpoint
  · split
    · exact endpoint.processRecoveryData hshort segment
    · rename_i hrecovery
      exact endpoint.processData hshort segment (hnext (by simpa using hrecovery))

theorem processSegment :
    Endpoint stream (c.processSegment packet).toTransfer := by
  refine c.processSegment_cases packet endpoint (fun _ after hresent => endpoint.resent hresent)
    fun hbehind acked hacked hahead =>
      (endpoint.ackedBy hacked).processPayload hshort segment fun hrecovery => ?_
  rw [hacked.peerSeq_eq]
  have hpeer : c.peerSeq.toNat < 2 ^ 31 := by
    rw [endpoint.peerSeq_eq]
    exact Nat.lt_of_le_of_lt endpoint.delivered.length_le hshort
  have hseq : packet.packetSeq.toNat < 2 ^ 31 := by
    have hinside := segment.1
    omega
  exact eq_of_not_higher hseq hpeer (hahead hrecovery) hbehind

end Endpoint

end Pig.Icmp
