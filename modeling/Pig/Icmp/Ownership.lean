import Pig.Icmp.Transfer
import Pig.Lib.Run

namespace Pig.Icmp

/-! Who has a buffer of the pool.  A buffer is kept by at most one packet, and
then it has not been given back. -/

namespace RetransmitQueue

variable {queue : RetransmitQueue} {packet : Packet} {buffer : BufferId}

def uses (queue : RetransmitQueue) (buffer : BufferId) : Nat :=
  (queue.map Packet.buffer).count buffer

theorem uses_append (front back : List Packet) (buffer : BufferId) :
    uses (front ++ back) buffer = uses front buffer + uses back buffer := by
  simp [uses]

theorem uses_put (queue : RetransmitQueue) (packet : Packet) (buffer : BufferId) :
    (queue.put packet).1.uses buffer + (queue.put packet).2.count buffer =
      queue.uses buffer + [packet.buffer].count buffer := by
  have hkept : uses (queue ++ [packet]) buffer + [].count buffer =
      queue.uses buffer + [packet.buffer].count buffer := by
    rw [uses_append]
    rfl
  unfold put
  split
  · rfl
  · split
    · exact hkept
    · split
      · rfl
      · exact hkept

theorem uses_deleteUntil (queue : RetransmitQueue) (seq : UInt32) (buffer : BufferId) :
    (queue.deleteUntil seq).1.uses buffer +
      (queue.deleteUntil seq).2.count buffer = queue.uses buffer := by
  unfold deleteUntil
  split
  · rfl
  · rename_i index _
    have hsplit := uses_append (queue.take index) (queue.drop index) buffer
    rw [List.take_append_drop] at hsplit
    rw [hsplit, Nat.add_comm]
    rfl

theorem map_refreshAck (field : Packet → α) (hfield : ∀ packet ack, field
    (Packet.refreshAck packet ack) = field packet) (queue : RetransmitQueue) (seq ack : UInt32) :
    (queue.refreshAck seq ack).map field = queue.map field := by
  induction queue with
  | nil => rfl
  | cons entry rest ih =>
    unfold refreshAck
    split
    · rw [List.map_cons, List.map_cons, hfield]
    · rw [List.map_cons, List.map_cons, ih]

theorem uses_refreshAck (queue : RetransmitQueue) (seq ack : UInt32) (buffer : BufferId) :
    (queue.refreshAck seq ack).uses buffer = queue.uses buffer := by
  rw [uses, uses, map_refreshAck Packet.buffer (fun _ _ => rfl)]

end RetransmitQueue

namespace Transfer

variable {k after : Transfer} {packetAck : UInt32}

def owners (k : Transfer) (buffer : BufferId) : Nat :=
  k.rq.uses buffer + k.ooq.uses buffer + k.returned.count buffer

def Owned (k : Transfer) : Prop := ∀ buffer, k.owners buffer ≤ 1

theorem Resent.owners_eq (resent : k.Resent after) (buffer : BufferId) :
    after.owners buffer = k.owners buffer := by
  cases resent with
  | nothing => rfl
  | packet packet message found code data =>
    simp only [owners, RetransmitQueue.uses_refreshAck]

theorem owners_trim (k : Transfer) (seq : UInt32) (buffer : BufferId) :
    (k.trim seq).owners buffer = k.owners buffer := by
  have hqueue := k.rq.uses_deleteUntil seq buffer
  simp only [owners, trim, List.count_append]
  omega

theorem Acked.owners_eq (acked : k.Acked packetAck after)
    (buffer : BufferId) : after.owners buffer = k.owners buffer := by
  obtain ⟨middle, resent, rfl⟩ := acked
  split
  · rw [owners_trim, resent.owners_eq]
  · exact resent.owners_eq buffer

end Transfer

namespace Conn

variable (c : Conn)

theorem owners_clearMemory (buffers : List BufferId) (buffer : BufferId) :
    (c.clearMemory buffers).toTransfer.owners buffer =
      c.toTransfer.owners buffer + buffers.count buffer := by
  simp only [Transfer.owners, clearMemory, List.count_append]
  omega

theorem owners_serializeAck (ack : UInt32) (buffer : BufferId) :
    (c.serializeAck ack).toTransfer.owners buffer = c.toTransfer.owners buffer := by
  unfold serializeAck
  split <;> rfl

theorem owners_recoverPacket (packet : Packet) (nextSeq : UInt32) (buffer : BufferId) :
    (c.recoverPacket packet nextSeq).1.toTransfer.owners buffer = c.toTransfer.owners buffer := by
  unfold recoverPacket
  dsimp only
  split <;> rfl

theorem owners_dropRecovered (buffer : BufferId) :
    c.dropRecovered.toTransfer.owners buffer = c.toTransfer.owners buffer := by
  have hqueue := c.ooq.uses_deleteUntil c.peerSeq buffer
  simp only [dropRecovered, clearMemory, Transfer.owners, List.count_append]
  omega

theorem owners_recoverFromLoss (startSeq : UInt32) (buffer : BufferId) :
    (c.recoverFromLoss startSeq).toTransfer.owners buffer = c.toTransfer.owners buffer := by
  unfold recoverFromLoss acknowledge
  rw [owners_serializeAck]
  exact (owners_dropRecovered _ buffer).trans (RetransmitQueue.view_rangeFrom
    (fun c : Conn => c.toTransfer.owners buffer) (fun _ _ _ => owners_recoverPacket ..) ..)

theorem owners_processRecoveryData (packet : Packet) (buffer : BufferId) :
    (c.processRecoveryData packet).toTransfer.owners buffer =
      c.toTransfer.owners buffer + [packet.buffer].count buffer := by
  unfold processRecoveryData
  split
  · have hqueue := c.ooq.uses_put packet buffer
    simp only [serializeDuplicateAck, sendEchoMessage, stashPacket,
      clearMemory, Transfer.owners, List.count_append]
    omega
  · rw [toTransfer_unblockTransmit]
    exact (owners_recoverFromLoss (c.deliverMissing packet) _ buffer).trans
      (owners_clearMemory _ [packet.buffer] buffer)

theorem owners_processData (packet : Packet) (buffer : BufferId) :
    (c.processData packet).toTransfer.owners buffer ≤
      c.toTransfer.owners buffer + [packet.buffer].count buffer := by
  unfold processData
  split
  · exact Nat.le_add_right _ _
  · have hgiven := owners_clearMemory { c with
      ack := packet.nextSeq } [packet.buffer] buffer
    split
    · exact Nat.le_of_eq hgiven
    · rw [owners_serializeAck]
      exact Nat.le_of_eq hgiven

theorem owners_processSegment (packet : Packet) (buffer : BufferId) :
    (c.processSegment packet).toTransfer.owners buffer ≤
      c.toTransfer.owners buffer + [packet.buffer].count buffer := by
  refine c.processSegment_cases packet (Nat.le_add_right _ _) (fun _ after hresent => ?_)
    fun _ acked hacked _ => ?_
  · rw [hresent.owners_eq]
    exact Nat.le_add_right _ _
  · rw [← hacked.owners_eq]
    unfold processPayload
    split
    · exact Nat.le_add_right _ _
    · split
      · exact Nat.le_of_eq (owners_processRecoveryData acked packet buffer)
      · exact owners_processData acked packet buffer

theorem owners_readLoopIncoming (packet : Packet) (buffer : BufferId) :
    (c.readLoopIncoming packet).toTransfer.owners buffer ≤
      c.toTransfer.owners buffer + [packet.buffer].count buffer := by
  exact c.readLoopIncoming_cases packet (Nat.le_add_right _ _) (fun _ => Nat.le_add_right _ _)
    (Nat.le_of_eq (owners_clearMemory { c with recvIcmpSeq := packet.icmpSeq.toUInt32 } _ buffer))
    fun _ => owners_processSegment { c with recvIcmpSeq := packet.icmpSeq.toUInt32 } packet buffer

theorem owners_transmit (data : Bytes) (writeBuf : Buffer) (rawBuf buffer : BufferId) :
    (c.transmit data writeBuf rawBuf).toTransfer.owners buffer =
      c.toTransfer.owners buffer + [rawBuf].count buffer := by
  have hqueue := c.rq.uses_put (c.outboundPacket data rawBuf) buffer
  simp only [transmit, sendEchoMessage, storeOutbound, clearMemory,
    Transfer.owners, List.count_append]
  have hbuffer : (c.outboundPacket data rawBuf).buffer = rawBuf := rfl
  rw [hbuffer] at hqueue
  omega

theorem owners_getBuffer {c : Conn} {taken : BufferId} (owned : c.toTransfer.Owned)
    (available : c.Available taken) (buffer : BufferId) :
    (c.getBuffer taken).toTransfer.owners buffer + [taken].count buffer ≤ 1 := by
  have hone := owned buffer
  simp only [Transfer.owners, getBuffer, List.count_singleton, List.count_erase] at hone ⊢
  by_cases hsame : taken = buffer
  · subst hsame
    by_cases hreturned : taken ∈ c.returned
    · have hcount := List.count_pos_iff.mpr hreturned
      simp only [beq_self_eq_true, if_true]
      omega
    · have hfree : taken ∉ c.held := fun hheld => hreturned (available hheld)
      have hheld : c.rq.uses taken + c.ooq.uses taken = 0 := by
        rw [← RetransmitQueue.uses_append]
        exact List.count_eq_zero.mpr hfree
      simp only [beq_self_eq_true, if_true]
      omega
  · simp only [beq_iff_eq, hsame, if_false]
    omega

theorem owned_step {c after : Conn} {event : Event}
    (owned : c.toTransfer.Owned) (hstep : c.step event = some after) :
    after.toTransfer.Owned := by
  intro buffer
  cases taken_of_step hstep with
  | write | read => exact owned buffer
  | @skip rawBuf available =>
    rw [owners_clearMemory]
    exact owners_getBuffer owned available buffer
  | send available =>
    rw [owners_transmit]
    exact owners_getBuffer owned available buffer
  | @incoming message taken available =>
    have hprocessed := owners_readLoopIncoming (c.getBuffer taken)
      (Packet.unmarshal message taken) buffer
    rw [Packet.buffer_unmarshal] at hprocessed
    exact Nat.le_trans hprocessed (owners_getBuffer owned available buffer)
  | ackTimer =>
    unfold readLoopAckTimer
    split
    · exact owned buffer
    · rw [toTransfer_manageTimers, owners_serializeAck]
      exact owned buffer
  | rto =>
    rw [c.readLoopRto_resent.owners_eq]
    exact owned buffer

theorem not_mem_returned {k : Transfer} {packet : Packet} (owned : k.Owned)
    (hmem : packet ∈ k.rq) : packet.buffer ∉ k.returned := by
  intro hreturned
  have hone := owned packet.buffer
  have hkept : 0 < k.rq.uses packet.buffer := List.count_pos_iff.mpr (List.mem_map_of_mem hmem)
  have hgiven := List.count_pos_iff.mpr hreturned
  simp only [Transfer.owners] at hone
  omega

/-- At any moment a buffer of the pool is kept by one packet, or has been put
back once, or neither. -/
theorem nodup_of_run {emss : UInt32} {isServer : Bool} {icmpID : UInt16} {events : List Event}
    {c : Conn} (run : Run step (fun _ _ => True) (newConnection emss isServer icmpID) events c) :
    (c.held ++ c.returned).Nodup := by
  have owned := run.invariant (·.toTransfer.Owned) (fun _ => Nat.zero_le 1)
    fun _ _ _ owned _ hstep => owned_step owned hstep
  rw [List.nodup_iff_count]
  intro buffer
  rw [List.count_append, held, List.map_append, List.count_append]
  exact owned buffer

theorem nodup_of_run_sent : ∃ c, Run step (fun _ _ => True) (newConnection 1400 false 7)
    [.write [1, 2, 3], .writeLoop 5] c ∧ c.held = [5] ∧ (c.held ++ c.returned).Nodup :=
  Run.exists_of_exec_imp (·.held = [5]) (by decide +kernel) fun _ run h => ⟨h, nodup_of_run run⟩

end Conn

end Pig.Icmp
