import Pig.Icmp.Integrity

namespace Pig.Icmp

/-! The acknowledgment timer.  A segment that has been delivered before is
acknowledged again only if the last acknowledgment has not been sent yet. -/

structure Receiving (k : Transfer) : Prop where
  sentAck_le : k.sentAck.toNat ≤ k.ack.toNat
  ack_le : k.ack.toNat ≤ k.peerSeq.toNat
  peerSeq_lt : k.peerSeq.toNat < 2 ^ 31
  kept : ∀ packet ∈ k.ooq, packet.packetSeq.toNat + packet.data.length < 2 ^ 31

def Settled (k : Transfer) : Prop := Receiving k ∧ k.ack = k.peerSeq

namespace Receiving

variable {k after : Transfer} {c : Conn} {packet : Packet} {ack : UInt32}

theorem resent (receiving : Receiving k) (resent : k.Resent after) : Receiving after := by
  cases resent with
  | nothing => exact receiving
  | packet packet message found code data => exact { receiving with }

theorem nextSeq_toNat (hshort : packet.packetSeq.toNat + packet.data.length < 2 ^ 31) :
    packet.nextSeq.toNat = packet.packetSeq.toNat + packet.data.length := by
  rw [Packet.nextSeq, UInt32.toNat_add, UInt32.toNat_ofNat']
  omega

theorem deliver (receiving : Receiving k) (hshort : packet.packetSeq.toNat + packet.data.length < 2
    ^ 31) (hnext : packet.packetSeq = k.peerSeq) (readBuf : Buffer) :
    Receiving { k with readBuf := readBuf, peerSeq := packet.nextSeq } := by
  have hposition := nextSeq_toNat hshort
  have hack := receiving.ack_le
  exact { receiving with
    ack_le := by
      rw [hposition, hnext]
      exact Nat.le_trans hack (Nat.le_add_right _ _)
    peerSeq_lt := by
      rw [hposition]
      exact hshort }

theorem serializeAck (receiving : Receiving c.toTransfer)
    (hack : ack = c.ack) : Receiving (c.serializeAck ack).toTransfer := by
  unfold Conn.serializeAck
  split
  · exact receiving
  · exact { receiving with sentAck_le := Nat.le_of_eq (by rw [hack]; rfl) }

theorem ack_serializeAck (c : Conn) (ack : UInt32) : (c.serializeAck ack).ack = c.ack ∧
      (c.serializeAck ack).peerSeq = c.peerSeq := by
  unfold Conn.serializeAck
  split <;> exact ⟨rfl, rfl⟩

theorem acknowledge (receiving : Receiving c.toTransfer) : Settled c.acknowledge.toTransfer := by
  have hmarked : Receiving { c.toTransfer with ack := c.peerSeq } :=
    { receiving with
      sentAck_le := Nat.le_trans receiving.sentAck_le receiving.ack_le
      ack_le := Nat.le_refl _ }
  have hsent : Receiving ({ c with ack := c.peerSeq }.serializeAck c.peerSeq).toTransfer :=
    serializeAck hmarked rfl
  have hsame := ack_serializeAck { c with ack := c.peerSeq } c.peerSeq
  exact ⟨hsent, hsame.1.trans hsame.2.symm⟩

theorem recoverPacket (receiving : Receiving c.toTransfer) (hshort : packet.packetSeq.toNat +
    packet.data.length < 2 ^ 31) (hnext : packet.packetSeq = c.peerSeq) (nextSeq : UInt32) :
    Receiving (c.recoverPacket packet nextSeq).1.toTransfer ∧ ((c.recoverPacket packet nextSeq).2 =
      true → nextSeq = (c.recoverPacket packet nextSeq).1.peerSeq) := by
  unfold Conn.recoverPacket
  dsimp only
  split
  · exact ⟨{ receiving with }, fun hcontinue => nomatch hcontinue⟩
  · rename_i readBuf _
    have hdelivered := receiving.deliver hshort hnext readBuf
    exact ⟨{ hdelivered with }, fun hcontinue => by simpa using hcontinue⟩

theorem recoverFromLoss (receiving : Receiving c.toTransfer)
    {startSeq : UInt32} (hstart : startSeq = c.peerSeq) :
    Settled (c.recoverFromLoss startSeq).toTransfer := by
  have hrecovered : Receiving (c.ooq.rangeFrom startSeq Conn.recoverPacket c).toTransfer := by
    apply RetransmitQueue.rangeLoop_keeps
      (fun c : Conn => Receiving c.toTransfer) (fun c => c.peerSeq)
    · intro state entry nextSeq hkept husable hposition
      exact recoverPacket hkept husable hposition nextSeq
    · exact receiving
    · intro entry hmem
      exact receiving.kept entry ((RetransmitQueue.rangeStart_suffix _ _).subset hmem)
    · intro entry rest hfirst
      rw [RetransmitQueue.rangeStart_packetSeq hfirst, hstart]
  have hdropped : Receiving
      (c.ooq.rangeFrom startSeq Conn.recoverPacket c).dropRecovered.toTransfer :=
    { hrecovered with
      kept := fun packet hmem => hrecovered.kept packet
        (RetransmitQueue.mem_of_mem_deleteUntil hmem) }
  exact hdropped.acknowledge

end Receiving

namespace Settled

variable {k after : Transfer} {c : Conn} {packet : Packet}

theorem resent (settled : Settled k) (resent : k.Resent after) : Settled after := by
  refine ⟨settled.1.resent resent, ?_⟩
  cases resent <;> exact settled.2

theorem acked {packetAck : UInt32} (settled : Settled k)
    (hacked : k.Acked packetAck after) : Settled after := by
  obtain ⟨middle, hresent, rfl⟩ := hacked
  have hmiddle := settled.resent hresent
  split
  · exact ⟨{ hmiddle.1 with }, hmiddle.2⟩
  · exact hmiddle

variable (settled : Settled c.toTransfer)

include settled

theorem processRecoveryData (hshort : packet.packetSeq.toNat + packet.data.length < 2 ^ 31) :
    Settled (c.processRecoveryData packet).toTransfer := by
  unfold Conn.processRecoveryData
  split
  · refine ⟨{ settled.1 with kept := ?_ }, settled.2⟩
    intro entry hmem
    rcases RetransmitQueue.mem_of_mem_put hmem with hold | rfl
    · exact settled.1.kept entry hold
    · exact hshort
  · rename_i hequal
    have hnext : c.peerSeq = packet.packetSeq := by simpa using hequal
    have hdelivered : Receiving (c.deliverMissing packet).toTransfer :=
      { settled.1.deliver hshort hnext.symm
          ((c.readBuf.write packet.data).toOption.getD c.readBuf) with }
    rw [Conn.toTransfer_unblockTransmit]
    exact hdelivered.recoverFromLoss rfl

theorem processData (hshort : packet.packetSeq.toNat +
    packet.data.length < 2 ^ 31) (hnext : packet.packetSeq = c.peerSeq) :
    Settled (c.processData packet).toTransfer := by
  unfold Conn.processData
  split
  · exact settled
  · rename_i readBuf _
    have hdelivered := settled.1.deliver hshort hnext readBuf
    have hmarked : Receiving
        ({ c with
          readBuf := readBuf
          peerSeq := packet.nextSeq
          ack := packet.nextSeq }.clearMemory [packet.buffer]).toTransfer :=
      { hdelivered with
        sentAck_le := Nat.le_trans hdelivered.sentAck_le hdelivered.ack_le
        ack_le := Nat.le_refl _ }
    split
    · exact ⟨hmarked, rfl⟩
    · have hsame := Receiving.ack_serializeAck ({ c with
          readBuf := readBuf
          peerSeq := packet.nextSeq
          ack := packet.nextSeq }.clearMemory [packet.buffer]) packet.nextSeq
      exact ⟨hmarked.serializeAck rfl, hsame.1.trans hsame.2.symm⟩

theorem processSegment (hshort : packet.data ≠ [] →
      packet.packetSeq.toNat + packet.data.length < 2 ^ 31) :
    Settled (c.processSegment packet).toTransfer := by
  refine c.processSegment_cases packet settled (fun _ after hresent => settled.resent hresent)
    fun hbehind acked hacked hahead => ?_
  have hsettled := settled.acked hacked
  unfold Conn.processPayload
  split
  · exact hsettled
  · rename_i hdata
    have hshort := hshort (by simpa using hdata)
    split
    · exact hsettled.processRecoveryData hshort
    · rename_i hrecovery
      refine hsettled.processData hshort ?_
      rw [hacked.peerSeq_eq]
      exact eq_of_not_higher (by omega) settled.1.peerSeq_lt
        (hahead (by simpa using hrecovery)) hbehind

theorem readLoopIncoming (hshort : packet.data ≠ [] →
      packet.packetSeq.toNat + packet.data.length < 2 ^ 31) :
    Settled (c.readLoopIncoming packet).toTransfer := by
  exact c.readLoopIncoming_cases packet settled (fun _ => ⟨{ settled.1 with }, settled.2⟩)
    ⟨{ settled.1 with }, settled.2⟩ fun _ =>
      processSegment (c := { c with recvIcmpSeq := packet.icmpSeq.toUInt32 }) settled hshort

end Settled

namespace Conn

def ReceivesShort (_ : Conn) (event : Event) : Prop :=
  ∀ message ∈ event.received, eHeaderSize < message.data.length →
    (getSeqAck message.data).1.toNat + (message.data.drop eHeaderSize).length < 2 ^ 31

instance (c : Conn) (event : Event) : Decidable (c.ReceivesShort event) :=
  inferInstanceAs (Decidable (∀ _ ∈ _, _ → _))

variable {c after : Conn} {event : Event}

theorem settled_step (settled : Settled c.toTransfer)
    (hshort : c.ReceivesShort event) (hstep : c.step event = some after) :
    Settled after.toTransfer := by
  cases taken_of_step hstep with
  | write | read | skip => exact ⟨{ settled.1 with }, settled.2⟩
  | send => exact ⟨{ settled.1 with sentAck_le := Nat.le_refl _ }, settled.2⟩
  | @incoming message buffer =>
    refine Settled.readLoopIncoming (c := c.getBuffer buffer) ⟨{ settled.1 with }, settled.2⟩ ?_
    intro hdata
    by_cases hheader : eHeaderSize ≤ message.data.length
    · rw [Packet.data_unmarshal _ hheader] at hdata ⊢
      rw [Packet.packetSeq_unmarshal _ hheader]
      refine hshort message rfl ?_
      have hpositive := List.length_pos_iff.mpr hdata
      rw [List.length_drop] at hpositive
      omega
    · rw [Packet.unmarshal, if_pos (Nat.not_le.mp hheader)] at hdata
      exact absurd rfl hdata
  | ackTimer =>
    unfold readLoopAckTimer
    split
    · exact settled
    · have hsame := Receiving.ack_serializeAck c c.ack
      exact ⟨settled.1.serializeAck rfl, (hsame.1.trans settled.2).trans hsame.2.symm⟩
  | rto => exact settled.resent c.readLoopRto_resent

theorem settled_newConnection (emss : UInt32) (isServer : Bool) (icmpID : UInt16) :
    Settled (newConnection emss isServer icmpID).toTransfer :=
  ⟨⟨Nat.le_refl 0, Nat.le_refl 0, Nat.two_pow_pos 31,
    fun _ hmem => absurd hmem List.not_mem_nil⟩, rfl⟩

/-- Between two states a message acknowledges everything delivered, or the
acknowledgment timer is armed and sends such a message when it fires. -/
def Reacknowledges (c after : Conn) : Prop := (∃ message ∈ after.outbox.drop c.outbox.length,
  message.packetAck = c.peerSeq) ∨ (after.ackTimer = true ∧ ∃ message, after.readLoopAckTimer.outbox
  = after.outbox ++ [message] ∧ message.packetAck = c.peerSeq)

theorem readLoopIncoming_behind {packet : Packet} (accepts : c.Accepts packet)
    (hbehind : isUint32SeqHigher c.peerSeq packet.packetSeq = true) :
    c.readLoopIncoming packet = { c with recvIcmpSeq := packet.icmpSeq.toUInt32 }.manageTimers := by
  unfold readLoopIncoming
  rw [processICMPPacket_of_accepts accepts]
  rw [processSegment, if_pos hbehind]

theorem readLoopAckTimer_outbox (hsent : c.sentAck ≠ c.ack)
    (hbehind : isUint32SeqHigher c.sentAck c.ack = false) :
    ∃ message, c.readLoopAckTimer.outbox = c.outbox ++ [message] ∧ message.packetAck = c.ack := by
  refine ⟨c.echoMessage 0 (putUint32 c.seq ++ putUint32 c.ack), ?_, ?_⟩
  · simp [readLoopAckTimer, serializeAck, hsent, hbehind, manageTimers,
      sendEchoMessage, echoMessage]
  · exact Message.packetAck_of_header c.seq [] (by simp [echoMessage])

/-- A segment that has been delivered before is acknowledged again exactly if
the last acknowledgment has not been sent. -/
theorem reacknowledges_iff {emss : UInt32} {isServer : Bool} {icmpID : UInt16} {events : List Event}
    {message : Message} {buffer : BufferId} (run : Run step ReceivesShort
    (newConnection emss isServer icmpID) events c) (haccepts : c.Accepts
    (Packet.unmarshal message buffer)) (hdata : eHeaderSize < message.data.length)
    (hbehind : isUint32SeqHigher c.peerSeq (getSeqAck message.data).1 = true)
    (hstep : c.step (.incoming message buffer) = some after) :
    c.Reacknowledges after ↔ c.sentAck ≠ c.ack := by
  have settled : Settled c.toTransfer := run.invariant (fun c => Settled c.toTransfer)
      (settled_newConnection emss isServer icmpID)
      fun _ _ _ settled hshort hstep => settled_step settled hshort hstep
  obtain ⟨receiving, hack⟩ := settled
  have hsentAck := receiving.sentAck_le
  have hbound := receiving.peerSeq_lt
  rw [← hack] at hbound
  rw [← Packet.packetSeq_unmarshal buffer (Nat.le_of_lt hdata)] at hbehind
  cases taken_of_step hstep
  have hafter := readLoopIncoming_behind (c := c.getBuffer buffer) haccepts hbehind
  rw [hafter]
  constructor
  · rintro (⟨other, hmem, -⟩ | ⟨harmed, -⟩)
    · change other ∈ c.outbox.drop c.outbox.length at hmem
      simp at hmem
    · intro hequal
      change isUint32SeqHigher c.ack c.sentAck = true at harmed
      simp [hequal] at harmed
  · intro hdiffer
    have hlt : c.sentAck.toNat < c.ack.toNat := by
      have hne : c.sentAck.toNat ≠ c.ack.toNat :=
        fun heq => hdiffer (UInt32.toNat_inj.mp heq)
      omega
    have hhigher : isUint32SeqHigher c.ack c.sentAck = true :=
      (isUint32SeqHigher_iff_toNat hbound (by omega)).mpr hlt
    refine .inr ⟨hhigher, ?_⟩
    have hnot : isUint32SeqHigher c.sentAck c.ack = false := by
      rw [Bool.eq_false_iff, ne_eq, isUint32SeqHigher_iff_toNat (by omega) hbound]
      omega
    rw [← hack]
    exact readLoopAckTimer_outbox (c := { c.getBuffer buffer with
        recvIcmpSeq := (Packet.unmarshal message buffer).icmpSeq.toUInt32
      }.manageTimers) hdiffer hnot

/-- A segment is delivered and acknowledged. -/
def acknowledgedSegment : List Event :=
  [.incoming {
      icmpType := icmpTypeEcho
      code := 0
      id := 7
      seq := 0
      data := putUint32 0 ++ putUint32 0 ++ [1] } 0,
    .ackTimer]

def repeatedSegment : Message where
  icmpType := icmpTypeEcho
  code := 0
  id := 7
  seq := 1
  data := putUint32 0 ++ putUint32 0 ++ [1]

theorem not_reacknowledges_repeatedSegment :
    ∃ c after, Run step ReceivesShort (newConnection 1464 true 7) acknowledgedSegment c ∧ c.Accepts
      (Packet.unmarshal repeatedSegment 1) ∧ eHeaderSize < repeatedSegment.data.length ∧
      isUint32SeqHigher c.peerSeq (getSeqAck repeatedSegment.data).1 = true ∧ c.step
      (.incoming repeatedSegment 1) = some after ∧ ¬ c.Reacknowledges after := by
  obtain ⟨c, run, haccepts, hbehind, hopen, havailable, houtbox, htimer⟩ :=
    Run.exists_of_exec step ReceivesShort (newConnection 1464 true 7) acknowledgedSegment (fun c =>
        c.Accepts (Packet.unmarshal repeatedSegment 1) ∧
        isUint32SeqHigher c.peerSeq (getSeqAck repeatedSegment.data).1 = true ∧
        c.closed = false ∧ c.Available 1 ∧
        ((c.getBuffer 1).readLoopIncoming (Packet.unmarshal repeatedSegment 1)).outbox = c.outbox ∧
        ((c.getBuffer 1).readLoopIncoming (Packet.unmarshal repeatedSegment 1)).ackTimer = false)
      (by decide +kernel)
  refine ⟨c, _, run, haccepts, by decide +kernel, hbehind, step_incoming _ hopen havailable, ?_⟩
  rintro (⟨message, hmem, -⟩ | ⟨harmed, -⟩)
  · rw [houtbox] at hmem
    simp at hmem
  · rw [htimer] at harmed
    exact Bool.false_ne_true harmed

theorem reacknowledges_iff_repeatedSegment :
    ∃ c after, Run step ReceivesShort (newConnection 1464 true 7) acknowledgedSegment c ∧
      c.step (.incoming repeatedSegment 1) = some after ∧
      (c.Reacknowledges after ↔ c.sentAck ≠ c.ack) := by
  obtain ⟨c, run, haccepts, hbehind, hopen, havailable⟩ :=
    Run.exists_of_exec step ReceivesShort (newConnection 1464 true 7) acknowledgedSegment (fun c =>
        c.Accepts (Packet.unmarshal repeatedSegment 1) ∧
        isUint32SeqHigher c.peerSeq (getSeqAck repeatedSegment.data).1 = true ∧
        c.closed = false ∧ c.Available 1) (by decide +kernel)
  have hstep := step_incoming repeatedSegment hopen havailable
  exact ⟨c, _, run, hstep, reacknowledges_iff run haccepts (by decide +kernel) hbehind hstep⟩

end Conn

end Pig.Icmp
