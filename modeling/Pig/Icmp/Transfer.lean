import Pig.Icmp.Conn

namespace Pig.Icmp

/-! What each operation does to the data of a connection.  Congestion control
and the timers only decide when data moves. -/

namespace Conn

variable (c : Conn)

@[simp] theorem toTransfer_manageTimers : c.manageTimers.toTransfer = c.toTransfer := rfl

@[simp] theorem toTransfer_unblockTransmit :
    c.unblockTransmit.toTransfer = c.toTransfer := by
  unfold unblockTransmit
  split <;> rfl

theorem updateCongestionWindow_eq (peerAck : UInt32) :
    ∃ ackBytesCount cwnd, c.updateCongestionWindow peerAck =
      { c with ackBytesCount := ackBytesCount, cwnd := cwnd } := by
  unfold updateCongestionWindow
  split
  · exact ⟨c.ackBytesCount, c.cwnd, rfl⟩
  · dsimp only
    split
    · split
      · exact ⟨_, _, rfl⟩
      · exact ⟨_, c.cwnd, rfl⟩
    · exact ⟨_, _, rfl⟩

@[simp] theorem toTransfer_updateCongestionWindow (peerAck : UInt32) :
    (c.updateCongestionWindow peerAck).toTransfer = c.toTransfer := by
  obtain ⟨ackBytesCount, cwnd, hwindow⟩ := c.updateCongestionWindow_eq peerAck
  rw [hwindow]

@[simp] theorem toTransfer_detectLoss (packet : Packet) :
    (c.detectLoss packet).toTransfer = c.toTransfer := by
  unfold detectLoss
  split <;> rfl

@[simp] theorem toTransfer_exitFastRetransmit : c.exitFastRetransmit.toTransfer =
  c.toTransfer := toTransfer_unblockTransmit _

end Conn

namespace RetransmitQueue

end RetransmitQueue

namespace Transfer

/-- At most one stored packet is sent again, with the current acknowledgment
number. -/
inductive Resent (k : Transfer) : Transfer → Prop
  | nothing : Resent k k
  | packet (packet : Packet) (message : Message)
      (found : k.rq.getPacket packet.packetSeq = some packet)
      (code : message.code = 0)
      (data : message.data = (packet.refreshAck k.ack).icmpPayload) :
      Resent k { k with
        rq := k.rq.refreshAck packet.packetSeq k.ack
        outbox := k.outbox ++ [message] }

def trim (k : Transfer) (seq : UInt32) : Transfer :=
  { k with
    rq := (k.rq.deleteUntil seq).1
    peerAck := seq
    returned := (k.rq.deleteUntil seq).2 ++ k.returned }

@[simp] theorem peerAck_trim (k : Transfer) (seq : UInt32) : (k.trim seq).peerAck = seq := rfl

def Acked (k : Transfer) (packetAck : UInt32) (after : Transfer) : Prop :=
  ∃ middle, k.Resent middle ∧ after = if isUint32SeqHigher packetAck k.peerAck then
      middle.trim packetAck else middle

variable {after : Transfer}

theorem Resent.peerAck_eq {k : Transfer} (resent : k.Resent after) :
    after.peerAck = k.peerAck := by
  cases resent <;> rfl

theorem Resent.seq_eq {k : Transfer} (resent : k.Resent after) : after.seq = k.seq := by
  cases resent <;> rfl

theorem Resent.writeBuf_eq {k : Transfer} (resent : k.Resent after) :
    after.writeBuf = k.writeBuf := by
  cases resent <;> rfl

variable {packetAck : UInt32}

theorem Acked.seq_eq {k : Transfer} (acked : k.Acked packetAck after) : after.seq = k.seq := by
  obtain ⟨middle, resent, rfl⟩ := acked
  split <;> exact resent.seq_eq

theorem Acked.writeBuf_eq {k : Transfer}
    (acked : k.Acked packetAck after) : after.writeBuf = k.writeBuf := by
  obtain ⟨middle, resent, rfl⟩ := acked
  split <;> exact resent.writeBuf_eq

theorem Acked.peerAck_eq {k : Transfer} (acked : k.Acked packetAck after) :
    after.peerAck = if isUint32SeqHigher packetAck k.peerAck then packetAck
      else k.peerAck := by
  obtain ⟨middle, resent, rfl⟩ := acked
  split
  · rfl
  · exact resent.peerAck_eq

theorem Acked.peerSeq_eq {k : Transfer}
    (acked : k.Acked packetAck after) : after.peerSeq = k.peerSeq := by
  obtain ⟨middle, resent, rfl⟩ := acked
  split <;> cases resent <;> rfl

end Transfer

namespace Conn

theorem retransmitMissingSegment_resent (c : Conn) (peerAck : UInt32) :
    c.toTransfer.Resent (c.retransmitMissingSegment peerAck).toTransfer := by
  unfold retransmitMissingSegment
  split
  · exact .nothing
  · rename_i packet found
    have hseq : packet.packetSeq = peerAck := by
      simpa using List.find?_some found
    subst hseq
    exact .packet packet (c.echoMessage 0 (packet.refreshAck c.ack).icmpPayload) found rfl rfl

theorem enterFastRetransmit_resent (c : Conn) (ourSeq packetAck : UInt32) :
    c.toTransfer.Resent (c.enterFastRetransmit ourSeq packetAck).toTransfer :=
  retransmitMissingSegment_resent
    { c with
      recover := ourSeq
      transmitBlocked := true
      ssthresh := max (c.flightSize.load / 2) (2 * c.emss) } packetAck

theorem countDuplicateAck_resent (c : Conn) (ourSeq packetAck : UInt32) :
    c.toTransfer.Resent (c.countDuplicateAck ourSeq packetAck).toTransfer := by
  unfold countDuplicateAck
  dsimp only
  split
  · exact .nothing
  · split
    · exact .nothing
    · exact enterFastRetransmit_resent { c with dupCnt := c.dupCnt + 1 } ourSeq packetAck

theorem handleDuplicateAck_resent (c : Conn) (ourSeq : UInt32) (packet : Packet) :
    c.toTransfer.Resent (c.handleDuplicateAck ourSeq packet).1.toTransfer := by
  unfold handleDuplicateAck
  split
  · exact .nothing
  · split
    · exact .nothing
    · exact countDuplicateAck_resent c ourSeq packet.packetAck

variable {c : Conn}

variable {packet : Packet}

theorem handleDuplicateAck_of_not {ourSeq : UInt32}
    (hnot : (c.handleDuplicateAck ourSeq packet).2 = false) :
    (c.handleDuplicateAck ourSeq packet).1 = c := by
  unfold handleDuplicateAck at hnot ⊢
  split
  · rfl
  · rename_i hduplicate
    rw [if_neg hduplicate] at hnot
    split at hnot <;> simp at hnot

theorem doFastRetransmit_resent (c : Conn) (peerAck : UInt32) :
    c.toTransfer.Resent (c.doFastRetransmit peerAck).1.toTransfer := by
  unfold doFastRetransmit
  split
  · exact .nothing
  · split
    · have hresent := retransmitMissingSegment_resent c peerAck
      unfold partialAck
      dsimp only
      split <;> split <;> exact hresent
    · simp only [toTransfer_exitFastRetransmit]
      exact .nothing

theorem settleCongestion_resent (c : Conn) (packetAck : UInt32) :
    c.toTransfer.Resent (c.settleCongestion packetAck).toTransfer := by
  have hresent := doFastRetransmit_resent c packetAck
  unfold settleCongestion
  split
  · exact hresent
  · simpa using hresent

theorem processNewAck_acked (c : Conn) (packetAck : UInt32) :
    c.toTransfer.Acked packetAck (c.processNewAck packetAck).toTransfer := by
  have hresent := settleCongestion_resent { c with dupCnt := 0 } packetAck
  refine ⟨_, hresent, ?_⟩
  rw [← hresent.peerAck_eq]
  unfold processNewAck advancePeerAck
  split <;> rfl

theorem readLoopRto_resent (c : Conn) : c.toTransfer.Resent c.readLoopRto.toTransfer := by
  unfold readLoopRto
  rw [toTransfer_unblockTransmit]
  exact retransmitMissingSegment_resent
    { c with
      ssthresh := max (c.flightSize.load / 2) (2 * c.emss)
      cwnd := c.emss
      rto := true } c.peerAck

theorem toTransfer_readLoopRto_of_none (hnone : c.rq.getPacket c.peerAck = none) :
    c.readLoopRto.toTransfer = c.toTransfer := by
  unfold readLoopRto
  simp only [toTransfer_unblockTransmit, retransmitMissingSegment, hnone]

@[simp] theorem recovery_unblockTransmit (c : Conn) : c.unblockTransmit.recovery = c.recovery := by
  unfold unblockTransmit
  split <;> rfl

@[simp] theorem recovery_updateCongestionWindow (c : Conn) (peerAck : UInt32) :
    (c.updateCongestionWindow peerAck).recovery = c.recovery := by
  obtain ⟨ackBytesCount, cwnd, hwindow⟩ := c.updateCongestionWindow_eq peerAck
  rw [hwindow]

@[simp] theorem recovery_retransmitMissingSegment (c : Conn) (peerAck : UInt32) :
    (c.retransmitMissingSegment peerAck).recovery = c.recovery := by
  unfold retransmitMissingSegment
  split <;> rfl

@[simp] theorem recovery_doFastRetransmit (c : Conn) (peerAck : UInt32) :
    (c.doFastRetransmit peerAck).1.recovery = c.recovery := by
  unfold doFastRetransmit
  split
  · rfl
  · split
    · have hsame := recovery_retransmitMissingSegment c peerAck
      unfold partialAck
      dsimp only
      split <;> split <;> exact hsame
    · exact recovery_unblockTransmit _

@[simp] theorem recovery_processNewAck (c : Conn) (packetAck : UInt32) :
    (c.processNewAck packetAck).recovery = c.recovery := by
  have hsettle : ({ c with dupCnt := 0 }.settleCongestion packetAck).recovery = c.recovery := by
    unfold settleCongestion
    split <;> simp
  unfold processNewAck advancePeerAck
  split <;> exact hsettle

theorem detectLoss_recovery_false (hrecovery : (c.detectLoss packet).recovery = false) :
    isUint32SeqHigher packet.packetSeq c.peerSeq = false := by
  unfold detectLoss at hrecovery
  split at hrecovery
  · simp [blockTransmit] at hrecovery
  · rename_i hnot
    simpa [hrecovery] using hnot

@[simp] theorem toOutgoing_serializeAck (c : Conn) (ack : UInt32) :
    (c.serializeAck ack).toOutgoing = c.toOutgoing := by
  unfold serializeAck
  split <;> rfl

theorem toOutgoing_readLoopAckTimer (c : Conn) : c.readLoopAckTimer.toOutgoing = c.toOutgoing := by
  unfold readLoopAckTimer
  split
  · rfl
  · rw [toTransfer_manageTimers, toOutgoing_serializeAck]

@[simp] theorem toOutgoing_recoverPacket (c : Conn) (packet : Packet) (nextSeq : UInt32) :
    (c.recoverPacket packet nextSeq).1.toOutgoing = c.toOutgoing := by
  unfold recoverPacket
  dsimp only
  split <;> rfl

@[simp] theorem toOutgoing_recoverFromLoss (c : Conn) (startSeq : UInt32) :
    (c.recoverFromLoss startSeq).toOutgoing = c.toOutgoing := by
  unfold recoverFromLoss acknowledge
  rw [toOutgoing_serializeAck]
  exact RetransmitQueue.view_rangeFrom (fun c : Conn => c.toOutgoing) toOutgoing_recoverPacket ..

@[simp] theorem toOutgoing_processRecoveryData (c : Conn) (packet : Packet) :
    (c.processRecoveryData packet).toOutgoing = c.toOutgoing := by
  unfold processRecoveryData
  split
  · rfl
  · rw [toTransfer_unblockTransmit]
    exact toOutgoing_recoverFromLoss (c.deliverMissing packet) _

@[simp] theorem toOutgoing_processData (c : Conn) (packet : Packet) :
    (c.processData packet).toOutgoing = c.toOutgoing := by
  unfold processData
  split
  · rfl
  · split
    · rfl
    · rw [toOutgoing_serializeAck]
      rfl

@[simp] theorem toOutgoing_processPayload (c : Conn) (packet : Packet) :
    (c.processPayload packet).toOutgoing = c.toOutgoing := by
  unfold processPayload
  split
  · rfl
  · split
    · exact toOutgoing_processRecoveryData c packet
    · exact toOutgoing_processData c packet

variable {motive : Conn → Prop}

/-- A packet is behind the expected one, or carries only a duplicate
acknowledgment, or has its acknowledgment and then its data processed. -/
@[elab_as_elim]
theorem processSegment_cases (c : Conn) (packet : Packet)
    (hbehind : motive c) (hduplicate : isUint32SeqHigher c.peerSeq packet.packetSeq = false →
      ∀ after : Conn, c.toTransfer.Resent after.toTransfer → motive after)
    (hdata : isUint32SeqHigher c.peerSeq packet.packetSeq = false → ∀ acked : Conn,
      c.toTransfer.Acked packet.packetAck acked.toTransfer →
      (acked.recovery = false → isUint32SeqHigher packet.packetSeq c.peerSeq = false) →
      motive (acked.processPayload packet)) :
    motive (c.processSegment packet) := by
  unfold processSegment
  split
  · exact hbehind
  · rename_i hnot
    have hahead : isUint32SeqHigher c.peerSeq packet.packetSeq = false := by
      simpa using hnot
    dsimp only
    split
    · refine hduplicate hahead _ ?_
      have hresent := handleDuplicateAck_resent (c.detectLoss packet)
        (c.detectLoss packet).seq packet
      simpa using hresent
    · rename_i hfresh
      have hsame : ((c.detectLoss packet).handleDuplicateAck (c.detectLoss packet).seq packet).1 =
        c.detectLoss packet := handleDuplicateAck_of_not (by simpa using hfresh)
      rw [hsame]
      refine hdata hahead _ ?_ ?_
      · simpa using processNewAck_acked (c.detectLoss packet) packet.packetAck
      · rw [recovery_processNewAck]
        exact detectLoss_recovery_false

theorem settleCongestion_of_not_retransmit
    (hretransmit : c.retransmit = false) (packetAck : UInt32) :
    c.settleCongestion packetAck = c.updateCongestionWindow packetAck := by
  simp [settleCongestion, doFastRetransmit, hretransmit]

theorem processNewAck_of_not_retransmit (hretransmit : c.retransmit = false) (packetAck : UInt32) :
    ∃ ackBytesCount cwnd, c.processNewAck packetAck =
      { c with
        dupCnt := 0
        ackBytesCount := ackBytesCount
        cwnd := cwnd }.advancePeerAck packetAck := by
  obtain ⟨ackBytesCount, cwnd, hwindow⟩ :=
    updateCongestionWindow_eq { c with dupCnt := 0 } packetAck
  have hsettle := settleCongestion_of_not_retransmit
    (c := { c with dupCnt := 0 }) hretransmit packetAck
  exact ⟨ackBytesCount, cwnd, by rw [processNewAck, hsettle, hwindow]⟩

theorem processSegment_ack (hseq : packet.packetSeq = c.peerSeq)
    (hdata : packet.data = []) (hretransmit : c.retransmit = false)
    (hnew : isUint32SeqHigher packet.packetAck c.peerAck = true) :
    ∃ ackBytesCount cwnd, c.processSegment packet =
      { c with
        dupCnt := 0
        ackBytesCount := ackBytesCount
        cwnd := cwnd }.advancePeerAck packet.packetAck := by
  have hother : (packet.packetAck == c.peerAck) = false := by
    rw [beq_eq_false_iff_ne]
    intro heq
    simp [heq] at hnew
  have hdetect : c.detectLoss packet = c := by
    simp [detectLoss, hseq]
  have hnotDuplicate : c.handleDuplicateAck c.seq packet = (c, false) := by
    simp [handleDuplicateAck, isDuplicateAck, hother]
  obtain ⟨ackBytesCount, cwnd, hacked⟩ :=
    processNewAck_of_not_retransmit hretransmit packet.packetAck
  refine ⟨ackBytesCount, cwnd, ?_⟩
  calc c.processSegment packet = (c.processNewAck packet.packetAck).processPayload packet := by
        rw [processSegment, if_neg (by simp [hseq])]
        dsimp only
        rw [hdetect, hnotDuplicate]
        rfl
    _ = c.processNewAck packet.packetAck := by
        rw [processPayload, if_pos (by simp [hdata])]
    _ = _ := hacked

def Accepts (c : Conn) (packet : Packet) : Prop := packet.icmpType = c.wantType ∧ packet.icmpCode ≠
  255 ∧ packet.icmpEchoID = c.icmpID ∧ eHeaderSize ≤ packet.icmpPayload.length

instance (c : Conn) (packet : Packet) : Decidable (c.Accepts packet) :=
  inferInstanceAs (Decidable (_ ∧ _))

theorem processICMPPacket_of_accepts (accepts : c.Accepts packet) :
    c.processICMPPacket packet = .ok ({ c with recvIcmpSeq := packet.icmpSeq.toUInt32
      }.processSegment packet) := by
  obtain ⟨htype, hcode, hid, hheader⟩ := accepts
  simp [processICMPPacket, htype, hcode, hid, Nat.not_lt.mpr hheader]

/-- A packet of another connection is ignored, a close message ends the
connection, a packet without header is dropped, and any other is processed. -/
@[elab_as_elim]
theorem readLoopIncoming_cases (c : Conn) (packet : Packet)
    (hignored : motive c.manageTimers) (hclosed : packet.icmpCode = 255 → motive c.close)
    (hshort : motive ({ c with recvIcmpSeq := packet.icmpSeq.toUInt32 }.clearMemory
      [packet.buffer]).manageTimers)
    (haccepted : c.Accepts packet → motive
      ({ c with recvIcmpSeq := packet.icmpSeq.toUInt32 }.processSegment packet).manageTimers) :
    motive (c.readLoopIncoming packet) := by
  by_cases haccepts : c.Accepts packet
  · rw [readLoopIncoming, processICMPPacket_of_accepts haccepts]
    exact haccepted haccepts
  · unfold readLoopIncoming processICMPPacket
    split_ifs with htype hcode hid hheader
    · exact hignored
    · exact hclosed (by simpa using hcode)
    · exact hignored
    · exact hshort
    · exact absurd ⟨by simpa using htype, by simpa using hcode, by simpa using hid,
        Nat.not_lt.mp hheader⟩ haccepts

theorem writeBuf_seq_processSegment (c : Conn) (packet : Packet) :
    (c.processSegment packet).writeBuf = c.writeBuf ∧ (c.processSegment packet).seq = c.seq := by
  refine c.processSegment_cases packet ⟨rfl, rfl⟩
    (fun _ _ hresent => ⟨hresent.writeBuf_eq, hresent.seq_eq⟩) fun _ acked hacked _ => ?_
  rw [toOutgoing_processPayload]
  exact ⟨hacked.writeBuf_eq, hacked.seq_eq⟩

theorem rq_processSegment (c : Conn) (packet : Packet) : (c.processSegment packet).rq = c.rq ∨
    (isUint32SeqHigher c.peerSeq packet.packetSeq = false ∧ ∃ middle, c.toTransfer.Resent middle ∧
        ((c.processSegment packet).rq = middle.rq ∨ (c.processSegment packet).rq =
            (middle.rq.deleteUntil packet.packetAck).1)) := by
  refine c.processSegment_cases packet (.inl rfl)
    (fun hahead _ hresent => .inr ⟨hahead, _, hresent, .inl rfl⟩) fun hahead acked hacked _ => ?_
  obtain ⟨middle, hresent, hmiddle⟩ := hacked
  refine .inr ⟨hahead, middle, hresent, ?_⟩
  rw [toOutgoing_processPayload, hmiddle]
  split
  · exact .inr rfl
  · exact .inl rfl

theorem sent_readLoopIncoming (c : Conn) (packet : Packet) :
    (c.readLoopIncoming packet).writeBuf.bytes = c.writeBuf.bytes ∧
      (c.readLoopIncoming packet).writeBuf.readPos = c.writeBuf.readPos ∧
      (c.readLoopIncoming packet).seq = c.seq := by
  refine c.readLoopIncoming_cases packet ⟨rfl, rfl, rfl⟩ (fun _ => ⟨rfl, rfl, rfl⟩) ⟨rfl, rfl, rfl⟩
    fun _ => ?_
  obtain ⟨hwriteBuf, hseq⟩ := writeBuf_seq_processSegment
    { c with recvIcmpSeq := packet.icmpSeq.toUInt32 } packet
  rw [toTransfer_manageTimers, hwriteBuf, hseq]
  exact ⟨rfl, rfl, rfl⟩

inductive Taken (c : Conn) : Event → Conn → Prop
  | write {data : Bytes} {writeBuf : Buffer}
      (hwrite : (c.writeBuf.write data).toOption = some writeBuf) :
      Taken c (.write data) { c with writeBuf := writeBuf }
  | read {count : Nat} {data : Bytes} {readBuf : Buffer}
      (hread : c.readBuf.read count = some (.ok (data, readBuf))) :
      Taken c (.read count) { c with readBuf := readBuf }
  | skip {rawBuf : BufferId} (available : c.Available rawBuf) :
      Taken c (.writeLoop rawBuf) ((c.getBuffer rawBuf).clearMemory [rawBuf])
  | send {rawBuf : BufferId} {data : Bytes} {writeBuf : Buffer} (available : c.Available rawBuf)
      (hread : c.writeBuf.read c.emss.toNat = some (.ok (data, writeBuf))) :
      Taken c (.writeLoop rawBuf) ((c.getBuffer rawBuf).transmit data writeBuf rawBuf)
  | incoming {message : Message} {buffer : BufferId} (available : c.Available buffer) :
      Taken c (.incoming message buffer)
        ((c.getBuffer buffer).readLoopIncoming (Packet.unmarshal message buffer))
  | ackTimer (harmed : c.ackTimer = true) : Taken c .ackTimer c.readLoopAckTimer
  | rto (harmed : c.rto = true) : Taken c .rto c.readLoopRto

theorem taken_of_step {after : Conn} {event : Event} (hstep : c.step event = some after) :
    c.Taken event after := by
  cases event with
  | write data =>
    simp only [step, Option.ite_none_left_eq_some, Option.map_eq_some_iff] at hstep
    obtain ⟨-, writeBuf, hwrite, rfl⟩ := hstep
    exact .write hwrite
  | read count =>
    simp only [step, Option.ite_none_left_eq_some] at hstep
    have hread := hstep.2
    split at hread
    · next hdata =>
        cases hread
        exact .read hdata
    · cases hread
  | writeLoop rawBuf =>
    simp only [step, Option.ite_none_left_eq_some, Bool.or_eq_true, not_or, Bool.not_eq_true,
      Bool.not_eq_false', decide_eq_true_eq, serializeOutboundData] at hstep
    obtain ⟨⟨-, available⟩, hsend⟩ := hstep
    split at hsend
    · cases hsend
    · cases hsend
      exact .skip available
    · next hread =>
        cases hsend
        exact .send available hread
  | incoming message buffer =>
    simp only [step, Option.ite_none_left_eq_some, Bool.or_eq_true, not_or, Bool.not_eq_true,
      Bool.not_eq_false', decide_eq_true_eq, Option.some.injEq] at hstep
    obtain ⟨⟨-, available⟩, rfl⟩ := hstep
    exact .incoming available
  | ackTimer | rto =>
    simp only [step, Option.ite_none_left_eq_some, Bool.or_eq_true, not_or,
      Bool.not_eq_true, Bool.not_eq_false', Option.some.injEq] at hstep
    obtain ⟨⟨-, harmed⟩, rfl⟩ := hstep
    constructor
    exact harmed

theorem step_writeLoop {rawBuf : BufferId} {data : Bytes} {writeBuf : Buffer}
    (hopen : c.closed = false) (available : c.Available rawBuf) (hread : c.writeBuf.read
    c.emss.toNat = some (.ok (data, writeBuf))) :
    c.step (.writeLoop rawBuf) = some ((c.getBuffer rawBuf).transmit data writeBuf rawBuf) := by
  have hsame : (c.getBuffer rawBuf).writeBuf.read
      (c.getBuffer rawBuf).emss.toNat = some (.ok (data, writeBuf)) := hread
  simp only [step, hopen, available, decide_true, Bool.not_true, Bool.or_self,
    Bool.false_eq_true, if_false, serializeOutboundData, hsame]

theorem step_incoming {buffer : BufferId} (message : Message)
    (hopen : c.closed = false) (available : c.Available buffer) :
    c.step (.incoming message buffer) = some ((c.getBuffer buffer).readLoopIncoming
        (Packet.unmarshal message buffer)) := by
  simp only [step, hopen, available, decide_true, Bool.not_true, Bool.or_self,
    Bool.false_eq_true, if_false]

theorem readLoopIncoming_ack (accepts : c.Accepts packet) (hseq : packet.packetSeq = c.peerSeq)
    (hdata : packet.data = []) (hretransmit : c.retransmit = false)
    (hnew : isUint32SeqHigher packet.packetAck c.peerAck = true) :
    (c.readLoopIncoming packet).toTransfer = c.toTransfer.trim packet.packetAck ∧
      (c.readLoopIncoming packet).retransmit = false ∧ (c.readLoopIncoming packet).recovery =
      c.recovery ∧ (c.readLoopIncoming packet).emss = c.emss ∧ (c.readLoopIncoming packet).wantType
      = c.wantType ∧ (c.readLoopIncoming packet).icmpID = c.icmpID := by
  obtain ⟨ackBytesCount, cwnd, hprocess⟩ := processSegment_ack (c :=
    { c with recvIcmpSeq := packet.icmpSeq.toUInt32 }) hseq hdata hretransmit hnew
  unfold readLoopIncoming
  rw [processICMPPacket_of_accepts accepts]
  rw [hprocess, advancePeerAck, if_pos hnew]
  exact ⟨rfl, hretransmit, rfl, rfl, rfl, rfl⟩

end Conn

end Pig.Icmp
