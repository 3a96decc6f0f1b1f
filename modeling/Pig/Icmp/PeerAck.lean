import Mathlib.Data.Fintype.EquivFin
import Pig.Icmp.Completeness
import Pig.Icmp.Window

namespace Pig.Icmp

open Conn

/-! The highest acknowledgment number received.  A packet that is processed
moves it in serial order; a packet replayed from the out-of-order queue moves it
in the order of the plain numbers. -/

namespace Conn

def ackTaken (c : Conn) : Event → Option (Conn × Packet)
  | .incoming message buffer =>
    let packet := Packet.unmarshal message buffer
    let received : Conn := { c.getBuffer buffer with
      recvIcmpSeq := packet.icmpSeq.toUInt32 }
    if (c.getBuffer buffer).Accepts packet ∧ isUint32SeqHigher received.peerSeq packet.packetSeq =
        false ∧ received.isDuplicateAck received.seq packet = false then
      some ((received.detectLoss packet).processNewAck packet.packetAck, packet)
    else none
  | _ => none

def replayed (c : Conn) (packet : Packet) : List Packet :=
  if packet.data.isEmpty || !c.recovery || c.peerSeq != packet.packetSeq then []
  else RetransmitQueue.rangeStart packet.nextSeq c.ooq

def replayTrail (c : Conn) : List Packet → List UInt32
  | [] => []
  | entry :: rest =>
    let result := c.recoverPacket entry (RetransmitQueue.nextEntrySeq rest)
    result.1.peerAck :: (if result.2 then result.1.replayTrail rest else [])

def ackTrail (c : Conn) (event : Event) : List UInt32 :=
  match c.ackTaken event with
  | none => []
  | some (acked, packet) =>
    acked.peerAck :: (acked.deliverMissing packet).replayTrail (acked.replayed packet)

def NeverBack (c : Conn) (event : Event) : Prop :=
  (c.peerAck :: c.ackTrail event).IsChain fun old new =>
    isUint32SeqHigher old new = false

def Crosses (peerAck packetAck : UInt32) : Prop :=
  peerAck < packetAck ∧ isUint32SeqHigher peerAck packetAck = true

def ReplaysForward (c : Conn) : List Packet → Prop
  | [] => True
  | entry :: rest =>
    let result := c.recoverPacket entry (RetransmitQueue.nextEntrySeq rest)
    ¬ Crosses c.peerAck entry.packetAck ∧ (result.2 = true → result.1.ReplaysForward rest)

def Uncrossed (c : Conn) (event : Event) : Prop := ∀ acked packet, c.ackTaken event = some
  (acked, packet) → (acked.deliverMissing packet).ReplaysForward (acked.replayed packet)

theorem peerAck_recoverPacket (c : Conn) (packet : Packet) (nextSeq : UInt32) :
    (c.recoverPacket packet nextSeq).1.peerAck =
      if packet.packetAck > c.peerAck then packet.packetAck
      else c.peerAck := by
  unfold recoverPacket
  dsimp only
  split <;> rfl

theorem peerAck_rangeLoop (c : Conn) (entries : List Packet) :
    (RetransmitQueue.rangeLoop recoverPacket c entries).peerAck =
      (c.replayTrail entries).getLastD c.peerAck := by
  induction entries generalizing c with
  | nil => rfl
  | cons entry rest ih =>
    unfold RetransmitQueue.rangeLoop replayTrail
    dsimp only
    split
    · rw [ih, List.getLastD_cons]
    · rfl

theorem peerAck_serializeAck (c : Conn) (ack : UInt32) :
    (c.serializeAck ack).peerAck = c.peerAck := by
  unfold serializeAck
  split <;> rfl

theorem peerAck_recoverFromLoss (c : Conn) (startSeq : UInt32) :
    (c.recoverFromLoss startSeq).peerAck = (c.replayTrail (RetransmitQueue.rangeStart startSeq
      c.ooq)).getLastD c.peerAck := by
  unfold recoverFromLoss acknowledge
  rw [peerAck_serializeAck]
  exact c.peerAck_rangeLoop _

theorem peerAck_processData (c : Conn) (packet : Packet) :
    (c.processData packet).peerAck = c.peerAck := by
  unfold processData
  split
  · rfl
  · split
    · rfl
    · exact peerAck_serializeAck _ _

theorem peerAck_processPayload (c : Conn) (packet : Packet) : (c.processPayload packet).peerAck =
      ((c.deliverMissing packet).replayTrail (c.replayed packet)).getLastD c.peerAck := by
  unfold processPayload replayed
  by_cases hempty : packet.data.isEmpty = true
  · rw [if_pos hempty, if_pos (by simp [hempty])]
    rfl
  · rw [if_neg hempty]
    by_cases hrecovery : c.recovery = true
    · rw [if_pos hrecovery]
      unfold processRecoveryData
      by_cases hother : (c.peerSeq != packet.packetSeq) = true
      · rw [if_pos hother, if_pos (by simp [hother])]
        rfl
      · rw [if_neg hother, if_neg (by simp [hempty, hrecovery, hother]), toTransfer_unblockTransmit]
        exact peerAck_recoverFromLoss _ _
    · rw [if_neg hrecovery, if_pos (by simp [hrecovery]), peerAck_processData]
      rfl

variable {c acked : Conn} {event : Event} {packet : Packet}

theorem readLoopIncoming_of_new (accepts : c.Accepts packet) (hahead : isUint32SeqHigher c.peerSeq
    packet.packetSeq = false) (hnew : c.isDuplicateAck c.seq packet = false) :
    c.readLoopIncoming packet = ((({ c with recvIcmpSeq := packet.icmpSeq.toUInt32 }.detectLoss
        packet).processNewAck packet.packetAck).processPayload packet).manageTimers := by
  rw [readLoopIncoming_of_accepts accepts]
  exact congrArg manageTimers ((processSegment_of_current
    (c := { c with recvIcmpSeq := packet.icmpSeq.toUInt32 }) hahead).trans
    (if_neg ((Bool.not_eq_true _).mpr hnew)))

theorem peerAck_of_ackTaken (htaken : c.ackTaken event = some (acked, packet)) :
    acked.peerAck = if isUint32SeqHigher packet.packetAck c.peerAck then packet.packetAck
      else c.peerAck := by
  cases event with
  | incoming message buffer =>
    simp only [ackTaken, Option.ite_none_right_eq_some, Option.some.injEq, Prod.mk.injEq] at htaken
    obtain ⟨-, rfl, rfl⟩ := htaken
    have hacked := processNewAck_acked
      ({ c.getBuffer buffer with recvIcmpSeq :=
        (Packet.unmarshal message buffer).icmpSeq.toUInt32 }.detectLoss
          (Packet.unmarshal message buffer))
      (Packet.unmarshal message buffer).packetAck
    rw [toTransfer_detectLoss] at hacked
    exact hacked.peerAck_eq
  | _ => simp [ackTaken] at htaken

theorem isChain_replayTrail_iff (c : Conn) (entries : List Packet) :
    (c.peerAck :: c.replayTrail entries).IsChain (fun old new => isUint32SeqHigher old new = false)
      ↔ c.ReplaysForward entries := by
  induction entries generalizing c with
  | nil => simp [replayTrail, ReplaysForward]
  | cons entry rest ih =>
    have hmove : isUint32SeqHigher c.peerAck
        (c.recoverPacket entry (RetransmitQueue.nextEntrySeq rest)).1.peerAck
          = false ↔ ¬ Crosses c.peerAck entry.packetAck := by
      rw [peerAck_recoverPacket, Crosses]
      split
      · rename_i habove
        simp [show c.peerAck < entry.packetAck from habove]
      · rename_i hbelow
        simp [show ¬ c.peerAck < entry.packetAck from hbelow]
    unfold replayTrail ReplaysForward
    rw [List.isChain_cons_cons, hmove]
    split
    · rename_i hcontinues
      simp only [hcontinues, forall_const, ih]
    · rename_i hstops
      simp [hstops]

theorem neverBack_step_iff (c : Conn) (event : Event) :
    c.NeverBack event ↔ c.Uncrossed event := by
  unfold NeverBack Uncrossed ackTrail
  cases htaken : c.ackTaken event with
  | none => simp
  | some pair =>
    obtain ⟨acked, packet⟩ := pair
    have hforward : isUint32SeqHigher c.peerAck acked.peerAck = false := by
      rw [peerAck_of_ackTaken htaken]
      split
      · rename_i hhigher
        exact isUint32SeqHigher_asymm hhigher
      · exact isUint32SeqHigher_self _
    have hreplay := isChain_replayTrail_iff (acked.deliverMissing packet) (acked.replayed packet)
    rw [List.isChain_cons_cons, and_iff_right hforward]
    constructor
    · rintro hchain _ _ ⟨rfl, rfl⟩
      exact hreplay.mp hchain
    · intro huncrossed
      exact hreplay.mpr (huncrossed acked packet rfl)

theorem exists_available (c : Conn) : ∃ buffer, c.Available buffer := by
  obtain ⟨buffer, hfresh⟩ := Infinite.exists_notMem_finset c.held.toFinset
  exact ⟨buffer, fun hheld => absurd (List.mem_toFinset.mpr hheld) hfresh⟩

structure Listening (c : Conn) : Prop where
  closed : c.closed = false
  retransmit : c.retransmit = false
  wantType : c.wantType = icmpTypeEchoReply
  icmpID : c.icmpID = 7
  peerSeq : c.peerSeq = 0

def reply (seq ack : UInt32) (data : Bytes) : Message where
  icmpType := icmpTypeEchoReply
  code := 0
  id := 7
  seq := 0
  data := putUint32 seq ++ putUint32 ack ++ data

theorem header_reply (seq ack : UInt32) (data : Bytes) :
    eHeaderSize ≤ (reply seq ack data).data.length := by
  simp only [reply, List.length_append, length_putUint32, eHeaderSize]
  omega

theorem Listening.accepts (listening : c.Listening) (seq ack : UInt32)
    (data : Bytes) (buffer : BufferId) :
    c.Accepts (Packet.unmarshal (reply seq ack data) buffer) := by
  refine ⟨?_, ?_, ?_, ?_⟩
  · rw [Packet.icmpType_unmarshal, listening.wantType]
    rfl
  · exact (by decide : (0 : UInt8) ≠ 255)
  · rw [Packet.icmpEchoID_unmarshal, listening.icmpID]
    rfl
  · exact header_reply seq ack data

theorem unmarshal_reply (seq ack : UInt32) (data : Bytes) (buffer : BufferId) :
    (Packet.unmarshal (reply seq ack data) buffer).packetSeq = seq ∧
      (Packet.unmarshal (reply seq ack data) buffer).packetAck = ack ∧
      (Packet.unmarshal (reply seq ack data) buffer).data = data := by
  have hheader := header_reply seq ack data
  have hnumbers : getSeqAck (reply seq ack data).data = (seq, ack) := getSeqAck_header seq ack data
  rw [Packet.packetSeq_unmarshal _ hheader, Packet.packetAck_unmarshal _ hheader,
    Packet.data_unmarshal _ hheader, hnumbers]
  exact ⟨rfl, rfl, List.drop_left' (by simp [eHeaderSize])⟩

theorem Listening.stash (listening : c.Listening) (accepts : c.Accepts packet)
    (hgap : isUint32SeqHigher packet.packetSeq 0 = true) (hdata : packet.data ≠ [])
    (hrecovery : c.recovery = false) (hsame : packet.packetAck = c.peerAck) (hooq : c.ooq = []) :
    (c.readLoopIncoming packet).Listening ∧ (c.readLoopIncoming packet).recovery = true ∧
      (c.readLoopIncoming packet).ooq = [packet] ∧
      (c.readLoopIncoming packet).peerAck = c.peerAck := by
  have hgap : isUint32SeqHigher packet.packetSeq c.peerSeq = true := by
    rwa [listening.peerSeq]
  have hnew : c.isDuplicateAck c.seq packet = false := by
    simp [isDuplicateAck, hdata]
  have hdetect : { c with recvIcmpSeq := packet.icmpSeq.toUInt32 }.detectLoss packet =
        { c with
          recvIcmpSeq := packet.icmpSeq.toUInt32
          recovery := true
          transmitBlocked := true } := by
    rw [detectLoss, if_pos (by simp [hgap, hrecovery])]
    rfl
  obtain ⟨ackBytesCount, cwnd, hacked⟩ := processNewAck_of_not_retransmit
    (c := { c with
      recvIcmpSeq := packet.icmpSeq.toUInt32
      recovery := true
      transmitBlocked := true }) listening.retransmit packet.packetAck
  have hother : (c.peerSeq != packet.packetSeq) = true := by
    rw [bne_iff_ne]
    intro hequal
    simp [hequal] at hgap
  have hput : (c.ooq.put packet).1 = [packet] := by
    simp [RetransmitQueue.put, hooq, hdata]
  rw [readLoopIncoming_of_new accepts (isUint32SeqHigher_asymm hgap) hnew, hdetect, hacked,
    advancePeerAck, if_neg (by simp [hsame]), processPayload, if_neg (by simpa using hdata), if_pos
    rfl, processRecoveryData, if_pos hother]
  exact ⟨⟨listening.closed, listening.retransmit, listening.wantType,
    listening.icmpID, listening.peerSeq⟩, rfl, hput, rfl⟩

theorem Listening.acknowledged (listening : c.Listening) (accepts : c.Accepts packet)
    (hahead : isUint32SeqHigher 0 packet.packetSeq = false) (hdata : packet.data = [])
    (hrecovery : c.recovery = true) (hnew : isUint32SeqHigher packet.packetAck c.peerAck = true) :
    (c.readLoopIncoming packet).Listening ∧ (c.readLoopIncoming packet).recovery = true ∧
      (c.readLoopIncoming packet).ooq = c.ooq ∧
      (c.readLoopIncoming packet).peerAck = packet.packetAck := by
  have hahead : isUint32SeqHigher c.peerSeq packet.packetSeq = false := by
    rwa [listening.peerSeq]
  have hother : packet.packetAck ≠ c.peerAck := by
    intro hequal
    simp [hequal] at hnew
  have hduplicate : c.isDuplicateAck c.seq packet = false := by
    simp [isDuplicateAck, hother]
  have hdetect : { c with recvIcmpSeq := packet.icmpSeq.toUInt32 }.detectLoss
      packet = { c with recvIcmpSeq := packet.icmpSeq.toUInt32 } := by
    rw [detectLoss, if_neg (by simp [hrecovery])]
  obtain ⟨ackBytesCount, cwnd, hacked⟩ := processNewAck_of_not_retransmit
    (c := { c with recvIcmpSeq := packet.icmpSeq.toUInt32 }) listening.retransmit packet.packetAck
  rw [readLoopIncoming_of_new accepts hahead hduplicate, hdetect, hacked,
    advancePeerAck, if_pos hnew, processPayload, if_pos (by simp [hdata])]
  exact ⟨⟨listening.closed, listening.retransmit, listening.wantType,
    listening.icmpID, listening.peerSeq⟩, hrecovery, rfl, rfl⟩

theorem Listening.replays (listening : c.Listening) (accepts : c.Accepts packet)
    (hseq : packet.packetSeq = 0) (hdata : packet.data ≠ []) (hrecovery : c.recovery = true)
    (hsame : packet.packetAck = c.peerAck) {entry : Packet} (hooq : c.ooq = [entry])
    (hnext : entry.packetSeq = packet.nextSeq) (habove : c.peerAck < entry.packetAck) :
    (c.readLoopIncoming packet).peerAck = entry.packetAck := by
  have hinOrder : isUint32SeqHigher c.peerSeq packet.packetSeq = false := by
    rw [listening.peerSeq, hseq, isUint32SeqHigher_self]
  have hnew : c.isDuplicateAck c.seq packet = false := by
    simp [isDuplicateAck, hdata]
  have hdetect : { c with recvIcmpSeq := packet.icmpSeq.toUInt32 }.detectLoss
      packet = { c with recvIcmpSeq := packet.icmpSeq.toUInt32 } := by
    rw [detectLoss, if_neg (by simp [hrecovery])]
  obtain ⟨ackBytesCount, cwnd, hacked⟩ := processNewAck_of_not_retransmit
    (c := { c with recvIcmpSeq := packet.icmpSeq.toUInt32 }) listening.retransmit packet.packetAck
  rw [advancePeerAck, if_neg (by simp [hsame])] at hacked
  rw [readLoopIncoming_of_new accepts hinOrder hnew, hdetect, hacked, toTransfer_manageTimers,
    peerAck_processPayload, replayed, if_neg (by simp [hdata, hrecovery, listening.peerSeq, hseq])]
  rw [hooq, RetransmitQueue.rangeStart, if_pos (by simp [hnext]), replayTrail,
    List.getLastD_cons, peerAck_recoverPacket]
  have hmoves : entry.packetAck > (deliverMissing { c with
      recvIcmpSeq := packet.icmpSeq.toUInt32
      dupCnt := 0
      ackBytesCount := ackBytesCount
      cwnd := cwnd } packet).peerAck := habove
  rw [if_pos hmoves]
  simp [replayTrail]

end Conn

namespace Sender

variable {rounds : Nat} {s : Sender}

theorem receive_run (listening : s.conn.Listening) {seq ack : UInt32} (data : Bytes) {offset : Nat}
    (hahead : isUint32SeqHigher 0 seq = false) (hack : ack = UInt32.ofNat offset)
    (hsent : offset ≤ s.conn.writeBuf.readPos) (hfew : s.conn.writeBuf.readPos < max s.acked offset
    + 2 ^ 31) :
    ∃ buffer, Run step (fun s e => s.Honest e ∧ s.FewOutstanding e) s
      [⟨.incoming (reply seq ack data) buffer, offset⟩]
      { conn := (s.conn.getBuffer buffer).readLoopIncoming
          (Packet.unmarshal (reply seq ack data) buffer)
        acked := max s.acked offset } := by
  obtain ⟨buffer, available⟩ := s.conn.exists_available
  have htakes : s.conn.takesAck (reply seq ack data) = true := by
    rw [s.conn.takesAck_iff _ buffer, (unmarshal_reply ..).1, listening.peerSeq]
    exact ⟨listening.accepts seq ack data buffer, hahead⟩
  have hstep : s.step ⟨.incoming (reply seq ack data) buffer, offset⟩ =
      some { conn := (s.conn.getBuffer buffer).readLoopIncoming
               (Packet.unmarshal (reply seq ack data) buffer)
             acked := max s.acked offset } := by
    rw [step, acknowledged_incoming, if_pos htakes]
    rw [Conn.step_incoming _ listening.closed available, Option.map_some]
  refine ⟨buffer, Run.one ⟨?_, ?_⟩ hstep⟩
  · intro message hmem _
    cases hmem
    exact ⟨(congrArg Prod.snd (getSeqAck_header seq ack data)).trans hack, hsent⟩
  · intro after hafter
    cases hstep.symm.trans hafter
    rw [(Conn.sent_readLoopIncoming _ _).2.1]
    exact hfew

structure Calm (rounds : Nat) (s : Sender) : Prop where
  peerAck : 0 < rounds → s.conn.peerAck = UInt32.ofNat (rounds * 1024)
  recovery : s.conn.recovery = false
  ooq : s.conn.ooq = []

theorem calm_start : (start 1464 false 7).Calm 0 :=
  ⟨fun hpositive => absurd hpositive (Nat.lt_irrefl 0), rfl, rfl⟩

theorem Calm.nextRound (calm : s.Calm rounds) (steady : s.Steady rounds) :
    (s.nextRound rounds).Calm (rounds + 1) where
  peerAck := fun _ => steady.peerAck_nextRound
  recovery := steady.conn_nextRound.2.2.1.trans calm.recovery
  ooq := by
    rw [steady.conn_nextRound.1]
    exact calm.ooq

theorem Steady.listening (steady : s.Steady rounds) : s.conn.Listening :=
  ⟨steady.closed, steady.retransmit, steady.wantType, steady.icmpID, steady.peerSeq⟩

theorem listening_getBuffer {c : Conn} (listening : c.Listening)
    (buffer : BufferId) : (c.getBuffer buffer).Listening :=
  ⟨listening.closed, listening.retransmit, listening.wantType, listening.icmpID, listening.peerSeq⟩

structure Wrapping (s : Sender) : Prop where
  listening : s.conn.Listening
  sent : s.conn.writeBuf.readPos = 4294967736
  acked : 4294966272 ≤ s.acked

theorem exists_wrapping : ∃ events s, Run step (fun s e => s.Honest e ∧ s.FewOutstanding e)
      (start 1464 false 7) events s ∧ s.Wrapping ∧ s.conn.peerAck = 4294966272 ∧ s.conn.recovery =
      false ∧ s.conn.ooq = [] := by
  obtain ⟨events, s, run, steady, calm⟩ := steady_start.rounds_run Calm
    calm_start (fun _ _ steady calm => calm.nextRound steady) 4194303
  obtain ⟨data, hlength⟩ : ∃ data : Bytes, data.length = 1464 :=
    ⟨List.replicate 1464 0, List.length_replicate⟩
  have hsend := steady.sendNow_run data (List.ne_nil_of_length_eq_add_one hlength)
    (Nat.le_of_eq hlength)
  obtain ⟨hclosed, hretransmit, hwantType, hicmpID, hpeerSeq⟩ := steady.listening
  have hsent : (s.sendNow data (2 * 4194303)).conn.writeBuf.readPos =
      s.conn.writeBuf.readPos + data.length := rfl
  rw [steady.sent, hlength] at hsent
  exact ⟨_, _, run.append hsend, ⟨⟨hclosed, hretransmit, hwantType, hicmpID, hpeerSeq⟩, hsent,
    Nat.le_of_eq steady.acked.symm⟩, calm.peerAck (by decide), calm.recovery, calm.ooq⟩

theorem Wrapping.receive_run (wrapping : s.Wrapping) (seq ack : UInt32)
    (data : Bytes) (offset : Nat) (hahead : isUint32SeqHigher 0 seq = false)
    (hack : ack = UInt32.ofNat offset) (hsent : offset ≤ 4294967736) :
    ∃ buffer, Run step (fun s e => s.Honest e ∧ s.FewOutstanding e) s
      [⟨.incoming (reply seq ack data) buffer, offset⟩]
      { conn := (s.conn.getBuffer buffer).readLoopIncoming
          (Packet.unmarshal (reply seq ack data) buffer)
        acked := max s.acked offset } :=
  Sender.receive_run wrapping.listening data hahead hack (by rw [wrapping.sent]; exact hsent)
    (by have := wrapping.acked; rw [wrapping.sent]; omega)

theorem Wrapping.received (wrapping : s.Wrapping) {c : Conn} {packet : Packet} {buffer : BufferId}
    {offset : Nat} (hconn : c = (s.conn.getBuffer buffer).readLoopIncoming packet)
    (listening : c.Listening) :
    Wrapping { conn := c, acked := max s.acked offset } where
  listening := listening
  sent := by
    rw [hconn, (Conn.sent_readLoopIncoming _ _).2.1]
    exact wrapping.sent
  acked := Nat.le_trans wrapping.acked (Nat.le_max_left _ _)

theorem Wrapping.overtaken_run (wrapping : s.Wrapping) (hpeerAck : s.conn.peerAck = 4294966272)
    (hrecovery : s.conn.recovery = false) (hooq : s.conn.ooq = []) :
    ∃ events after, Run step (fun s e => s.Honest e ∧ s.FewOutstanding e) s events after ∧
      after.Wrapping ∧ after.conn.peerAck = 4294966272 ∧ after.conn.recovery = true ∧ ∃ entry,
      after.conn.ooq = [entry] ∧ entry.packetSeq = 8 ∧ entry.packetAck = 4294966272 := by
  obtain ⟨buffer, hrun⟩ := wrapping.receive_run 8 4294966272 [0] 4294966272
    (by decide) (by decide) (by decide)
  obtain ⟨hseq, hack, hdata⟩ := unmarshal_reply 8 4294966272 [0] buffer
  have listening := listening_getBuffer wrapping.listening buffer
  obtain ⟨hlistening, hrecovery, hooq, hsame⟩ := listening.stash (listening.accepts 8 4294966272 [0]
    buffer) (by rw [hseq]; decide) (by rw [hdata]; decide) hrecovery (hack.trans hpeerAck.symm) hooq
  exact ⟨_, _, hrun, wrapping.received rfl hlistening, hsame.trans hpeerAck,
    hrecovery, _, hooq, hseq, hack⟩

theorem Wrapping.acknowledged_run (wrapping : s.Wrapping) (hpeerAck : s.conn.peerAck = 4294966272)
    (hrecovery : s.conn.recovery = true) :
    ∃ events after, Run step (fun s e => s.Honest e ∧ s.FewOutstanding e) s
      events after ∧ after.Wrapping ∧ after.conn.peerAck = 440 ∧
        after.conn.recovery = true ∧ after.conn.ooq = s.conn.ooq := by
  obtain ⟨buffer, hrun⟩ := wrapping.receive_run 9 440 [] 4294967736 (by decide)
    (by decide) (by decide)
  obtain ⟨hseq, hack, hdata⟩ := unmarshal_reply 9 440 [] buffer
  have listening := listening_getBuffer wrapping.listening buffer
  have hhigher : isUint32SeqHigher 440 (s.conn.getBuffer buffer).peerAck =
      true := by
    change isUint32SeqHigher 440 s.conn.peerAck = true
    rw [hpeerAck]
    decide
  obtain ⟨hlistening, hrecovery, hooq, hnew⟩ := listening.acknowledged
    (listening.accepts 9 440 [] buffer) (by rw [hseq]; decide) hdata hrecovery
    (by rw [hack]; exact hhigher)
  exact ⟨_, _, hrun, wrapping.received rfl hlistening, hnew.trans hack, hrecovery, hooq⟩

end Sender

end Pig.Icmp
