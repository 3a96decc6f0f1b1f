import Pig.Icmp.Completeness

namespace Pig.Icmp

/-! The retransmission timer.  Only the loop that receives packets arms it, so
the first data sent is not covered by it. -/

namespace Sender

def advanceAcked (s : Sender) (ack : UInt32) : Nat :=
  let offset := s.acked + (ack - UInt32.ofNat s.acked).toNat
  if offset ≤ s.conn.writeBuf.readPos then offset else s.acked

def heard (s : Sender) (event : Conn.Event) : Nat :=
  match event.received with
  | none => s.acked
  | some message =>
    if s.conn.takesAck message then s.advanceAcked message.packetAck
    else s.acked

def observe (s : Sender) (event : Conn.Event) : Option Sender := (s.conn.step event).map fun conn =>
    { conn := conn, acked := s.heard event }

/-- If data is outstanding, the timer is armed, and when it fires a packet is
sent whose data starts at the oldest byte that is not acknowledged. -/
def Covers (s : Sender) : Prop := s.acked < s.conn.writeBuf.readPos → s.conn.rto = true ∧ ∃ message,
      s.conn.readLoopRto.outbox = s.conn.outbox ++ [message] ∧ eHeaderSize < message.data.length ∧
      (getSeqAck message.data).1 = UInt32.ofNat s.acked

structure Unsent (s : Sender) : Prop where
  readPos : s.conn.writeBuf.readPos = 0
  acked : s.acked = 0
  seq : s.conn.seq = 0
  rq : s.conn.rq = []
  unarmed : s.conn.rto = true → s.conn.peerAck ≠ 0

theorem unsent_start (emss : UInt32) (isServer : Bool) (icmpID : UInt16) :
    (start emss isServer icmpID).Unsent where
  readPos := rfl
  acked := rfl
  seq := rfl
  rq := rfl
  unarmed := fun hrto => nomatch hrto

variable {s after : Sender} {event : Conn.Event}

theorem Unsent.heard (unsent : s.Unsent) (event : Conn.Event) : s.heard event = 0 := by
  unfold Sender.heard
  split
  · exact unsent.acked
  · split
    · unfold advanceAcked
      dsimp only
      rw [unsent.acked, unsent.readPos]
      split <;> omega
    · exact unsent.acked

end Sender

namespace Conn

theorem resent_of_nil {k after : Transfer} (hrq : k.rq = [])
    (resent : k.Resent after) : after = k := by
  cases resent with
  | nothing => rfl
  | packet packet message found code data =>
    rw [hrq] at found
    simp [RetransmitQueue.getPacket] at found

theorem rq_readLoopIncoming_of_nil {c : Conn} (hrq : c.rq = [])
    (message : Message) (buffer : BufferId) :
    (c.readLoopIncoming (Packet.unmarshal message buffer)).rq = [] := by
  rcases c.rq_readLoopIncoming message buffer with
    hsame | ⟨-, middle, hresent, hkept | htrimmed⟩
  · rw [hsame, hrq]
  · rw [hkept, resent_of_nil hrq hresent, hrq]
  · rw [htrimmed, resent_of_nil hrq hresent, hrq]
    rfl

theorem rto_readLoopIncoming (c : Conn) (packet : Packet) : (c.readLoopIncoming packet).rto =
        isUint32SeqHigher (c.readLoopIncoming packet).seq (c.readLoopIncoming packet).peerAck ∨
      c.readLoopIncoming packet = c.close := by
  unfold readLoopIncoming
  split
  · exact .inr rfl
  · exact .inl rfl

theorem rto_readLoopAckTimer (c : Conn) :
    c.readLoopAckTimer.rto = isUint32SeqHigher c.seq c.peerAck ∧
      c.readLoopAckTimer.peerAck = c.peerAck := by
  unfold readLoopAckTimer
  split
  · exact ⟨rfl, rfl⟩
  · unfold serializeAck
    split <;> exact ⟨rfl, rfl⟩

end Conn

namespace Sender

variable {s after : Sender} {event : Conn.Event}

theorem ne_zero_of_higher {peerAck : UInt32}
    (hhigher : isUint32SeqHigher 0 peerAck = true) : peerAck ≠ 0 := by
  rintro rfl
  simp at hhigher

theorem Unsent.not_covers_transmit (unsent : s.Unsent) {count : Nat} {rawBuf : BufferId}
    (hcount : 0 < count) (hinside : count ≤ s.conn.writeBuf.bytes.length)
    (hconn : after.conn = (s.conn.getBuffer rawBuf).transmit (s.conn.writeBuf.next count)
    (s.conn.writeBuf.advance count) rawBuf) (hacked : after.acked = 0) : ¬ after.Covers := by
  intro hcovers
  have hsent : after.conn.writeBuf.readPos = count := by
    rw [hconn]
    change s.conn.writeBuf.readPos + count = _
    rw [unsent.readPos, Nat.zero_add]
  obtain ⟨hrto, message, houtbox, -, -⟩ := hcovers (by omega)
  have hlength : (s.conn.writeBuf.next count).length = count :=
    Bytes.length_window _ _ _ (by rw [unsent.readPos]; omega)
  have hpeerAck : after.conn.peerAck ≠ 0 := by
    rw [hconn] at hrto ⊢
    exact unsent.unarmed hrto
  have hpacket : after.conn.rq = [(s.conn.getBuffer rawBuf).outboundPacket
      (s.conn.writeBuf.next count) rawBuf] := by
    rw [hconn]
    change (s.conn.rq.put _).1 = _
    rw [unsent.rq, RetransmitQueue.put_above]
    · rfl
    · apply List.length_pos_iff.mp
      change 0 < (s.conn.writeBuf.next count).length
      omega
    · intro last hlast
      simp at hlast
  have hnone : after.conn.rq.getPacket after.conn.peerAck = none := by
    have hfirst : ((s.conn.getBuffer rawBuf).outboundPacket
        (s.conn.writeBuf.next count) rawBuf).packetSeq = 0 := unsent.seq
    simp [hpacket, RetransmitQueue.getPacket, hfirst, Ne.symm hpeerAck]
  rw [Conn.toTransfer_readLoopRto_of_none hnone] at houtbox
  simp at houtbox

theorem Unsent.transmit_nothing (unsent : s.Unsent) (rawBuf : BufferId)
    {acked : Nat} (hacked : acked = 0) :
    Unsent {
      conn := (s.conn.getBuffer rawBuf).transmit (s.conn.writeBuf.next 0)
        (s.conn.writeBuf.advance 0) rawBuf
      acked := acked } where
  readPos := unsent.readPos
  acked := hacked
  seq := by
    change s.conn.seq + UInt32.ofNat (s.conn.writeBuf.next 0).length = 0
    simp [Buffer.next, Bytes.window, unsent.seq]
  rq := by
    change (s.conn.rq.put _).1 = []
    simp [RetransmitQueue.put, Conn.outboundPacket, Buffer.next, Bytes.window, unsent.rq]
  unarmed := unsent.unarmed

theorem Unsent.keep (unsent : s.Unsent) (hacked : after.acked = 0)
    (hreadPos : after.conn.writeBuf.readPos = s.conn.writeBuf.readPos)
    (hseq : after.conn.seq = s.conn.seq) (hrq : after.conn.rq = s.conn.rq)
    (hunarmed : after.conn.rto = true → after.conn.peerAck ≠ 0) :
    after.Unsent :=
  ⟨hreadPos.trans unsent.readPos, hacked, hseq.trans unsent.seq, hrq.trans unsent.rq, hunarmed⟩

theorem Unsent.observe (unsent : s.Unsent) (hstep : s.observe event = some after) :
    after.Unsent ∨ 0 < after.conn.writeBuf.readPos ∧ ¬ after.Covers := by
  have hheard := unsent.heard event
  obtain ⟨conn, hconn, rfl⟩ := Option.map_eq_some_iff.mp hstep
  cases Conn.taken_of_step hconn with
  | write hwrite =>
    exact .inl (unsent.keep hheard (Buffer.write_ok hwrite).1 rfl rfl unsent.unarmed)
  | read | skip => exact .inl (unsent.keep hheard rfl rfl rfl unsent.unarmed)
  | @send rawBuf data writeBuf available hread =>
    have hstart : s.conn.writeBuf.readPos ≤ s.conn.writeBuf.bytes.length := by
      rw [unsent.readPos]
      exact Nat.zero_le _
    obtain ⟨count, -, hinside, rfl, rfl⟩ := Buffer.read_ok hread hstart
    rcases Nat.eq_zero_or_pos count with rfl | hcount
    · exact .inl (unsent.transmit_nothing rawBuf hheard)
    · have hbytes : count ≤ s.conn.writeBuf.bytes.length :=
        Nat.le_trans (Nat.le_add_left _ _) hinside
      refine .inr ⟨?_, unsent.not_covers_transmit hcount hbytes rfl hheard⟩
      change 0 < s.conn.writeBuf.readPos + count
      omega
  | @incoming message buffer =>
    obtain ⟨-, hreadPos, hseq⟩ := (s.conn.getBuffer buffer).sent_readLoopIncoming
        (Packet.unmarshal message buffer)
    refine .inl ⟨hreadPos.trans unsent.readPos, hheard, hseq.trans unsent.seq, ?_, ?_⟩
    · exact Conn.rq_readLoopIncoming_of_nil (c := s.conn.getBuffer buffer) unsent.rq message buffer
    · rcases (s.conn.getBuffer buffer).rto_readLoopIncoming
          (Packet.unmarshal message buffer) with hrto | hclose
      · intro harmed
        rw [hrto, hseq] at harmed
        exact ne_zero_of_higher (unsent.seq ▸ harmed)
      · rw [hclose]
        exact unsent.unarmed
  | ackTimer =>
    have hsame := s.conn.toOutgoing_readLoopAckTimer
    obtain ⟨hrto, hpeerAck⟩ := s.conn.rto_readLoopAckTimer
    refine .inl (unsent.keep hheard ?_ ?_ ?_ ?_)
    · rw [hsame]
    · rw [hsame]
    · rw [hsame]
    · intro harmed
      rw [hrto, unsent.seq] at harmed
      rw [hpeerAck]
      exact ne_zero_of_higher harmed
  | rto hrto =>
    have hsame : s.conn.readLoopRto.toTransfer = s.conn.toTransfer :=
      Conn.resent_of_nil unsent.rq s.conn.readLoopRto_resent
    refine .inl (unsent.keep hheard ?_ ?_ ?_ ?_)
    · rw [hsame]
    · rw [hsame]
    · rw [hsame]
    · intro _
      rw [hsame]
      exact unsent.unarmed hrto

theorem readPos_observe (hstep : s.observe event = some after) :
    s.conn.writeBuf.readPos ≤ after.conn.writeBuf.readPos := by
  obtain ⟨conn, hconn, rfl⟩ := Option.map_eq_some_iff.mp hstep
  exact (Conn.writeBuf_step hconn).1

variable {events : List Conn.Event}

theorem unsent_or_uncovered {first : Sender} (unsent : first.Unsent)
    (run : Run observe (fun _ _ => True) first events s) :
    s.Unsent ∨ ∃ middle, Run.Through observe (fun _ _ => True) first events s
      middle ∧ ¬ middle.Covers := by
  induction run with
  | start => exact .inl unsent
  | next before permitted taken ih =>
    rcases ih with hunsent | ⟨middle, hthrough, hnot⟩
    · rcases hunsent.observe taken with hafter | ⟨-, hnot⟩
      · exact .inl hafter
      · exact .inr ⟨_, .ofRun (.next before permitted taken), hnot⟩
    · exact .inr ⟨middle, hthrough.next permitted taken, hnot⟩

/-- The data a connection sends is covered by the timer all along exactly if it
sends none. -/
theorem covers_iff_unsent {emss : UInt32} {isServer : Bool} {icmpID : UInt16}
    (run : Run observe (fun _ _ => True) (start emss isServer icmpID) events s) :
    (∀ middle, Run.Through observe (fun _ _ => True) (start emss isServer icmpID) events s middle →
      middle.Covers) ↔ s.conn.writeBuf.readPos = 0 := by
  constructor
  · intro hcovers
    rcases unsent_or_uncovered (unsent_start emss isServer icmpID) run with
      hunsent | ⟨middle, hthrough, hnot⟩
    · exact hunsent.readPos
    · exact absurd (hcovers middle hthrough) hnot
  · rintro hsent middle ⟨front, back, -, -, hback⟩ houtstanding
    have hle := hback.invariant (fun later => middle.conn.writeBuf.readPos ≤
      later.conn.writeBuf.readPos) (Nat.le_refl _) (fun _ _ _ hbefore _ taken =>
        Nat.le_trans hbefore (readPos_observe taken))
    omega

def firstSegment : List Conn.Event := [.write [1], .writeLoop 0]

theorem not_covers_firstSegment :
    ∃ s, Run observe (fun _ _ => True) (start 1464 false 7) firstSegment s ∧ ¬ s.Covers := by
  refine Run.exists_of_exec_imp (fun s => s.acked = 0 ∧ s.conn.writeBuf.readPos = 1 ∧ s.conn.rto =
    false) (by decide +kernel) fun s _ ⟨hacked, hsent, hrto⟩ hcovers => ?_
  have harmed := (hcovers (by omega)).1
  rw [hrto] at harmed
  exact Bool.false_ne_true harmed

theorem covers_iff_unsent_firstSegment :
    ∃ s, Run observe (fun _ _ => True) (start 1464 false 7) firstSegment s ∧ ¬ ∀ middle, Run.Through
      observe (fun _ _ => True) (start 1464 false 7) firstSegment s middle → middle.Covers := by
  refine Run.exists_of_exec_imp (fun s => s.conn.writeBuf.readPos = 1) (by decide +kernel)
    fun s run hsent hall => ?_
  have hnone := (covers_iff_unsent run).mp hall
  omega

end Sender

end Pig.Icmp
