import Pig.Icmp.Completeness
import Pig.Icmp.Window

namespace Pig.Icmp

/-! The flight counter: data is added when it is sent, and an acknowledgment
takes off its distance from the last one. -/

namespace FlightCounter

theorem toNat_sub (counter : FlightCounter) (num : UInt32) :
    (counter.sub num).bc.toNat = counter.bc.toNat - num.toNat := by
  unfold sub
  split
  · rename_i hnone
    have hzero : num.toNat ≤ 0 := UInt32.le_iff_toNat_le.mp hnone
    omega
  · split
    · rename_i hmore
      have hlt := UInt32.lt_iff_toNat_lt.mp hmore
      change 0 = _
      omega
    · rename_i hfits
      exact UInt32.toNat_sub_of_le _ _ (UInt32.not_lt.mp hfits)

theorem toNat_add {counter : FlightCounter} {num : UInt32}
    (hfits : counter.bc.toNat + num.toNat < 2 ^ 32) :
    (counter.add num).bc.toNat = counter.bc.toNat + num.toNat := by
  unfold add
  split
  · rename_i hnone
    have hzero : num.toNat ≤ 0 := UInt32.le_iff_toNat_le.mp hnone
    omega
  · rw [UInt32.toNat_add, Nat.mod_eq_of_lt hfits]

end FlightCounter

namespace Conn

variable (c : Conn)

theorem flightSize_settleCongestion (packetAck : UInt32) :
    (c.settleCongestion packetAck).flightSize = c.flightSize := by
  have hsame := c.pacing_retransmitMissingSegment packetAck
  simp only [pacing, Prod.mk.injEq] at hsame
  have hfast : (c.doFastRetransmit packetAck).1.flightSize = c.flightSize := by
    unfold doFastRetransmit
    split
    · rfl
    · split
      · unfold partialAck
        dsimp only
        split <;> split <;> simp only [hsame.1]
      · unfold exitFastRetransmit unblockTransmit
        split <;> rfl
  unfold settleCongestion
  split
  · exact hfast
  · obtain ⟨ackBytesCount, cwnd, hupdate⟩ :=
      (c.doFastRetransmit packetAck).1.updateCongestionWindow_eq packetAck
    rw [hupdate]
    exact hfast

theorem flightSize_processNewAck (packetAck : UInt32) :
    (c.processNewAck packetAck).flightSize =
      if isUint32SeqHigher packetAck c.peerAck then
        c.flightSize.sub (uint32SeqDiff packetAck c.peerAck)
      else c.flightSize := by
  have hflight := flightSize_settleCongestion { c with dupCnt := 0 } packetAck
  have hpeerAck : ({ c with dupCnt := 0 }.settleCongestion packetAck).peerAck = c.peerAck :=
    (settleCongestion_resent { c with dupCnt := 0 } packetAck).peerAck_eq
  unfold processNewAck advancePeerAck
  rw [hpeerAck]
  split
  · exact congrArg (·.sub (uint32SeqDiff packetAck c.peerAck)) hflight
  · exact hflight

theorem flightSize_processPayload (packet : Packet) :
    (c.processPayload packet).flightSize = c.flightSize := by
  obtain ⟨recovery, transmitBlocked, hsame⟩ := c.pacing_processPayload packet
  simp only [pacing, Prod.mk.injEq] at hsame
  simp only [hsame.1]

theorem flightSize_handleDuplicateAck (ourSeq : UInt32) (packet : Packet) :
    (c.handleDuplicateAck ourSeq packet).1.flightSize = c.flightSize := by
  unfold handleDuplicateAck countDuplicateAck enterFastRetransmit
  dsimp only
  split
  · rfl
  · split
    · rfl
    · split
      · rfl
      · split
        · rfl
        · have hsame := pacing_retransmitMissingSegment { c with
              dupCnt := c.dupCnt + 1
              recover := ourSeq
              transmitBlocked := true
              ssthresh := max (c.flightSize.load / 2) (2 * c.emss) }
            packet.packetAck
          simp only [pacing, Prod.mk.injEq] at hsame
          simp only [hsame.1]

theorem flightSize_processSegment (packet : Packet) :
    (c.processSegment packet).flightSize =
      if isUint32SeqHigher c.peerSeq packet.packetSeq = false ∧
          isUint32SeqHigher packet.packetAck c.peerAck = true then
        c.flightSize.sub (uint32SeqDiff packet.packetAck c.peerAck)
      else c.flightSize := by
  obtain ⟨recovery, transmitBlocked, hdetect⟩ := c.detectLoss_eq packet
  cases hahead : isUint32SeqHigher c.peerSeq packet.packetSeq with
  | true =>
    rw [processSegment_of_behind hahead, if_neg (by simp)]
  | false =>
    rw [processSegment_of_current hahead, hdetect]
    split
    · next hduplicate =>
        have hsame : packet.packetAck = c.peerAck := by
          simp only [isDuplicateAck, Bool.and_eq_true, beq_iff_eq] at hduplicate
          exact hduplicate.1.2
        rw [flightSize_handleDuplicateAck, if_neg (by simp [hsame])]
    · rw [flightSize_processPayload, flightSize_processNewAck]
      simp only [true_and]

theorem flightSize_readLoopIncoming (message : Message) (buffer : BufferId) :
    (c.readLoopIncoming (Packet.unmarshal message buffer)).flightSize =
      if c.takesAck message = true ∧ isUint32SeqHigher message.packetAck c.peerAck = true then
        c.flightSize.sub (uint32SeqDiff message.packetAck c.peerAck)
      else c.flightSize := by
  by_cases haccepts : c.Accepts (Packet.unmarshal message buffer)
  · have hheader : eHeaderSize ≤ message.data.length := by
      rw [← Packet.icmpPayload_unmarshal message buffer]
      exact haccepts.2.2.2
    have hack : (Packet.unmarshal message buffer).packetAck =
        message.packetAck := Packet.packetAck_unmarshal buffer hheader
    have hflight := flightSize_processSegment { c with
        recvIcmpSeq := (Packet.unmarshal message buffer).icmpSeq.toUInt32 }
      (Packet.unmarshal message buffer)
    rw [hack] at hflight
    rw [readLoopIncoming_of_accepts haccepts]
    simp only [c.takesAck_iff message buffer, haccepts, true_and]
    exact hflight
  · rw [if_neg (fun h => haccepts ((c.takesAck_iff message buffer).mp h.1).1)]
    exact congrArg (·.1.flightSize) (readLoopIncoming_of_refused haccepts).1

theorem flightSize_step_of_silent {c after : Conn} {event : Event} (hsilent : event.received = none)
    (hle : c.writeBuf.readPos ≤ c.writeBuf.bytes.length) (hstep : c.step event = some after) :
    ∃ count ≤ c.emss.toNat, after.writeBuf.readPos = c.writeBuf.readPos + count ∧
      after.writeBuf.readPos ≤ after.writeBuf.bytes.length ∧
      after.flightSize = c.flightSize.add (UInt32.ofNat count) := by
  cases taken_of_step hstep with
  | write hwrite =>
    obtain ⟨hreadPos, hbytes⟩ := Buffer.write_ok hwrite
    exact ⟨0, Nat.zero_le _, hreadPos, hreadPos ▸ Nat.le_trans hle hbytes.length_le, rfl⟩
  | read | skip => exact ⟨0, Nat.zero_le _, rfl, hle, rfl⟩
  | send available hread =>
    obtain ⟨count, hcount, hinside, rfl, rfl⟩ := Buffer.read_ok hread hle
    have hlength : (c.writeBuf.next count).length = count := Bytes.length_window _ _ _ hinside
    refine ⟨count, hcount, rfl, hinside, ?_⟩
    change c.flightSize.add (UInt32.ofNat (c.writeBuf.next count).length) = _
    rw [hlength]
  | incoming => cases hsilent
  | ackTimer =>
    have hpacing : c.readLoopAckTimer.pacing = c.pacing := by
      unfold readLoopAckTimer
      split
      · rfl
      · exact c.pacing_serializeAck c.ack
    have hflight : c.readLoopAckTimer.flightSize = c.flightSize := congrArg (·.1.flightSize) hpacing
    rw [toOutgoing_readLoopAckTimer, hflight]
    exact ⟨0, Nat.zero_le _, rfl, hle, rfl⟩
  | rto =>
    obtain ⟨transmitBlocked, hpacing⟩ := c.pacing_readLoopRto
    have hflight : c.readLoopRto.flightSize = c.flightSize := congrArg (·.1.flightSize) hpacing
    rw [c.readLoopRto_resent.writeBuf_eq, hflight]
    exact ⟨0, Nat.zero_le _, rfl, hle, rfl⟩

end Conn

namespace Sender

def FlightExact (s : Sender) : Prop :=
  s.conn.flightSize.bc.toNat = s.conn.writeBuf.readPos - s.acked

def HalfOutstanding (s : Sender) (e : Event) : Prop :=
  ∀ after ∈ s.step e, after.conn.writeBuf.readPos ≤ after.acked + 2 ^ 31

/-- An acknowledgment above the last one acknowledges new bytes, counted from
the number of those acknowledged before, or everything is acknowledged and the
distance from the last one covers all that was outstanding; any other one
acknowledges nothing new. -/
def Settles (s : Sender) (e : Event) : Prop :=
  ∀ message ∈ e.event.received, s.conn.takesAck message = true →
    if isUint32SeqHigher message.packetAck s.conn.peerAck = true then
      s.acked < e.offset ∧ s.conn.peerAck = UInt32.ofNat s.acked ∨
        s.conn.writeBuf.readPos ≤ max s.acked e.offset ∧ s.conn.writeBuf.readPos ≤ s.acked +
            (uint32SeqDiff message.packetAck s.conn.peerAck).toNat
    else e.offset ≤ s.acked

structure Accounted (s : Sender) : Prop where
  readPos_le : s.conn.writeBuf.readPos ≤ s.conn.writeBuf.bytes.length
  acked_le : s.acked ≤ s.conn.writeBuf.readPos
  few : s.conn.writeBuf.readPos ≤ s.acked + 2 ^ 31

variable {s after : Sender} {e : Event}

theorem header_of_takesAck {c : Conn} {message : Message} (htakes : c.takesAck message = true) :
    eHeaderSize ≤ message.data.length := by
  simp only [Conn.takesAck, Bool.and_eq_true, decide_eq_true_eq] at htakes
  exact htakes.1.2

theorem diff_eq_iff {peerAck : UInt32} {acked offset : Nat}
    (hnew : acked < offset) (hnear : offset ≤ acked + 2 ^ 31) :
    (uint32SeqDiff (UInt32.ofNat offset) peerAck).toNat = offset - acked ↔
      peerAck = UInt32.ofNat acked := by
  obtain ⟨distance, rfl⟩ := Nat.exists_eq_add_of_le (Nat.le_of_lt hnew)
  have hdistance : (UInt32.ofNat distance).toNat = distance := by
    exact Nat.mod_eq_of_lt (by omega)
  rw [Nat.add_sub_cancel_left, uint32SeqDiff, UInt32.ofNat_add]
  constructor
  · intro hdiff
    have hsame : UInt32.ofNat acked + UInt32.ofNat distance - peerAck = UInt32.ofNat distance :=
      UInt32.toNat_inj.mp (hdiff.trans hdistance.symm)
    grind
  · rintro rfl
    have hsame : UInt32.ofNat acked + UInt32.ofNat distance -
        UInt32.ofNat acked = UInt32.ofNat distance := by
      grind
    rw [hsame, hdistance]

theorem flightExact_incoming_iff (accounted : s.Accounted)
    (exact : s.FlightExact) {message : Message} {buffer : BufferId}
    {offset : Nat} (honest : s.Honest ⟨.incoming message buffer, offset⟩)
    (hstep : s.step ⟨.incoming message buffer, offset⟩ = some after) :
    after.FlightExact ↔ s.Settles ⟨.incoming message buffer, offset⟩ := by
  obtain ⟨conn, hconn, rfl⟩ := Option.map_eq_some_iff.mp hstep
  cases Conn.taken_of_step hconn
  have hreadPos : ((s.conn.getBuffer buffer).readLoopIncoming
      (Packet.unmarshal message buffer)).writeBuf.readPos = s.conn.writeBuf.readPos :=
    ((s.conn.getBuffer buffer).sent_readLoopIncoming _).2.1
  have hflight : ((s.conn.getBuffer buffer).readLoopIncoming
      (Packet.unmarshal message buffer)).flightSize =
        if s.conn.takesAck message = true ∧
          isUint32SeqHigher message.packetAck s.conn.peerAck = true then
        s.conn.flightSize.sub (uint32SeqDiff message.packetAck s.conn.peerAck)
      else s.conn.flightSize :=
    (s.conn.getBuffer buffer).flightSize_readLoopIncoming message buffer
  have hbefore : s.conn.flightSize.bc.toNat = s.conn.writeBuf.readPos - s.acked := exact
  have hfew := accounted.few
  have hsettles : s.Settles ⟨.incoming message buffer, offset⟩ ↔ (s.conn.takesAck message = true →
    _) := ⟨fun h => h message rfl, fun h other hother => by cases hother; exact h⟩
  rw [FlightExact, acknowledged_incoming, hflight, hreadPos, hsettles]
  by_cases htakes : s.conn.takesAck message = true
  · obtain ⟨hack, hsent⟩ := honest message rfl (header_of_takesAck htakes)
    dsimp only at hack hsent ⊢
    rw [if_pos htakes, forall_prop_of_true htakes, hack]
    by_cases hhigher : isUint32SeqHigher (UInt32.ofNat offset) s.conn.peerAck = true
    · rw [if_pos ⟨htakes, hhigher⟩, if_pos hhigher, FlightCounter.toNat_sub, hbefore]
      have hmoves := uint32SeqDiff_pos hhigher
      by_cases hnew : s.acked < offset
      · rw [← diff_eq_iff hnew (by omega)]
        omega
      · omega
    · rw [if_neg (fun h => hhigher h.2), if_neg hhigher, hbefore]
      omega
  · rw [if_neg (fun h => htakes h.1), if_neg htakes]
    exact iff_of_true exact fun h => absurd h htakes

theorem accounted_start (emss : UInt32) (isServer : Bool) (icmpID : UInt16) :
    (start emss isServer icmpID).Accounted where
  readPos_le := Nat.le_refl 0
  acked_le := Nat.le_refl 0
  few := Nat.zero_le _

theorem Accounted.step (accounted : s.Accounted) (honest : s.Honest e)
    (few : s.HalfOutstanding e) (hstep : s.step e = some after) :
    after.Accounted := by
  have hfew := few after hstep
  have hacked := accounted.acked_le
  obtain ⟨conn, hconn, rfl⟩ := Option.map_eq_some_iff.mp hstep
  obtain ⟨event, offset⟩ := e
  cases hreceived : event.received with
  | none =>
    obtain ⟨count, -, hreadPos, hinside, -⟩ :=
      Conn.flightSize_step_of_silent hreceived accounted.readPos_le hconn
    have hsame : s.acknowledged ⟨event, offset⟩ = s.acked := by
      rw [acknowledged, hreceived]
    refine ⟨hinside, ?_, hfew⟩
    rw [hsame, hreadPos]
    exact Nat.le_trans hacked (Nat.le_add_right _ _)
  | some message =>
    obtain ⟨buffer, rfl⟩ : ∃ buffer, event = .incoming message buffer := by
      cases event <;> cases hreceived
      exact ⟨_, rfl⟩
    cases Conn.taken_of_step hconn
    obtain ⟨hbytes, hreadPos, -⟩ := (s.conn.getBuffer buffer).sent_readLoopIncoming
        (Packet.unmarshal message buffer)
    refine ⟨?_, ?_, hfew⟩
    · rw [hbytes, hreadPos]
      exact accounted.readPos_le
    · rw [hreadPos, acknowledged_incoming]
      split
      · rename_i htakes
        exact Nat.max_le.mpr ⟨hacked, (honest message rfl (header_of_takesAck htakes)).2⟩
      · exact hacked

theorem flightExact_step_iff (accounted : s.Accounted) (exact : s.FlightExact)
    (honest : s.Honest e) (few : s.HalfOutstanding e)
    (hstep : s.step e = some after) : after.FlightExact ↔ s.Settles e := by
  obtain ⟨event, offset⟩ := e
  cases hreceived : event.received with
  | none =>
    have hfew := few after hstep
    obtain ⟨conn, hconn, rfl⟩ := Option.map_eq_some_iff.mp hstep
    obtain ⟨count, hcount, hreadPos, -, hflight⟩ :=
      Conn.flightSize_step_of_silent hreceived accounted.readPos_le hconn
    have hsame : s.acknowledged ⟨event, offset⟩ = s.acked := by
      rw [acknowledged, hreceived]
    have hsegment : (UInt32.ofNat count).toNat = count := by
      exact Nat.mod_eq_of_lt (Nat.lt_of_le_of_lt hcount s.conn.emss.toNat_lt)
    have hbefore : s.conn.flightSize.bc.toNat = s.conn.writeBuf.readPos - s.acked := exact
    have hle := accounted.acked_le
    dsimp only at hfew
    refine iff_of_true ?_ ?_
    · rw [FlightExact, hsame, hreadPos, hflight, FlightCounter.toNat_add]
      · dsimp only
        omega
      · omega
    · intro message hmessage
      cases hreceived.symm.trans hmessage
  | some message =>
    obtain ⟨buffer, rfl⟩ : ∃ buffer, event = .incoming message buffer := by
      cases event <;> cases hreceived
      exact ⟨_, rfl⟩
    exact flightExact_incoming_iff accounted exact honest hstep

/-- The counter is exact all along exactly if every event settles. -/
theorem flightExact_iff_settles {emss : UInt32} {isServer : Bool} {icmpID : UInt16}
    {events : List Event} (run : Run step (fun s e => s.Honest e ∧ s.HalfOutstanding e)
    (start emss isServer icmpID) events s) :
    (∀ middle, Run.Through step (fun s e => s.Honest e ∧ s.HalfOutstanding e)
        (start emss isServer icmpID) events s middle → middle.FlightExact) ↔
      Run step Settles (start emss isServer icmpID) events s := by
  constructor
  · intro hexact
    induction run with
    | start => exact .start _
    | next before permitted taken ih =>
      have hbefore := ih fun middle through =>
        hexact middle (through.next permitted taken)
      have haccounted := before.invariant Accounted (accounted_start emss isServer icmpID)
        fun _ _ _ accounted permitted taken =>
          accounted.step permitted.1 permitted.2 taken
      have hmiddle := hexact _ (Run.Through.next (.ofRun before) permitted taken)
      have hlast := hexact _ (.ofRun (.next before permitted taken))
      exact .next hbefore ((flightExact_step_iff haccounted hmiddle
        permitted.1 permitted.2 taken).mp hlast) taken
  · rintro hsettles middle ⟨front, back, rfl, hfront, -⟩
    obtain ⟨visited, hvisited, -⟩ := hsettles.split
    obtain rfl := hvisited.unique hfront
    have hboth := (hfront.both hvisited).invariant (fun s => s.Accounted ∧ s.FlightExact)
      ⟨accounted_start emss isServer icmpID, rfl⟩
    exact (hboth fun s e after before permitted taken =>
      ⟨before.1.step permitted.1.1 permitted.1.2 taken, (flightExact_step_iff before.1 before.2
        permitted.1.1 permitted.1.2 taken).mpr permitted.2⟩).2

/-- Two segments are sent, the first one is acknowledged, and the counter has
one byte less than the second one. -/
def miscounted : List Event := [{ event := .write [1, 2, 3, 4] }, { event := .writeLoop 0 },
    { event := .write [5, 6] }, { event := .writeLoop 1 },
    { event := .incoming {
        icmpType := icmpTypeEchoReply
        code := 0
        id := 7
        seq := 0
        data := putUint32 0 ++ putUint32 4 } 2
      offset := 4 }]

instance (s : Sender) (e : Event) : Decidable (s.HalfOutstanding e) :=
  inferInstanceAs (Decidable (∀ _ ∈ _, _ ≤ _))

theorem exists_miscounted : ∃ s, Run step (fun s e => s.Honest e ∧ s.HalfOutstanding e)
      (start 1464 false 7) miscounted s ∧ s.conn.writeBuf.readPos = 6 ∧ s.acked = 4 ∧
      s.conn.flightSize.bc = 1 ∧ ¬ s.FlightExact := by
  refine Run.exists_of_exec_imp (fun s => s.conn.writeBuf.readPos = 6 ∧ s.acked = 4 ∧
    s.conn.flightSize.bc = 1) (by decide +kernel) fun s _ ⟨hsent, hacked, hcounter⟩ => ?_
  refine ⟨hsent, hacked, hcounter, ?_⟩
  rw [FlightExact, hsent, hacked, hcounter]
  decide

theorem flightExact_iff_settles_miscounted :
    ∃ s, Run step (fun s e => s.Honest e ∧ s.HalfOutstanding e) (start 1464 false 7) miscounted s ∧
      ¬ Run step Settles (start 1464 false 7) miscounted s := by
  refine Run.exists_of_exec_imp (fun s => s.conn.flightSize.bc.toNat ≠ s.conn.writeBuf.readPos -
    s.acked) (by decide +kernel) fun s run hinexact hsettles => ?_
  exact hinexact ((flightExact_iff_settles run).mpr hsettles s (.ofRun run))

end Sender

end Pig.Icmp
