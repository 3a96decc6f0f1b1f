import Pig.Icmp.Completeness
import Pig.Icmp.Window

namespace Pig.Icmp

namespace Conn

open CongestionWindow

def AdditionsExact (c : Conn) (event : Event) : Prop :=
  Along AddsExactly c.window (c.windowChanges event)

def GrowthExact (c : Conn) (event : Event) : Prop :=
  Along GrowsExactly c.window (c.windowChanges event)

/-- The window has at least one segment and the threshold at least two, and the
difference that the wait for the window looks at does not wrap. -/
structure WindowSound (c : Conn) : Prop where
  cwnd_ge : c.emss.toNat ≤ c.cwnd.toNat
  ssthresh_ge : 2 * c.emss.toNat ≤ c.ssthresh.toNat
  difference : (c.cwnd - c.emss).toNat + c.emss.toNat = c.cwnd.toNat

theorem windowSound_of_bounded {c : Conn} (bounded : c.window.Bounded) : c.WindowSound where
  cwnd_ge := bounded.cwnd_ge
  ssthresh_ge := bounded.ssthresh_ge
  difference := by
    have hle : c.emss.toNat ≤ c.cwnd.toNat := bounded.cwnd_ge
    rw [UInt32.toNat_sub_of_le _ _ (UInt32.le_iff_toNat_le.mpr hle)]
    omega

theorem bounded_newConnection {emss : UInt32}
    (hemss : 10 * emss.toNat < 2 ^ 32) (isServer : Bool) (icmpID : UInt16) :
    (newConnection emss isServer icmpID).window.Bounded where
  emss_lt := hemss
  cwnd_ge := by
    change emss.toNat ≤ (10 * emss).toNat
    have hten : (10 : UInt32).toNat = 10 := rfl
    rw [UInt32.toNat_mul, hten, Nat.mod_eq_of_lt hemss]
    omega
  ssthresh_ge := by
    change 2 * emss.toNat ≤ 4294967295
    omega
  ssthresh_lt := fun hretransmit => (by cases hretransmit)

variable {emss : UInt32} {isServer : Bool} {icmpID : UInt16} {events : List Event} {c : Conn}

theorem bounded_of_growthExact (hemss : 10 * emss.toNat < 2 ^ 32)
    (run : Run step GrowthExact (newConnection emss isServer icmpID) events c) :
    c.window.Bounded ∧ Run step AdditionsExact (newConnection emss isServer icmpID) events
        c := by
  induction run with
  | start =>
    exact ⟨bounded_newConnection hemss isServer icmpID, .start _⟩
  | next _ permitted taken ih =>
    obtain ⟨hbounded, hrun⟩ := ih
    obtain ⟨hadds, hafter⟩ := hbounded.along (regular_windowChanges _ _) permitted
    rw [← window_step taken] at hafter
    exact ⟨hafter, .next hrun hadds taken⟩

/-- The window is sound all along, with exact additions, exactly if it never
grows past 32 bits. -/
theorem windowSound_iff_growthExact (hemss : 10 * emss.toNat < 2 ^ 32)
    (run : Run step (fun _ _ => True) (newConnection emss isServer icmpID) events c) :
    ((∀ middle, Run.Through step (fun _ _ => True) (newConnection emss isServer icmpID) events c
      middle → middle.WindowSound) ∧ Run step AdditionsExact (newConnection emss isServer icmpID)
      events c) ↔ Run step GrowthExact (newConnection emss isServer icmpID) events c := by
  constructor
  · rintro ⟨-, hadds⟩
    exact hadds.weaken fun _ _ along => along.imp growsExactly_of_addsExactly
  · intro hgrows
    refine ⟨?_, (bounded_of_growthExact hemss hgrows).2⟩
    rintro middle ⟨front, back, rfl, hfront, -⟩
    obtain ⟨visited, hvisited, -⟩ := hgrows.split
    obtain rfl := hvisited.unique hfront
    exact windowSound_of_bounded (bounded_of_growthExact hemss hvisited).1

theorem length_windowChanges (c : Conn) (event : Event) : (c.windowChanges event).length ≤ 2 := by
  have hgrowth (window : CongestionWindow) (ackBytesCount ackedBytes : UInt32) :
      (window.growth ackBytesCount ackedBytes).length ≤ 1 := by
    unfold CongestionWindow.growth
    split
    · simp
    · split
      · split <;> simp
      · simp
  have hrecovery (packetAck : UInt32) : (c.recoveryChanges packetAck).length ≤ 1 := by
    unfold recoveryChanges
    split
    · simp
    · split
      · dsimp only
        split <;> split <;> simp
      · simp
  cases event with
  | incoming message buffer =>
    rw [windowChanges]
    split
    · unfold segmentChanges
      split
      · simp
      · split
        · unfold duplicateChanges
          split
          · simp
          · split
            · simp
            · split <;> simp
        · unfold ackChanges
          split
          · have hone := hrecovery (Packet.unmarshal message buffer).packetAck
            omega
          · rw [List.length_append]
            exact Nat.add_le_add (hrecovery _) (hgrowth ..)
    · simp
  | _ => simp [windowChanges]

theorem growthExact_of_few (run : Run step (fun _ _ => True) (newConnection emss isServer icmpID)
    events c) (hfew : (2 * events.length + 10) * emss.toNat < 2 ^ 31) :
    Run step GrowthExact (newConnection emss isServer icmpID) events c ∧ c.window.Bounded ∧ c.emss =
      emss ∧ c.cwnd.toNat ≤ 2 ^ 31 + (2 * events.length + 10) * emss.toNat := by
  have hemss : 10 * emss.toNat < 2 ^ 32 := by
    have hten : 10 * emss.toNat ≤ (2 * events.length + 10) * emss.toNat :=
      Nat.mul_le_mul_right _ (by omega)
    omega
  induction run with
  | start =>
    refine ⟨.start _, bounded_newConnection hemss isServer icmpID, rfl, ?_⟩
    have hten : (10 : UInt32).toNat = 10 := rfl
    change (10 * emss).toNat ≤ _
    rw [UInt32.toNat_mul, hten, Nat.mod_eq_of_lt hemss]
    exact Nat.le_add_left _ _
  | @next middle last earlier event before _ taken ih =>
    have hlength : (earlier ++ [event]).length = earlier.length + 1 := by simp
    have hle : (2 * earlier.length + 10) * emss.toNat ≤ (2 * (earlier ++ [event]).length + 10) *
      emss.toNat := Nat.mul_le_mul_right _ (by omega)
    obtain ⟨hrun, hbounded, hsame, hcwnd⟩ := ih (by omega)
    have hshort := middle.length_windowChanges event
    have hcount : (2 * earlier.length + 7 + (middle.windowChanges event).length + 3) * emss.toNat ≤
      (2 * (earlier ++ [event]).length + 10) * emss.toNat := Nat.mul_le_mul_right _ (by omega)
    obtain ⟨hgrows, hlast⟩ := cwnd_applyAll_le (2 * earlier.length + 7)
      hbounded (middle.regular_windowChanges event)
      (by change middle.cwnd.toNat ≤ 2 ^ 31 + _ * middle.emss.toNat
          rw [hsame]; exact hcwnd)
      (by change _ * middle.emss.toNat < _
          rw [hsame]; omega)
    have hwindow := window_step taken
    obtain ⟨-, hafter⟩ := hbounded.along (middle.regular_windowChanges event) hgrows
    rw [← hwindow] at hafter hlast
    have hkept : last.emss = emss := by
      have hemss := congrArg CongestionWindow.emss hwindow
      rw [emss_applyAll] at hemss
      exact hemss.trans hsame
    refine ⟨.next hrun hgrows taken, hafter, hkept, ?_⟩
    change last.cwnd.toNat ≤ 2 ^ 31 + _ * middle.emss.toNat at hlast
    rw [hsame] at hlast
    omega

/-- The third duplicate acknowledgment, another one, and the acknowledgment of
everything sent. -/
def lossAndRecovery : List Event :=
  let acknowledgment (ack : UInt32) (buffer : BufferId) : Event :=
    .incoming {
      icmpType := icmpTypeEchoReply
      code := 0
      id := 7
      seq := 0
      data := putUint32 0 ++ putUint32 ack } buffer
  [.write [1], .writeLoop 0, acknowledgment 0 1, acknowledgment 0 2, acknowledgment 0 3,
    acknowledgment 0 4, acknowledgment 0 5, acknowledgment 1 6]

theorem windowSound_iff_growthExact_lossAndRecovery :
    ∃ c, Run step (fun _ _ => True) (newConnection 1464 false 7) lossAndRecovery c ∧ c.cwnd = 2928 ∧
      c.ssthresh = 2928 ∧ (∀ middle, Run.Through step (fun _ _ => True) (newConnection 1464 false 7)
      lossAndRecovery c middle → middle.WindowSound) ∧ Run step AdditionsExact
      (newConnection 1464 false 7) lossAndRecovery c :=
  Run.exists_of_exec_imp (fun c => c.cwnd = 2928 ∧ c.ssthresh = 2928) (by decide +kernel)
    fun _ run ⟨hcwnd, hssthresh⟩ => ⟨hcwnd, hssthresh, (windowSound_iff_growthExact (by decide)
      run).mpr (growthExact_of_few run (by decide)).1⟩

def credit (c : Conn) : UInt32 × UInt32 × UInt32 := (c.cwnd, c.ssthresh, c.ackBytesCount)

theorem credit_updateCongestionWindow_ne {c : Conn} {packetAck : UInt32} (hemss : c.emss ≠ 0)
    (hretransmit : c.retransmit = false) (hother : packetAck ≠ c.peerAck) :
    (c.updateCongestionWindow packetAck).credit ≠ c.credit := by
  have hacked : uint32SeqDiff packetAck c.peerAck ≠ 0 := fun hzero =>
    hother (eq_of_uint32SeqDiff_eq_zero hzero)
  have hmoves (number amount : UInt32) (hamount : amount ≠ 0) : number + amount ≠ number := by
    intro hsame
    exact hamount (UInt32.add_eq_left.mp hsame)
  unfold updateCongestionWindow
  rw [if_neg (by simp [hretransmit])]
  dsimp only
  intro hsame
  split at hsame
  · split at hsame
    · exact hmoves _ _ hemss (congrArg Prod.fst hsame)
    · exact hmoves _ _ hacked (congrArg (fun credit => credit.2.2) hsame)
  · refine hmoves _ _ ?_ (congrArg Prod.fst hsame)
    split
    · exact hemss
    · exact hacked

theorem credit_processPayload (c : Conn) (packet : Packet) :
    (c.processPayload packet).credit = c.credit := by
  obtain ⟨recovery, transmitBlocked, hsame⟩ := c.pacing_processPayload packet
  simp only [pacing, Prod.mk.injEq] at hsame
  simp only [credit, hsame.1]

theorem credit_processNewAck {c : Conn} (hretransmit : c.retransmit = false) (packetAck : UInt32) :
    (c.processNewAck packetAck).credit = (c.updateCongestionWindow packetAck).credit := by
  have hsettle := settleCongestion_of_not_retransmit
    (c := { c with dupCnt := 0 }) hretransmit packetAck
  have hsame : ({ c with dupCnt := 0 }.updateCongestionWindow packetAck).credit =
        (c.updateCongestionWindow packetAck).credit := by
    unfold updateCongestionWindow
    dsimp only
    split
    · rfl
    · split
      · split <;> rfl
      · rfl
  rw [← hsame, ← hsettle]
  unfold processNewAck advancePeerAck
  split <;> rfl

theorem credit_processSegment_ne {c : Conn} {packet : Packet} (hemss : c.emss ≠ 0)
    (hretransmit : c.retransmit = false) (hother : packet.packetAck ≠ c.peerAck)
    (hahead : isUint32SeqHigher c.peerSeq packet.packetSeq = false) :
    (c.processSegment packet).credit ≠ c.credit := by
  obtain ⟨recovery, transmitBlocked, hdetect⟩ := c.detectLoss_eq packet
  have hnew : c.isDuplicateAck c.seq packet = false := by
    rw [isDuplicateAck, beq_false_of_ne hother]
    simp
  have hkept : (c.detectLoss packet).retransmit = false := by
    rw [hdetect]
    exact hretransmit
  rw [processSegment_of_current hahead, if_neg (by simp [hnew]), credit_processPayload,
    credit_processNewAck hkept, hdetect]
  exact credit_updateCongestionWindow_ne hemss hretransmit hother

/-- A late acknowledgment leaves the window as it is exactly if the packet is
dropped because its sequence number is behind as well. -/
theorem credit_kept_iff_behind {c : Conn} {packet : Packet} (hemss : c.emss ≠ 0)
    (hretransmit : c.retransmit = false) (accepts : c.Accepts packet)
    (hlate : isUint32SeqHigher c.peerAck packet.packetAck = true) :
    (∃ after, c.processICMPPacket packet = .ok after ∧ after.cwnd = c.cwnd ∧ after.ssthresh =
      c.ssthresh ∧ after.ackBytesCount = c.ackBytesCount) ↔ isUint32SeqHigher c.peerSeq
      packet.packetSeq = true := by
  rw [processICMPPacket_of_accepts accepts]
  constructor
  · rintro ⟨after, hprocess, hcwnd, hssthresh, hcount⟩
    by_contra hahead
    have hother : packet.packetAck ≠ c.peerAck := by
      intro heq
      simp [heq] at hlate
    refine credit_processSegment_ne (c := { c with recvIcmpSeq := packet.icmpSeq.toUInt32 }) hemss
      hretransmit hother (by simpa using hahead) ?_
    rw [Except.ok.inj hprocess, credit, hcwnd, hssthresh, hcount]
    rfl
  · intro hbehind
    rw [processSegment, if_pos hbehind]
    exact ⟨_, rfl, rfl, rfl, rfl⟩

def acknowledgedTwice : List Event :=
  [.write [1, 2, 3, 4], .writeLoop 0, .write [5, 6], .writeLoop 1,
    .incoming {
      icmpType := icmpTypeEchoReply
      code := 0
      id := 7
      seq := 0
      data := putUint32 0 ++ putUint32 6 } 2]

def lateAck : Packet :=
  Packet.unmarshal {
    icmpType := icmpTypeEchoReply
    code := 0
    id := 7
    seq := 0
    data := putUint32 0 ++ putUint32 4 } 3

/-- The acknowledgment of the first segment arrives after that of the second one
and adds a whole segment to the window. -/
theorem exists_late_growth : ∃ c, Run step (fun _ _ => True) (newConnection 1464 false 7)
  acknowledgedTwice c ∧ c.retransmit = false ∧ c.Accepts lateAck ∧ isUint32SeqHigher c.peerAck
  lateAck.packetAck = true ∧ c.cwnd = 14647 ∧ (c.processICMPPacket lateAck).toOption.map (·.cwnd) =
  some 16111 := Run.exists_of_exec _ _ _ _ _ (by decide +kernel)

theorem credit_kept_iff_behind_lateAck :
    ∃ c, Run step (fun _ _ => True) (newConnection 1464 false 7) acknowledgedTwice c ∧ ¬ ∃ after,
      c.processICMPPacket lateAck = .ok after ∧ after.cwnd = c.cwnd ∧ after.ssthresh = c.ssthresh ∧
      after.ackBytesCount = c.ackBytesCount := by
  refine Run.exists_of_exec_imp (fun c => c.emss ≠ 0 ∧ c.retransmit = false ∧ c.Accepts lateAck ∧
    isUint32SeqHigher c.peerAck lateAck.packetAck = true ∧ isUint32SeqHigher c.peerSeq
    lateAck.packetSeq = false) (by decide +kernel)
    fun c _ ⟨hemss, hretransmit, haccepts, hlate, hahead⟩ hkept => ?_
  have hbehind := (credit_kept_iff_behind hemss hretransmit haccepts hlate).mp hkept
  rw [hahead] at hbehind
  exact Bool.false_ne_true hbehind

end Conn

/-! A stream without losses grows the window past 32 bits: every acknowledgment
of 1024 bytes adds as much, and the threshold is the highest number. -/

namespace Sender

theorem conn_run {allowed : Sender → Event → Prop} {first last : Sender}
    {events : List Event} (run : Run step allowed first events last) :
    Run Conn.step (fun _ _ => True) first.conn (events.map Event.event) last.conn := by
  induction run with
  | start => exact .start _
  | next _ _ taken ih =>
    obtain ⟨conn, hconn, rfl⟩ := Option.map_eq_some_iff.mp taken
    rw [List.map_append]
    exact .next ih trivial hconn

theorem window_sendNow (s : Sender) (data : Bytes) (rawBuf taken : BufferId) :
    ((s.sendNow data rawBuf).conn.getBuffer taken).window = s.conn.window := rfl

variable {rounds : Nat} {s : Sender}

theorem Steady.window_nextRound (steady : s.Steady rounds) (hslow : s.conn.cwnd < s.conn.ssthresh)
    (hacked : uint32SeqDiff (UInt32.ofNat ((rounds + 1) * 1024)) s.conn.peerAck ≤ 1464) :
    (s.nextRound rounds).conn.window = s.conn.window.apply (.grow (uint32SeqDiff
        (UInt32.ofNat ((rounds + 1) * 1024)) s.conn.peerAck)) := by
  obtain ⟨hpeerSeq, hpeerAck, hretransmit, -⟩ := s.frame_sendNow zeros (2 * rounds) (2 * rounds + 1)
  have hwindow := s.window_sendNow zeros (2 * rounds) (2 * rounds + 1)
  rw [← awaiting] at hpeerSeq hpeerAck hretransmit hwindow
  have hoff : (s.awaiting rounds).retransmit = false := hretransmit.trans steady.retransmit
  have hinOrder : ¬ isUint32SeqHigher (s.awaiting rounds).peerSeq
      (ackPacket rounds).packetSeq = true := by
    rw [packetSeq_ackPacket, hpeerSeq, steady.peerSeq]
    decide
  have hnew : ¬ (s.awaiting rounds).isDuplicateAck (s.awaiting rounds).seq
      (ackPacket rounds) = true := by
    have hother : UInt32.ofNat ((rounds + 1) * 1024) ≠ s.conn.peerAck := by
      intro heq
      have hbehind := steady.behind
      simp [heq] at hbehind
    rw [Conn.isDuplicateAck, packetAck_ackPacket, hpeerAck, beq_false_of_ne hother]
    simp
  have hnone : (s.awaiting rounds).recoveryChanges (UInt32.ofNat ((rounds + 1) * 1024)) = [] := by
    rw [Conn.recoveryChanges, if_pos (by simp [hoff])]
  have hchanges : (s.awaiting rounds).segmentChanges (ackPacket rounds) =
      [.grow (uint32SeqDiff (UInt32.ofNat ((rounds + 1) * 1024)) s.conn.peerAck)] := by
    rw [Conn.segmentChanges, if_neg hinOrder, if_neg hnew, packetAck_ackPacket,
      Conn.ackChanges, if_neg (by simp [hoff]), hnone, hpeerAck,
      List.nil_append, CongestionWindow.applyAll, List.foldl_nil, hwindow]
    exact CongestionWindow.growth_slowStart steady.retransmit hslow
      (by rw [Conn.window, steady.emss]; exact hacked) _
  rw [nextRound, Conn.window_readLoopIncoming, if_pos steady.accepts_ackPacket, hchanges, hwindow]
  rfl

structure Expanding (rounds : Nat) (s : Sender) : Prop where
  peerAck : s.conn.peerAck = UInt32.ofNat (rounds * 1024)
  ssthresh : s.conn.ssthresh = 4294967295
  cwnd : s.conn.cwnd = UInt32.ofNat (14641 + rounds * 1024)

theorem expanding_first : ((start 1464 false 7).nextRound 0).Expanding 1 := by
  have hwindow := steady_start.window_nextRound (by decide) (by decide)
  exact ⟨steady_start.peerAck_nextRound, congrArg CongestionWindow.ssthresh hwindow,
    congrArg CongestionWindow.cwnd hwindow⟩

theorem Expanding.acked (expanding : s.Expanding rounds) :
    uint32SeqDiff (UInt32.ofNat ((rounds + 1) * 1024)) s.conn.peerAck =
      1024 := by
  have hnext : (rounds + 1) * 1024 = rounds * 1024 + 1024 := by omega
  rw [expanding.peerAck, hnext, UInt32.ofNat_add, uint32SeqDiff, UInt32.add_comm]
  exact UInt32.add_sub_cancel ..

theorem Expanding.window_nextRound (expanding : s.Expanding rounds) (steady : s.Steady rounds) :
    (s.nextRound rounds).conn.window = s.conn.window.apply (.grow 1024) := by
  have hslow : s.conn.cwnd < s.conn.ssthresh := by
    rw [expanding.cwnd, expanding.ssthresh, UInt32.lt_iff_toNat_lt, UInt32.toNat_ofNat']
    change _ < 4294967295
    omega
  have hresult := steady.window_nextRound hslow (by rw [expanding.acked]; decide)
  rwa [expanding.acked] at hresult

theorem Expanding.nextRound (expanding : s.Expanding rounds) (steady : s.Steady rounds) :
    (s.nextRound rounds).Expanding (rounds + 1) where
  peerAck := steady.peerAck_nextRound
  ssthresh := by
    have hssthresh := congrArg CongestionWindow.ssthresh (expanding.window_nextRound steady)
    exact hssthresh.trans expanding.ssthresh
  cwnd := by
    have hnext : 14641 + (rounds + 1) * 1024 = 14641 + rounds * 1024 + 1024 := by
      omega
    have hcwnd := congrArg CongestionWindow.cwnd (expanding.window_nextRound steady)
    rw [hnext, UInt32.ofNat_add, ← expanding.cwnd]
    exact hcwnd

/-- After 4 GiB less 14 KiB sent and acknowledged segment by segment the window
has wrapped around and is smaller than a segment. -/
theorem exists_wrapped_window :
    ∃ events c, Run Conn.step (fun _ _ => True) (newConnection 1464 false 7)
      events c ∧ c.cwnd = 305 ∧ c.emss = 1464 ∧ ¬ c.WindowSound := by
  obtain ⟨events, s, run, steady, expanding⟩ := steady_start.round_run.2.rounds_run Expanding
    expanding_first (fun _ _ steady expanding => expanding.nextRound steady) 4194289
  have hcwnd : s.conn.cwnd = 305 := expanding.cwnd
  have hemss : s.conn.emss = 1464 := steady.emss
  refine ⟨_, _, conn_run (steady_start.round_run.1.append run), hcwnd, hemss, ?_⟩
  intro sound
  have hle := sound.cwnd_ge
  rw [hcwnd, hemss] at hle
  exact absurd hle (by decide)

end Sender

end Pig.Icmp
