import Pig.Icmp.Transfer

namespace Pig.Icmp

def FlightCounter.waitsCwnd (counter : FlightCounter) (cwnd emss : UInt32) : Bool :=
  counter.bc > 0 && (counter.bc ≥ cwnd - emss || counter.bc ≥ counter.sendWindowSize - emss)

structure CongestionWindow where
  emss : UInt32
  cwnd : UInt32
  ssthresh : UInt32
  retransmit : Bool
  deriving DecidableEq, Repr

inductive WindowChange where
  /-- `cwnd.Add`, for new acknowledgments and for duplicate ones. -/
  | grow (amount : UInt32)
  /-- The third duplicate acknowledgment. -/
  | halve (flight : UInt32)
  | refill
  | deflate
  | collapse (flight : UInt32)
  deriving DecidableEq, Repr

def halfFlight (emss flight : UInt32) : UInt32 := max (flight / 2) (2 * emss)

theorem toNat_halfFlight {emss : UInt32} (hemss : 10 * emss.toNat < 2 ^ 32) (flight : UInt32) :
    (halfFlight emss flight).toNat = max (flight.toNat / 2) (2 * emss.toNat) := by
  have htwice : (2 * emss).toNat = 2 * emss.toNat := by
    exact Nat.mod_eq_of_lt (by simp; omega)
  have hhalf : (flight / 2).toNat = flight.toNat / 2 := UInt32.toNat_div ..
  change (if flight / 2 ≤ 2 * emss then 2 * emss else flight / 2).toNat = _
  rw [← htwice, ← hhalf, apply_ite UInt32.toNat, Nat.max_def]
  simp only [UInt32.le_iff_toNat_le]

theorem toNat_thrice {emss : UInt32} (hemss : 10 * emss.toNat < 2 ^ 32) :
    (3 * emss).toNat = 3 * emss.toNat := by
  exact Nat.mod_eq_of_lt (by simp; omega)

namespace CongestionWindow

variable {window : CongestionWindow} {change : WindowChange}

def apply (window : CongestionWindow) : WindowChange → CongestionWindow
  | .grow amount => { window with cwnd := window.cwnd + amount }
  | .halve flight =>
    { window with
      cwnd := halfFlight window.emss flight + 3 * window.emss
      ssthresh := halfFlight window.emss flight
      retransmit := true }
  | .refill => { window with cwnd := window.ssthresh + window.emss }
  | .deflate => { window with cwnd := window.ssthresh, retransmit := false }
  | .collapse flight =>
    { window with
      cwnd := window.emss
      ssthresh := halfFlight window.emss flight
      retransmit := false }

/-- Growth is by at most one segment, and only fast retransmit is gone on with
or left. -/
def Regular (window : CongestionWindow) : WindowChange → Prop
  | .grow amount => amount.toNat ≤ window.emss.toNat
  | .refill | .deflate => window.retransmit = true
  | _ => True

def GrowsExactly (window : CongestionWindow) : WindowChange → Prop
  | .grow amount => window.cwnd.toNat + amount.toNat < 2 ^ 32
  | _ => True

def AddsExactly (window : CongestionWindow) : WindowChange → Prop
  | .grow amount => window.cwnd.toNat + amount.toNat < 2 ^ 32
  | .halve flight =>
    (halfFlight window.emss flight).toNat + 3 * window.emss.toNat < 2 ^ 32
  | .refill => window.ssthresh.toNat + window.emss.toNat < 2 ^ 32
  | _ => True

theorem growsExactly_of_addsExactly (window : CongestionWindow)
    (change : WindowChange) (adds : window.AddsExactly change) :
    window.GrowsExactly change := by
  cases change with
  | grow => exact adds
  | _ => trivial

structure Bounded (window : CongestionWindow) : Prop where
  emss_lt : 10 * window.emss.toNat < 2 ^ 32
  cwnd_ge : window.emss.toNat ≤ window.cwnd.toNat
  ssthresh_ge : 2 * window.emss.toNat ≤ window.ssthresh.toNat
  ssthresh_lt : window.retransmit = true → window.ssthresh.toNat < 2 ^ 31

theorem Bounded.addsExactly (bounded : window.Bounded)
    (regular : window.Regular change) (grows : window.GrowsExactly change) :
    window.AddsExactly change := by
  have hemss := bounded.emss_lt
  cases change with
  | grow => exact grows
  | halve flight =>
    have hflight := flight.toNat_lt
    have hhalf := toNat_halfFlight hemss flight
    unfold AddsExactly
    omega
  | refill =>
    have hlow := bounded.ssthresh_lt regular
    unfold AddsExactly
    omega
  | deflate | collapse => trivial

theorem Bounded.apply (bounded : window.Bounded)
    (regular : window.Regular change) (grows : window.GrowsExactly change) :
    (window.apply change).Bounded := by
  have hadds := bounded.addsExactly regular grows
  obtain ⟨hemss, hcwnd, hssthresh, hretransmit⟩ := bounded
  cases change with
  | grow amount =>
    refine ⟨hemss, ?_, hssthresh, hretransmit⟩
    change _ ≤ (window.cwnd + amount).toNat
    rw [UInt32.toNat_add, Nat.mod_eq_of_lt grows]
    exact Nat.le_trans hcwnd (Nat.le_add_right _ _)
  | halve flight =>
    have hflight := flight.toNat_lt
    have hhalf := toNat_halfFlight hemss flight
    refine ⟨hemss, ?_, ?_, fun _ => ?_⟩
    · change _ ≤ (halfFlight window.emss flight + 3 * window.emss).toNat
      rw [UInt32.toNat_add, toNat_thrice hemss, Nat.mod_eq_of_lt hadds]
      change window.emss.toNat ≤ _
      omega
    · change 2 * window.emss.toNat ≤ (halfFlight window.emss flight).toNat
      omega
    · change (halfFlight window.emss flight).toNat < _
      omega
  | refill =>
    refine ⟨hemss, ?_, hssthresh, hretransmit⟩
    change _ ≤ (window.ssthresh + window.emss).toNat
    rw [UInt32.toNat_add, Nat.mod_eq_of_lt hadds]
    exact Nat.le_add_left _ _
  | deflate =>
    refine ⟨hemss, ?_, hssthresh, fun h => (by cases h)⟩
    change window.emss.toNat ≤ window.ssthresh.toNat
    omega
  | collapse flight =>
    refine ⟨hemss, Nat.le_refl _, ?_, fun h => (by cases h)⟩
    change 2 * window.emss.toNat ≤ (halfFlight window.emss flight).toNat
    rw [toNat_halfFlight hemss]
    omega

def Along (property : CongestionWindow → WindowChange → Prop) :
    CongestionWindow → List WindowChange → Prop
  | _, [] => True
  | window, change :: rest =>
    property window change ∧ Along property (window.apply change) rest

def applyAll (window : CongestionWindow) (changes : List WindowChange) : CongestionWindow :=
  changes.foldl apply window

theorem applyAll_append (window : CongestionWindow) (front back : List WindowChange) :
    window.applyAll (front ++ back) = (window.applyAll front).applyAll back :=
  List.foldl_append

variable {property other : CongestionWindow → WindowChange → Prop} {changes : List WindowChange}

theorem Along.imp (along : Along property window changes)
    (himp : ∀ window change, property window change → other window change) :
    Along other window changes := by
  induction changes generalizing window with
  | nil => trivial
  | cons change rest ih => exact ⟨himp _ _ along.1, ih along.2⟩

theorem along_append {front back : List WindowChange} : Along property window (front ++ back) ↔
      Along property window front ∧ Along property (window.applyAll front) back := by
  induction front generalizing window with
  | nil => exact ⟨fun along => ⟨trivial, along⟩, And.right⟩
  | cons change rest ih =>
    change _ ∧ Along _ _ (rest ++ back) ↔ (_ ∧ _) ∧ _
    rw [ih, and_assoc]
    rfl

theorem Bounded.along (bounded : window.Bounded) (regular : Along Regular window changes)
    (grows : Along GrowsExactly window changes) :
    Along AddsExactly window changes ∧ (window.applyAll changes).Bounded := by
  induction changes generalizing window with
  | nil => exact ⟨trivial, bounded⟩
  | cons change rest ih =>
    have hadds := bounded.addsExactly regular.1 grows.1
    have hafter := bounded.apply regular.1 grows.1
    obtain ⟨hrest, hlast⟩ := ih hafter regular.2 grows.2
    exact ⟨⟨hadds, hrest⟩, hlast⟩

def growth (window : CongestionWindow) (ackBytesCount ackedBytes : UInt32) : List WindowChange :=
  if window.retransmit then []
  else if window.cwnd ≥ window.ssthresh then
    if ackBytesCount + ackedBytes ≥ window.cwnd then [.grow window.emss] else []
  else [.grow (if ackedBytes > window.emss then window.emss else ackedBytes)]

theorem growth_slowStart {ackedBytes : UInt32} (hretransmit : window.retransmit = false)
    (hslow : window.cwnd < window.ssthresh) (hsmall : ackedBytes ≤ window.emss)
    (ackBytesCount : UInt32) :
    window.growth ackBytesCount ackedBytes = [.grow ackedBytes] := by
  rw [growth, if_neg (by simp [hretransmit]),
    if_neg (UInt32.not_le.mpr hslow), if_neg (UInt32.not_lt.mpr hsmall)]

theorem regular_growth (window : CongestionWindow) (ackBytesCount ackedBytes : UInt32) :
    Along Regular window (window.growth ackBytesCount ackedBytes) := by
  unfold growth
  split
  · trivial
  · split
    · split
      · exact ⟨Nat.le_refl _, trivial⟩
      · trivial
    · refine ⟨?_, trivial⟩
      split
      · exact Nat.le_refl _
      · rename_i hsmall
        exact UInt32.le_iff_toNat_le.mp (UInt32.not_lt.mp hsmall)

theorem cwnd_apply_le {added : Nat} (bounded : window.Bounded) (regular : window.Regular change)
    (hcwnd : window.cwnd.toNat ≤ 2 ^ 31 + (added + 3) * window.emss.toNat)
    (hfew : (added + 4) * window.emss.toNat < 2 ^ 31) :
    window.GrowsExactly change ∧ (window.apply change).cwnd.toNat ≤
        2 ^ 31 + (added + 4) * window.emss.toNat := by
  have hmore : (added + 4) * window.emss.toNat =
      added * window.emss.toNat + 4 * window.emss.toNat := Nat.add_mul ..
  have hless : (added + 3) * window.emss.toNat =
      added * window.emss.toNat + 3 * window.emss.toNat := Nat.add_mul ..
  have hemss := bounded.emss_lt
  cases change with
  | grow amount =>
    have hamount : amount.toNat ≤ window.emss.toNat := regular
    have hgrows : window.cwnd.toNat + amount.toNat < 2 ^ 32 := by omega
    refine ⟨hgrows, ?_⟩
    change (window.cwnd + amount).toNat ≤ _
    rw [UInt32.toNat_add, Nat.mod_eq_of_lt hgrows]
    omega
  | halve flight =>
    refine ⟨trivial, ?_⟩
    have hflight := flight.toNat_lt
    have hhalf := toNat_halfFlight hemss flight
    have hadds : window.AddsExactly (.halve flight) := bounded.addsExactly trivial trivial
    change (halfFlight window.emss flight + 3 * window.emss).toNat ≤ _
    rw [UInt32.toNat_add, toNat_thrice hemss, Nat.mod_eq_of_lt hadds, hhalf]
    omega
  | refill =>
    refine ⟨trivial, ?_⟩
    have hlow := bounded.ssthresh_lt regular
    have hsum := UInt32.toNat_add window.ssthresh window.emss
    change (window.ssthresh + window.emss).toNat ≤ _
    omega
  | deflate =>
    refine ⟨trivial, ?_⟩
    have hlow := bounded.ssthresh_lt regular
    change window.ssthresh.toNat ≤ _
    omega
  | collapse flight =>
    refine ⟨trivial, ?_⟩
    change window.emss.toNat ≤ _
    omega

theorem emss_apply (window : CongestionWindow) (change : WindowChange) :
    (window.apply change).emss = window.emss := by
  cases change <;> rfl

theorem emss_applyAll (window : CongestionWindow) (changes : List WindowChange) :
    (window.applyAll changes).emss = window.emss := by
  induction changes generalizing window with
  | nil => rfl
  | cons change rest ih => exact (ih _).trans (window.emss_apply change)

theorem cwnd_applyAll_le (added : Nat) (bounded : window.Bounded) (regular : Along Regular window
    changes) (hcwnd : window.cwnd.toNat ≤ 2 ^ 31 + (added + 3) * window.emss.toNat)
    (hfew : (added + changes.length + 3) * window.emss.toNat < 2 ^ 31) :
    Along GrowsExactly window changes ∧ (window.applyAll changes).cwnd.toNat ≤
        2 ^ 31 + (added + changes.length + 3) * window.emss.toNat := by
  induction changes generalizing window added with
  | nil => exact ⟨trivial, hcwnd⟩
  | cons change rest ih =>
    have hlength : added + (rest.length + 1) + 3 = added + 1 + rest.length + 3 := by omega
    have hnow : (added + 4) * window.emss.toNat < 2 ^ 31 :=
      Nat.lt_of_le_of_lt (Nat.mul_le_mul_right _ (by
        rw [List.length_cons]; omega)) hfew
    obtain ⟨hgrows, hnext⟩ := cwnd_apply_le bounded regular.1 hcwnd hnow
    have hafter := bounded.apply regular.1 hgrows
    rw [List.length_cons, hlength] at hfew ⊢
    have hemss := window.emss_apply change
    obtain ⟨hrest, hlast⟩ := ih (added + 1) hafter regular.2
      (by rw [hemss]; exact hnext) (by rw [hemss]; exact hfew)
    rw [hemss] at hlast
    exact ⟨⟨hgrows, hrest⟩, hlast⟩

end CongestionWindow

namespace Conn

open CongestionWindow

def window (c : Conn) : CongestionWindow where
  emss := c.emss
  cwnd := c.cwnd
  ssthresh := c.ssthresh
  retransmit := c.retransmit

def duplicateChanges (c : Conn) (packetAck : UInt32) : List WindowChange :=
  if c.retransmit then [.grow c.emss]
  else if c.dupCnt + 1 < 3 then []
  else if isUint32SeqHigher c.recover packetAck && (c.cwnd ≤ c.emss ||
        uint32SeqDiff c.peerAck c.prevPeerAck > 4 * c.emss) then []
  else [.halve c.flightSize.load]

def recoveryChanges (c : Conn) (packetAck : UInt32) : List WindowChange :=
  if !c.retransmit then []
  else if isUint32SeqHigher c.recover packetAck then
    let diff := uint32SeqDiff packetAck c.peerAck
    if (if diff < c.emss then c.emss else diff) < c.ssthresh then [.refill]
    else []
  else [.deflate]

def ackChanges (c : Conn) (packetAck : UInt32) : List WindowChange :=
  if c.retransmit && isUint32SeqHigher c.recover packetAck then
    c.recoveryChanges packetAck
  else
    c.recoveryChanges packetAck ++ (c.window.applyAll (c.recoveryChanges packetAck)).growth
      c.ackBytesCount (uint32SeqDiff packetAck c.peerAck)

def segmentChanges (c : Conn) (packet : Packet) : List WindowChange :=
  if isUint32SeqHigher c.peerSeq packet.packetSeq then []
  else if c.isDuplicateAck c.seq packet then c.duplicateChanges packet.packetAck
  else c.ackChanges packet.packetAck

def windowChanges (c : Conn) : Event → List WindowChange
  | .incoming message buffer =>
    if c.Accepts (Packet.unmarshal message buffer) then
      c.segmentChanges (Packet.unmarshal message buffer)
    else []
  | .rto => [.collapse c.flightSize.load]
  | _ => []

theorem regular_duplicateChanges (c : Conn) (packetAck : UInt32) :
    Along Regular c.window (c.duplicateChanges packetAck) := by
  unfold duplicateChanges
  split
  · exact ⟨Nat.le_refl _, trivial⟩
  · split
    · trivial
    · split
      · trivial
      · exact ⟨trivial, trivial⟩

theorem regular_recoveryChanges (c : Conn) (packetAck : UInt32) :
    Along Regular c.window (c.recoveryChanges packetAck) := by
  unfold recoveryChanges
  split
  · trivial
  · rename_i hretransmit
    split
    · have hrefill : Along Regular c.window [.refill] := by
        refine ⟨?_, trivial⟩
        change c.retransmit = true
        simpa using hretransmit
      dsimp only
      split <;> split
      · exact hrefill
      · trivial
      · exact hrefill
      · trivial
    · refine ⟨?_, trivial⟩
      change c.retransmit = true
      simpa using hretransmit

theorem regular_ackChanges (c : Conn) (packetAck : UInt32) :
    Along Regular c.window (c.ackChanges packetAck) := by
  unfold ackChanges
  split
  · exact c.regular_recoveryChanges packetAck
  · exact along_append.mpr ⟨c.regular_recoveryChanges packetAck, regular_growth ..⟩

theorem regular_windowChanges (c : Conn) (event : Event) :
    Along Regular c.window (c.windowChanges event) := by
  cases event with
  | incoming message buffer =>
    rw [windowChanges]
    split
    · unfold segmentChanges
      split
      · trivial
      · split
        · exact c.regular_duplicateChanges _
        · exact c.regular_ackChanges _
    · trivial
  | rto => exact ⟨trivial, trivial⟩
  | _ => trivial

theorem window_updateCongestionWindow (c : Conn) (peerAck : UInt32) :
    (c.updateCongestionWindow peerAck).window = c.window.applyAll (c.window.growth c.ackBytesCount
        (uint32SeqDiff peerAck c.peerAck)) := by
  change (if c.retransmit then c else _).window = c.window.applyAll (if c.retransmit then _ else _)
  split
  · rfl
  · change (if c.cwnd ≥ c.ssthresh then _ else _ : Conn).window =
      c.window.applyAll (if c.cwnd ≥ c.ssthresh then _ else _)
    split
    · change (if _ ≥ c.cwnd then _ else _ : Conn).window =
        c.window.applyAll (if _ ≥ c.cwnd then _ else _)
      split <;> rfl
    · rfl

def pacing (c : Conn) : Control × UInt32 := (c.toControl, c.emss)

variable {c : Conn}

theorem window_eq_of_pacing {other : Conn} (hsame : c.pacing = other.pacing) :
    c.window = other.window := by
  simp only [pacing, Prod.mk.injEq] at hsame
  simp only [window, hsame.1, hsame.2]

theorem pacing_retransmitMissingSegment (c : Conn) (peerAck : UInt32) :
    (c.retransmitMissingSegment peerAck).pacing = c.pacing := by
  unfold retransmitMissingSegment
  split <;> rfl

theorem window_enterFastRetransmit (c : Conn) (ourSeq packetAck : UInt32) :
    (c.enterFastRetransmit ourSeq packetAck).window =
      c.window.apply (.halve c.flightSize.load) := by
  have hsame := pacing_retransmitMissingSegment { c with
      recover := ourSeq
      transmitBlocked := true
      ssthresh := max (c.flightSize.load / 2) (2 * c.emss) } packetAck
  simp only [pacing, Prod.mk.injEq] at hsame
  rw [enterFastRetransmit, window, hsame.1, hsame.2]
  rfl

theorem window_countDuplicateAck (hretransmit : c.retransmit = false) (ourSeq packetAck : UInt32) :
    (c.countDuplicateAck ourSeq packetAck).window =
      c.window.applyAll (c.duplicateChanges packetAck) := by
  have hoff : ¬ c.retransmit = true := by simp [hretransmit]
  rw [duplicateChanges, if_neg hoff]
  unfold countDuplicateAck
  dsimp only
  split
  · rfl
  · split
    · rfl
    · exact window_enterFastRetransmit { c with dupCnt := c.dupCnt + 1 } ..

variable {packet : Packet}

theorem window_handleDuplicateAck {ourSeq : UInt32}
    (hduplicate : c.isDuplicateAck ourSeq packet = true) :
    (c.handleDuplicateAck ourSeq packet).1.window =
      c.window.applyAll (c.duplicateChanges packet.packetAck) := by
  rw [handleDuplicateAck, if_neg (by simp [hduplicate])]
  split
  · rename_i hretransmit
    rw [duplicateChanges, if_pos hretransmit]
    rfl
  · rename_i hretransmit
    exact window_countDuplicateAck (by simpa using hretransmit) ourSeq _

theorem window_doFastRetransmit (c : Conn) (packetAck : UInt32) :
    (c.doFastRetransmit packetAck).1.window = c.window.applyAll (c.recoveryChanges packetAck) := by
  have hsame := c.pacing_retransmitMissingSegment packetAck
  simp only [pacing, Prod.mk.injEq] at hsame
  unfold doFastRetransmit recoveryChanges
  split
  · rfl
  · split
    · unfold partialAck
      dsimp only
      by_cases hroom : (if uint32SeqDiff packetAck c.peerAck < c.emss then
          c.emss else uint32SeqDiff packetAck c.peerAck) < c.ssthresh
      · rw [if_pos hroom, if_pos hroom, window, hsame.1, hsame.2]
        rfl
      · rw [if_neg hroom, if_neg hroom, window, hsame.1, hsame.2]
        rfl
    · unfold exitFastRetransmit unblockTransmit
      split <;> rfl

theorem stays_doFastRetransmit (c : Conn) (packetAck : UInt32) : (c.doFastRetransmit packetAck).2 =
      (c.retransmit && isUint32SeqHigher c.recover packetAck) := by
  unfold doFastRetransmit
  cases c.retransmit <;> cases isUint32SeqHigher c.recover packetAck <;> rfl

theorem counts_doFastRetransmit {packetAck : UInt32}
    (hleaves : (c.doFastRetransmit packetAck).2 = false) :
    (c.doFastRetransmit packetAck).1.ackBytesCount = c.ackBytesCount ∧
      (c.doFastRetransmit packetAck).1.peerAck = c.peerAck := by
  unfold doFastRetransmit at hleaves ⊢
  split
  · exact ⟨rfl, rfl⟩
  · rename_i hretransmit
    rw [if_neg hretransmit] at hleaves
    split
    · rename_i hpartial
      rw [if_pos hpartial] at hleaves
      cases hleaves
    · unfold exitFastRetransmit unblockTransmit
      split <;> exact ⟨rfl, rfl⟩

theorem window_settleCongestion (c : Conn) (packetAck : UInt32) :
    (c.settleCongestion packetAck).window = c.window.applyAll (c.ackChanges packetAck) := by
  unfold settleCongestion ackChanges
  rw [← stays_doFastRetransmit]
  split
  · exact c.window_doFastRetransmit packetAck
  · rename_i hleaves
    obtain ⟨hcount, hpeerAck⟩ := counts_doFastRetransmit (by simpa using hleaves)
    rw [window_updateCongestionWindow, window_doFastRetransmit, applyAll_append, hcount, hpeerAck]

theorem pacing_serializeAck (c : Conn) (ack : UInt32) : (c.serializeAck ack).pacing = c.pacing := by
  unfold serializeAck
  split <;> rfl

theorem pacing_recoverPacket (c : Conn) (packet : Packet) (nextSeq : UInt32) :
    (c.recoverPacket packet nextSeq).1.pacing = c.pacing := by
  unfold recoverPacket
  dsimp only
  split <;> rfl

theorem pacing_recoverFromLoss (c : Conn) (startSeq : UInt32) :
    (c.recoverFromLoss startSeq).pacing = c.pacing := by
  unfold recoverFromLoss acknowledge
  rw [pacing_serializeAck]
  exact RetransmitQueue.view_rangeFrom pacing pacing_recoverPacket ..

theorem pacing_processData (c : Conn) (packet : Packet) :
    (c.processData packet).pacing = c.pacing := by
  unfold processData
  split
  · rfl
  · split
    · rfl
    · exact pacing_serializeAck ..

theorem pacing_processPayload (c : Conn) (packet : Packet) :
    ∃ recovery transmitBlocked, (c.processPayload packet).pacing =
      ({ c.toControl with
        recovery := recovery
        transmitBlocked := transmitBlocked }, c.emss) := by
  unfold processPayload
  split
  · exact ⟨c.recovery, c.transmitBlocked, rfl⟩
  · split
    · unfold processRecoveryData
      split
      · exact ⟨c.recovery, c.transmitBlocked, rfl⟩
      · have hsame := (c.deliverMissing packet).pacing_recoverFromLoss packet.nextSeq
        simp only [pacing, Prod.mk.injEq] at hsame
        unfold unblockTransmit
        split
        · exact ⟨false, c.transmitBlocked, by
            simp only [pacing, hsame.1, hsame.2]; rfl⟩
        · exact ⟨false, false, by simp only [pacing, hsame.1, hsame.2]; rfl⟩
    · exact ⟨c.recovery, c.transmitBlocked, c.pacing_processData packet⟩

theorem window_processPayload (c : Conn) (packet : Packet) :
    (c.processPayload packet).window = c.window := by
  obtain ⟨recovery, transmitBlocked, hsame⟩ := c.pacing_processPayload packet
  simp only [pacing, Prod.mk.injEq] at hsame
  simp only [window, hsame.1, hsame.2]

theorem window_processNewAck (c : Conn) (packetAck : UInt32) : (c.processNewAck packetAck).window =
      c.window.applyAll (c.ackChanges packetAck) := by
  have hsettle := window_settleCongestion { c with dupCnt := 0 } packetAck
  unfold processNewAck advancePeerAck
  split <;> exact hsettle

theorem isDuplicateAck_of_handle {ourSeq : UInt32} :
    (c.handleDuplicateAck ourSeq packet).2 = c.isDuplicateAck ourSeq packet := by
  unfold handleDuplicateAck
  cases c.isDuplicateAck ourSeq packet
  · rfl
  · cases c.retransmit <;> rfl

theorem detectLoss_eq (c : Conn) (packet : Packet) :
    ∃ recovery transmitBlocked, c.detectLoss packet =
      { c with recovery := recovery, transmitBlocked := transmitBlocked } := by
  unfold detectLoss
  split
  · exact ⟨true, true, rfl⟩
  · exact ⟨c.recovery, c.transmitBlocked, rfl⟩

theorem processSegment_of_behind (hbehind : isUint32SeqHigher c.peerSeq packet.packetSeq = true) :
    c.processSegment packet = c := by
  rw [processSegment, if_pos hbehind]

theorem processSegment_of_current (hahead : isUint32SeqHigher c.peerSeq
    packet.packetSeq = false) :
    c.processSegment packet = if c.isDuplicateAck c.seq packet then
        ((c.detectLoss packet).handleDuplicateAck c.seq packet).1
      else ((c.detectLoss packet).processNewAck packet.packetAck).processPayload packet := by
  obtain ⟨recovery, transmitBlocked, hdetect⟩ := c.detectLoss_eq packet
  have hhandle : ((c.detectLoss packet).handleDuplicateAck c.seq packet).2 =
      c.isDuplicateAck c.seq packet := by
    rw [isDuplicateAck_of_handle, hdetect]
    rfl
  have hseq : (c.detectLoss packet).seq = c.seq := by
    rw [toTransfer_detectLoss]
  rw [processSegment, if_neg (by simp [hahead])]
  dsimp only
  rw [hseq, hhandle]
  split
  · rfl
  · next hnew => rw [handleDuplicateAck_of_not (hhandle.trans (by simpa using hnew))]

theorem window_processSegment (c : Conn) (packet : Packet) : (c.processSegment packet).window =
      c.window.applyAll (c.segmentChanges packet) := by
  obtain ⟨recovery, transmitBlocked, hdetect⟩ := c.detectLoss_eq packet
  unfold segmentChanges
  split
  · rename_i hbehind
    rw [processSegment_of_behind hbehind]
    rfl
  · rename_i hahead
    rw [processSegment_of_current (by simpa using hahead), hdetect]
    split
    · rename_i hduplicate
      exact window_handleDuplicateAck hduplicate
    · rw [window_processPayload, window_processNewAck]
      rfl

theorem readLoopIncoming_of_refused (hrefused : ¬ c.Accepts packet) :
    (c.readLoopIncoming packet).pacing = c.pacing ∧
      (c.readLoopIncoming packet).peerAck = c.peerAck := by
  exact c.readLoopIncoming_cases packet ⟨rfl, rfl⟩ (fun _ => ⟨rfl, rfl⟩) ⟨rfl, rfl⟩
    fun haccepts => absurd haccepts hrefused

theorem readLoopIncoming_of_accepts (haccepts : c.Accepts packet) :
    c.readLoopIncoming packet = ({ c with recvIcmpSeq := packet.icmpSeq.toUInt32 }.processSegment
        packet).manageTimers := by
  rw [readLoopIncoming, processICMPPacket_of_accepts haccepts]

theorem window_readLoopIncoming (c : Conn) (packet : Packet) : (c.readLoopIncoming packet).window =
      c.window.applyAll (if c.Accepts packet then c.segmentChanges packet else []) := by
  split
  · rename_i haccepts
    rw [readLoopIncoming_of_accepts haccepts]
    exact window_processSegment { c with recvIcmpSeq := packet.icmpSeq.toUInt32 } packet
  · rename_i hrefused
    exact window_eq_of_pacing (readLoopIncoming_of_refused hrefused).1

theorem pacing_readLoopRto (c : Conn) : ∃ transmitBlocked, c.readLoopRto.pacing =
      ({ c.toControl with
        ssthresh := halfFlight c.emss c.flightSize.load
        cwnd := c.emss
        recover := c.seq
        retransmit := false
        transmitBlocked := transmitBlocked }, c.emss) := by
  have hsame := pacing_retransmitMissingSegment { c with
    ssthresh := max (c.flightSize.load / 2) (2 * c.emss)
    cwnd := c.emss
    rto := true } c.peerAck
  simp only [pacing, Prod.mk.injEq] at hsame
  unfold readLoopRto unblockTransmit
  dsimp only
  split
  · exact ⟨c.transmitBlocked, by rw [pacing, hsame.1, hsame.2]; rfl⟩
  · exact ⟨false, by rw [pacing, hsame.1, hsame.2]; rfl⟩

theorem window_step {after : Conn} {event : Event} (hstep : c.step event = some after) :
    after.window = c.window.applyAll (c.windowChanges event) := by
  cases taken_of_step hstep with
  | write | read | skip | send => rfl
  | @incoming message buffer => exact (c.getBuffer buffer).window_readLoopIncoming _
  | ackTimer =>
    unfold readLoopAckTimer
    split
    · rfl
    · exact window_eq_of_pacing (c.pacing_serializeAck c.ack)
  | rto =>
    obtain ⟨transmitBlocked, hsame⟩ := c.pacing_readLoopRto
    simp only [pacing, Prod.mk.injEq] at hsame
    rw [window, hsame.1, hsame.2]
    rfl

end Conn

end Pig.Icmp
