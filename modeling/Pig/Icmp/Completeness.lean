import Pig.Icmp.Ownership
import Pig.Icmp.Stream

namespace Pig.Icmp

/-! The retransmit queue holds what has been sent and not been acknowledged, as
long as the sequence number does not wrap. -/

def Packet.byteAt (packet : Packet) (offset : Nat) : Option UInt8 :=
  packet.data[(UInt32.ofNat offset - packet.packetSeq).toNat]?

def Conn.HeldOnce (c : Conn) (offset : Nat) : Prop := ∃ packet, c.rq.filter
    (fun entry => (entry.byteAt offset).isSome) = [packet] ∧ packet.byteAt offset =
    c.writeBuf.bytes[offset]? ∧ packet.buffer ∉ c.returned

def Tiles (bytes : Bytes) (start : Nat) : RetransmitQueue → Nat → Prop
  | [], stop => start = stop
  | packet :: rest, stop =>
    packet.packetSeq.toNat = start ∧ packet.data ≠ [] ∧ start + packet.data.length ≤ bytes.length ∧
      packet.data = bytes.window start packet.data.length ∧
      Tiles bytes (start + packet.data.length) rest stop

def Unsplit (queue : RetransmitQueue) (offset : Nat) : Prop := ∀ packet ∈ queue.dropLast,
    ¬ (packet.packetSeq.toNat < offset ∧ offset < packet.packetSeq.toNat + packet.data.length)

theorem Unsplit.refreshAck {queue : RetransmitQueue} {offset : Nat}
    (unsplit : Unsplit queue offset) (seq ack : UInt32) :
    Unsplit (queue.refreshAck seq ack) offset := by
  intro entry hmem
  have hfields := RetransmitQueue.map_refreshAck
    (fun packet => (packet.packetSeq, packet.data)) (fun _ _ => rfl) queue seq
  have himage := List.mem_map_of_mem (f := fun packet => (packet.packetSeq, packet.data)) hmem
  rw [List.map_dropLast, hfields, ← List.map_dropLast] at himage
  obtain ⟨packet, hpacket, heq⟩ := List.mem_map.mp himage
  simp only [Prod.mk.injEq] at heq
  rw [← heq.1, ← heq.2]
  exact unsplit packet hpacket

theorem Unsplit.resent {k after : Transfer} {offset : Nat}
    (unsplit : Unsplit k.rq offset) (resent : k.Resent after) :
    Unsplit after.rq offset := by
  cases resent with
  | nothing => exact unsplit
  | packet packet message found code data =>
    exact unsplit.refreshAck packet.packetSeq k.ack

namespace Tiles

variable {bytes more : Bytes} {start stop offset : Nat} {queue : RetransmitQueue} {packet : Packet}

section

variable (tiles : Tiles bytes start queue stop)

include tiles

theorem start_le : start ≤ stop := by
  induction queue generalizing start with
  | nil => exact Nat.le_of_eq tiles
  | cons packet rest ih =>
    have hrest := ih tiles.2.2.2.2
    omega

theorem extend (hextends : bytes <+: more) : Tiles more start queue stop := by
  obtain ⟨tail, rfl⟩ := hextends
  induction queue generalizing start with
  | nil => exact tiles
  | cons packet rest ih =>
    obtain ⟨hseq, hdata, hinside, hwindow, hrest⟩ := tiles
    refine ⟨hseq, hdata, ?_, ?_, ih hrest⟩
    · rw [List.length_append]
      omega
    · rw [Bytes.window_append_left _ _ _ _ hinside]
      exact hwindow

theorem append (hseq : packet.packetSeq.toNat = stop)
    (hdata : packet.data ≠ []) (hinside : stop + packet.data.length ≤ bytes.length)
    (hwindow : packet.data = bytes.window stop packet.data.length) :
    Tiles bytes start (queue ++ [packet]) (stop + packet.data.length) := by
  induction queue generalizing start with
  | nil =>
    cases tiles
    exact ⟨hseq, hdata, hinside, hwindow, rfl⟩
  | cons first rest ih =>
    obtain ⟨hfirst, hnonempty, hbound, hpiece, hrest⟩ := tiles
    exact ⟨hfirst, hnonempty, hbound, hpiece, ih hrest⟩

theorem getLast_lt (hlast : queue.getLast? = some packet) : packet.packetSeq.toNat < stop := by
  induction queue generalizing start with
  | nil => simp at hlast
  | cons first rest ih =>
    obtain ⟨hfirst, hnonempty, -, -, hrest⟩ := tiles
    have hpositive := List.length_pos_iff.mpr hnonempty
    cases rest with
    | nil =>
      have hstop : start + first.data.length = stop := hrest
      simp only [List.getLast?_singleton, Option.some.injEq] at hlast
      subst hlast
      omega
    | cons second others =>
      exact ih hrest hlast

theorem refreshAck (seq ack : UInt32) :
    Tiles bytes start (queue.refreshAck seq ack) stop := by
  induction queue generalizing start with
  | nil => exact tiles
  | cons first rest ih =>
    obtain ⟨hfirst, hnonempty, hbound, hpiece, hrest⟩ := tiles
    unfold RetransmitQueue.refreshAck
    split
    · exact ⟨hfirst, hnonempty, hbound, hpiece, hrest⟩
    · exact ⟨hfirst, hnonempty, hbound, hpiece, ih hrest⟩

end

theorem resent {k after : Transfer} (tiles : Tiles bytes start k.rq stop)
    (resent : k.Resent after) : Tiles bytes start after.rq stop := by
  cases resent with
  | nothing => exact tiles
  | packet packet message found code data =>
    exact tiles.refreshAck packet.packetSeq k.ack

/-- What is left from the first packet at or above an acknowledgment starts no
later than what is acknowledged, unless the acknowledgment splits a packet. -/
theorem drop_found (tiles : Tiles bytes start queue stop) {index : Nat}
    (hfound : queue.foundIdx (UInt32.ofNat offset) = some index) (hoffset : offset ≤ stop)
    (hstop : stop ≤ 2 ^ 32) (unsplit : Unsplit queue offset) :
    ∃ rest, rest ≤ max start offset ∧ Tiles bytes rest (queue.drop index) stop := by
  induction queue generalizing start index with
  | nil => simp [RetransmitQueue.foundIdx] at hfound
  | cons first others ih =>
    obtain ⟨hfirst, hnonempty, hbound, hpiece, hrest⟩ := tiles
    rw [RetransmitQueue.foundIdx, List.findIdx?_cons] at hfound
    split at hfound
    · cases hfound
      exact ⟨start, Nat.le_max_left _ _, hfirst, hnonempty, hbound, hpiece, hrest⟩
    · rename_i hbelow
      obtain ⟨next, hnext, rfl⟩ := Option.map_eq_some_iff.mp hfound
      have hothers : others ≠ [] := by
        rintro rfl
        simp at hnext
      have hsplit := unsplit first (by
        rw [List.dropLast_cons_of_ne_nil hothers]
        exact List.mem_cons_self)
      have hpast : start + first.data.length ≤ offset := by
        simp only [Bool.or_eq_true, beq_iff_eq, decide_eq_true_eq, not_or, GT.gt, UInt32.not_lt,
          UInt32.le_iff_toNat_le, ← UInt32.toNat_inj, UInt32.toNat_ofNat'] at hbelow
        omega
      obtain ⟨rest, hle, htiles⟩ := ih hrest hnext (fun packet hmem =>
        unsplit packet (by
          rw [List.dropLast_cons_of_ne_nil hothers]
          exact List.mem_cons_of_mem _ hmem))
      exact ⟨rest, by omega, htiles⟩

theorem deleteUntil (tiles : Tiles bytes start queue stop) (hoffset : offset ≤ stop)
    (hstop : stop ≤ 2 ^ 32) (unsplit : Unsplit queue offset) :
    ∃ rest, rest ≤ max start offset ∧
      Tiles bytes rest (queue.deleteUntil (UInt32.ofNat offset)).1 stop := by
  unfold RetransmitQueue.deleteUntil
  split
  · exact ⟨start, Nat.le_max_left _ _, tiles⟩
  · rename_i index hfound
    exact tiles.drop_found hfound hoffset hstop unsplit

end Tiles

namespace Packet

variable {packet : Packet} {offset : Nat}

theorem byteAt_eq (hend : packet.packetSeq.toNat + packet.data.length ≤ 2 ^ 32)
    (hoffset : offset < 2 ^ 32) :
    packet.byteAt offset = if offset < packet.packetSeq.toNat then none
      else packet.data[offset - packet.packetSeq.toNat]? := by
  have hindex : (UInt32.ofNat offset - packet.packetSeq).toNat =
      (2 ^ 32 - packet.packetSeq.toNat + offset) % 2 ^ 32 := by
    rw [UInt32.toNat_sub, UInt32.toNat_ofNat', Nat.mod_eq_of_lt hoffset]
  unfold byteAt
  split
  · rw [List.getElem?_eq_none_iff]
    omega
  · congr 1
    omega

theorem isSome_byteAt_iff (packet : Packet) (offset : Nat) (hend : packet.packetSeq.toNat +
    packet.data.length ≤ 2 ^ 32) (hoffset : offset < 2 ^ 32) :
    (packet.byteAt offset).isSome = true ↔ packet.packetSeq.toNat ≤ offset ∧
      offset < packet.packetSeq.toNat + packet.data.length := by
  rw [byteAt_eq hend hoffset]
  split
  · simp only [Option.isSome_none, Bool.false_eq_true, false_iff]
    omega
  · simp only [Option.isSome_iff_ne_none, ne_eq, List.getElem?_eq_none_iff]
    omega

end Packet

namespace Tiles

variable {bytes : Bytes} {start stop offset : Nat} {queue : RetransmitQueue}

theorem filter_eq_nil (tiles : Tiles bytes start queue stop)
    (hstop : stop ≤ 2 ^ 32) (hbefore : offset < start) :
    queue.filter (fun entry => (entry.byteAt offset).isSome) = [] := by
  induction queue generalizing start with
  | nil => rfl
  | cons first rest ih =>
    obtain ⟨hfirst, -, -, -, hrest⟩ := tiles
    have hend := hrest.start_le
    have hnot := (Packet.isSome_byteAt_iff first offset (by omega) (by omega)).not
    rw [List.filter_cons_of_neg (by rw [hnot]; omega)]
    exact ih hrest (by omega)

theorem filter_eq_singleton (tiles : Tiles bytes start queue stop) (hstop : stop ≤ 2 ^ 32)
    (hstart : start ≤ offset) (hoffset : offset < stop) :
    ∃ packet ∈ queue, queue.filter (fun entry => (entry.byteAt offset).isSome) = [packet] ∧
        packet.byteAt offset = bytes[offset]? := by
  induction queue generalizing start with
  | nil =>
    have hempty : start = stop := tiles
    omega
  | cons first rest ih =>
    obtain ⟨hfirst, -, hbound, hpiece, hrest⟩ := tiles
    have hend := hrest.start_le
    have hiff := Packet.isSome_byteAt_iff first offset (by omega) (by omega)
    by_cases hinside : offset < start + first.data.length
    · refine ⟨first, List.mem_cons_self, ?_, ?_⟩
      · rw [List.filter_cons_of_pos (by rw [hiff]; omega), hrest.filter_eq_nil hstop hinside]
      · rw [Packet.byteAt_eq (by omega) (by omega), if_neg (by omega), hfirst, hpiece, Bytes.window,
          List.getElem?_take_of_lt (by omega), List.getElem?_drop]
        congr 1
        omega
    · obtain ⟨packet, hmem, hfilter, hbyte⟩ := ih hrest (by omega)
      refine ⟨packet, List.mem_cons_of_mem _ hmem, ?_, hbyte⟩
      rw [List.filter_cons_of_neg (by rw [hiff]; omega), hfilter]

end Tiles

namespace RetransmitQueue

variable {queue : RetransmitQueue} {packet : Packet}

theorem put_above (hdata : packet.data ≠ [])
    (habove : ∀ last, queue.getLast? = some last → last.packetSeq < packet.packetSeq) :
    queue.put packet = (queue ++ [packet], []) := by
  unfold put
  rw [if_neg (by simpa using hdata)]
  split
  · rfl
  · rename_i last hlast
    rw [if_neg (by simpa using habove last hlast)]

theorem put_of_zero (hqueue : queue ≠ []) (hseq : packet.packetSeq = 0) :
    (queue.put packet).1 = queue := by
  unfold put
  split
  · rfl
  · split
    · rename_i hlast
      exact absurd (List.getLast?_eq_none_iff.mp hlast) hqueue
    · rw [if_pos (by simp [hseq])]

theorem put_ne_nil (queue : RetransmitQueue)
    (hdata : packet.data ≠ []) : (queue.put packet).1 ≠ [] := by
  unfold put
  rw [if_neg (by simpa using hdata)]
  split
  · simp
  · rename_i last hlast
    split
    · rintro rfl
      simp at hlast
    · simp

theorem deleteUntil_ne_nil (seq : UInt32)
    (hqueue : queue ≠ []) : (queue.deleteUntil seq).1 ≠ [] := by
  unfold deleteUntil
  split
  · exact hqueue
  · rename_i index hfound
    obtain ⟨hindex, -⟩ := List.findIdx?_eq_some_iff_getElem.mp hfound
    simpa using hindex

end RetransmitQueue

namespace Conn

theorem seq_transmit {c : Conn} {count : Nat} (hseq : c.seq = UInt32.ofNat c.writeBuf.readPos)
    (hinside : c.writeBuf.readPos + count ≤ c.writeBuf.bytes.length) (rawBuf : BufferId) :
    (c.transmit (c.writeBuf.next count) (c.writeBuf.advance count) rawBuf).seq =
      UInt32.ofNat (c.writeBuf.readPos + count) := by
  have hlength : (c.writeBuf.next count).length = count := Bytes.length_window _ _ _ hinside
  simp only [transmit, storeOutbound, sendEchoMessage, clearMemory,
    Packet.nextSeq, outboundPacket, hlength, hseq, UInt32.ofNat_add]

end Conn

theorem Tiles.transmit {c : Conn} {start count : Nat} (tiles : Tiles c.writeBuf.bytes start c.rq
    c.writeBuf.readPos) (hseq : c.seq = UInt32.ofNat c.writeBuf.readPos)
    (hinside : c.writeBuf.readPos + count ≤ c.writeBuf.bytes.length)
    (hsent : c.writeBuf.readPos + count ≤ 2 ^ 32) (rawBuf : BufferId) :
    Tiles c.writeBuf.bytes start (c.transmit (c.writeBuf.next count) (c.writeBuf.advance count)
      rawBuf).rq (c.writeBuf.readPos + count) := by
  let packet := c.outboundPacket (c.writeBuf.next count) rawBuf
  have hlength : packet.data.length = count := Bytes.length_window _ _ _ hinside
  change Tiles c.writeBuf.bytes start (c.rq.put packet).1 _
  by_cases hcount : count = 0
  · have hempty : packet.data.isEmpty = true :=
      List.isEmpty_iff.mpr (List.length_eq_zero_iff.mp (hlength.trans hcount))
    rw [RetransmitQueue.put, if_pos hempty, hcount]
    exact tiles
  · have hposition : packet.packetSeq.toNat = c.writeBuf.readPos := by
      change c.seq.toNat = _
      rw [hseq, UInt32.toNat_ofNat']
      omega
    have hdata : packet.data ≠ [] := by
      apply List.length_pos_iff.mp
      omega
    have hwindow : packet.data = c.writeBuf.bytes.window c.writeBuf.readPos packet.data.length := by
      rw [hlength]
      rfl
    have habove : ∀ last, c.rq.getLast? = some last → last.packetSeq < packet.packetSeq := by
      intro last hlast
      rw [UInt32.lt_iff_toNat_lt, hposition]
      exact tiles.getLast_lt hlast
    rw [RetransmitQueue.put_above hdata habove]
    have happended := tiles.append hposition hdata (by omega) hwindow
    rwa [hlength] at happended

/-- A connection that sends, with the number of bytes that the packets it has
processed acknowledge. -/
structure Sender where
  conn : Conn
  acked : Nat

def Conn.Event.sends : Event → Bool
  | .writeLoop _ => true
  | _ => false

def Conn.nextSegmentEnd (c : Conn) : Nat := c.writeBuf.readPos +
    min (c.writeBuf.bytes.length - c.writeBuf.readPos) c.emss.toNat

def Conn.takesAck (c : Conn) (message : Message) : Bool := message.icmpType == c.wantType &&
  message.code != 255 && message.id == c.icmpID && decide (eHeaderSize ≤ message.data.length) &&
  !isUint32SeqHigher c.peerSeq (getSeqAck message.data).1

theorem Conn.takesAck_iff (c : Conn) (message : Message) (buffer : BufferId) :
    c.takesAck message = true ↔ c.Accepts (Packet.unmarshal message buffer) ∧ isUint32SeqHigher
        c.peerSeq (Packet.unmarshal message buffer).packetSeq = false := by
  simp only [takesAck, Accepts, Packet.icmpType_unmarshal, Packet.icmpCode_unmarshal,
    Packet.icmpEchoID_unmarshal, Packet.icmpPayload_unmarshal, Bool.and_eq_true, beq_iff_eq,
    bne_iff_ne, decide_eq_true_eq, Bool.not_eq_true']
  constructor
  · rintro ⟨⟨⟨⟨htype, hcode⟩, hid⟩, hheader⟩, hahead⟩
    rw [Packet.packetSeq_unmarshal buffer hheader]
    exact ⟨⟨htype, hcode, hid, hheader⟩, hahead⟩
  · rintro ⟨⟨htype, hcode, hid, hheader⟩, hahead⟩
    rw [Packet.packetSeq_unmarshal buffer hheader] at hahead
    exact ⟨⟨⟨⟨htype, hcode⟩, hid⟩, hheader⟩, hahead⟩

theorem Conn.rq_readLoopIncoming (c : Conn) (message : Message) (buffer : BufferId) :
    (c.readLoopIncoming (Packet.unmarshal message buffer)).rq = c.rq ∨
    (c.takesAck message = true ∧ ∃ middle, c.toTransfer.Resent middle ∧
        ((c.readLoopIncoming (Packet.unmarshal message buffer)).rq = middle.rq ∨
          (c.readLoopIncoming (Packet.unmarshal message buffer)).rq =
            (middle.rq.deleteUntil message.packetAck).1)) := by
  refine c.readLoopIncoming_cases _ (.inl rfl) (fun _ => .inl rfl) (.inl rfl) fun haccepts => ?_
  have hheader : eHeaderSize ≤ message.data.length := by
    rw [← Packet.icmpPayload_unmarshal message buffer]
    exact haccepts.2.2.2
  rcases rq_processSegment { c with
      recvIcmpSeq := (Packet.unmarshal message buffer).icmpSeq.toUInt32 }
    (Packet.unmarshal message buffer) with hsame | ⟨hahead, hresent⟩
  · exact .inl hsame
  · rw [Packet.packetAck_unmarshal buffer hheader] at hresent
    exact .inr ⟨(c.takesAck_iff message buffer).mpr ⟨haccepts, hahead⟩, hresent⟩

namespace Sender

def start (emss : UInt32) (isServer : Bool) (icmpID : UInt16) : Sender where
  conn := newConnection emss isServer icmpID
  acked := 0

/-- An event together with the offset in the stream that the acknowledgment
number of a received message stands for. -/
structure Event where
  event : Conn.Event
  offset : Nat := 0

def acknowledged (s : Sender) (e : Event) : Nat :=
  match e.event.received with
  | none => s.acked
  | some message =>
    if s.conn.takesAck message then max s.acked e.offset else s.acked

def step (s : Sender) (e : Event) : Option Sender := (s.conn.step e.event).map fun conn =>
    { conn := conn, acked := s.acknowledged e }

/-- Acknowledgment numbers are those of offsets that have been sent. -/
def Honest (s : Sender) (e : Event) : Prop :=
  ∀ message ∈ e.event.received, eHeaderSize ≤ message.data.length →
    message.packetAck = UInt32.ofNat e.offset ∧ e.offset ≤ s.conn.writeBuf.readPos

def Complete (s : Sender) : Prop := ∀ offset, s.acked ≤ offset → offset < s.conn.writeBuf.readPos →
    s.conn.HeldOnce offset

def Unwrapped (s : Sender) (e : Event) : Prop :=
  e.event.sends = true → s.conn.nextSegmentEnd ≤ 2 ^ 32

/-- The acknowledgment does not split a packet of the queue that another packet
follows. -/
def Aligned (s : Sender) (e : Event) : Prop :=
  ∀ message ∈ e.event.received, s.conn.takesAck message = true → Unsplit s.conn.rq e.offset

def FewOutstanding (s : Sender) (e : Event) : Prop :=
  ∀ after ∈ s.step e, after.conn.writeBuf.readPos < after.acked + 2 ^ 31

instance (s : Sender) (e : Event) : Decidable (s.Honest e) :=
  inferInstanceAs (Decidable (∀ _ ∈ _, _ → _))

instance (s : Sender) (e : Event) : Decidable (s.Unwrapped e) := inferInstanceAs (Decidable (_ → _))

instance (s : Sender) (e : Event) : Decidable (s.Aligned e) :=
  inferInstanceAs (Decidable (∀ _ ∈ _, _ → ∀ _ ∈ _, _))

structure Covered (s : Sender) : Prop where
  owned : s.conn.toTransfer.Owned
  readPos_le : s.conn.writeBuf.readPos ≤ s.conn.writeBuf.bytes.length
  seq_eq : s.conn.seq = UInt32.ofNat s.conn.writeBuf.readPos
  sent_le : s.conn.writeBuf.readPos ≤ 2 ^ 32
  tiles : ∃ first ≤ s.acked, Tiles s.conn.writeBuf.bytes first s.conn.rq s.conn.writeBuf.readPos

theorem Covered.complete {s : Sender} (covered : s.Covered) : s.Complete := by
  intro offset hacked hsent
  obtain ⟨first, hfirst, htiles⟩ := covered.tiles
  obtain ⟨packet, hmem, hfilter, hbyte⟩ :=
    htiles.filter_eq_singleton covered.sent_le (by omega) hsent
  exact ⟨packet, hfilter, hbyte, Conn.not_mem_returned covered.owned hmem⟩

theorem covered_start (emss : UInt32) (isServer : Bool) (icmpID : UInt16) :
    (start emss isServer icmpID).Covered where
  owned _ := Nat.zero_le 1
  readPos_le := Nat.le_refl 0
  seq_eq := rfl
  sent_le := Nat.zero_le _
  tiles := ⟨0, Nat.le_refl 0, rfl⟩

theorem acked_le_acknowledged (s : Sender) (e : Event) : s.acked ≤ s.acknowledged e := by
  unfold acknowledged
  split
  · exact Nat.le_refl _
  · split
    · exact Nat.le_max_left _ _
    · exact Nat.le_refl _

theorem acknowledged_incoming (s : Sender) (message : Message) (buffer : BufferId) (offset : Nat) :
    s.acknowledged ⟨.incoming message buffer, offset⟩ =
      if s.conn.takesAck message then max s.acked offset else s.acked :=
  rfl

theorem covered_incoming {s : Sender} {message : Message} {buffer : BufferId} {offset : Nat}
    (covered : s.Covered) (honest : s.Honest ⟨.incoming message buffer, offset⟩)
    (aligned : s.Aligned ⟨.incoming message buffer, offset⟩) :
    ∃ first ≤ s.acknowledged ⟨.incoming message buffer, offset⟩, Tiles s.conn.writeBuf.bytes first
        ((s.conn.getBuffer buffer).readLoopIncoming (Packet.unmarshal message buffer)).rq
        s.conn.writeBuf.readPos := by
  obtain ⟨first, hfirst, htiles⟩ := covered.tiles
  have hgrows := s.acked_le_acknowledged ⟨.incoming message buffer, offset⟩
  rcases (s.conn.getBuffer buffer).rq_readLoopIncoming message buffer with
    hsame | ⟨htakes, middle, hresent, hrq⟩
  · rw [hsame]
    exact ⟨first, Nat.le_trans hfirst hgrows, htiles⟩
  · have hmiddle := Tiles.resent (k := (s.conn.getBuffer buffer).toTransfer) htiles hresent
    have hunsplit := Unsplit.resent (k := (s.conn.getBuffer buffer).toTransfer)
      (aligned message rfl htakes) hresent
    rcases hrq with hrq | hrq
    · rw [hrq]
      exact ⟨first, Nat.le_trans hfirst hgrows, hmiddle⟩
    · have hheader : eHeaderSize ≤ message.data.length := by
        simp only [Conn.takesAck, Bool.and_eq_true, decide_eq_true_eq] at htakes
        exact htakes.1.2
      obtain ⟨hack, hoffset⟩ := honest message rfl hheader
      rw [hrq, hack]
      obtain ⟨rest, hrest, hleft⟩ := hmiddle.deleteUntil hoffset covered.sent_le hunsplit
      refine ⟨rest, ?_, hleft⟩
      have hacknowledged : s.acknowledged ⟨.incoming message buffer, offset⟩ =
          max s.acked offset := by
        exact if_pos htakes
      dsimp only at hrest
      omega

theorem Covered.keep {s after : Sender} (covered : s.Covered) (howned : after.conn.toTransfer.Owned)
    (hbytes : after.conn.writeBuf.bytes = s.conn.writeBuf.bytes) (hreadPos :
    after.conn.writeBuf.readPos = s.conn.writeBuf.readPos) (hseq : after.conn.seq = s.conn.seq)
    (htiles : ∃ first ≤ after.acked, Tiles s.conn.writeBuf.bytes first
      after.conn.rq s.conn.writeBuf.readPos) : after.Covered where
  owned := howned
  readPos_le := by
    rw [hbytes, hreadPos]
    exact covered.readPos_le
  seq_eq := by
    rw [hseq, hreadPos]
    exact covered.seq_eq
  sent_le := hreadPos ▸ covered.sent_le
  tiles := by
    rw [hbytes, hreadPos]
    exact htiles

theorem covered_step {s after : Sender} {e : Event} (covered : s.Covered)
    (honest : s.Honest e) (unwrapped : s.Unwrapped e) (aligned : s.Aligned e)
    (hstep : s.step e = some after) : after.Covered := by
  have hsent := covered.sent_le
  obtain ⟨conn, hconn, rfl⟩ := Option.map_eq_some_iff.mp hstep
  have howned := Conn.owned_step covered.owned hconn
  obtain ⟨first, hfirst, htiles⟩ := covered.tiles
  obtain ⟨event, offset⟩ := e
  cases Conn.taken_of_step hconn with
  | write hwrite =>
    have hgrown := Buffer.write_ok hwrite
    refine ⟨howned, ?_, ?_, hgrown.1 ▸ hsent, first, hfirst, ?_⟩
    · have hle := covered.readPos_le
      have hlength := hgrown.2.length_le
      simp only [hgrown.1]
      omega
    · simp only [hgrown.1]
      exact covered.seq_eq
    · simp only [hgrown.1]
      exact htiles.extend hgrown.2
  | read | skip => exact covered.keep howned rfl rfl rfl ⟨first, hfirst, htiles⟩
  | @send rawBuf data writeBuf available hread =>
    obtain ⟨count, hcount, hinside, rfl, rfl⟩ := Buffer.read_ok hread covered.readPos_le
    have hsent : s.conn.writeBuf.readPos + count ≤ 2 ^ 32 := by
      have hend := unwrapped rfl
      simp only [Conn.nextSegmentEnd] at hend
      omega
    refine ⟨howned, hinside, ?_, hsent, first, hfirst, ?_⟩
    · exact Conn.seq_transmit (c := s.conn.getBuffer rawBuf) covered.seq_eq hinside rawBuf
    · exact htiles.transmit (c := s.conn.getBuffer rawBuf) covered.seq_eq hinside hsent rawBuf
  | @incoming message buffer =>
    obtain ⟨hbytes, hreadPos, hseq⟩ := (s.conn.getBuffer buffer).sent_readLoopIncoming
        (Packet.unmarshal message buffer)
    exact covered.keep howned hbytes hreadPos hseq (covered_incoming covered honest aligned)
  | ackTimer =>
    have hsame := s.conn.toOutgoing_readLoopAckTimer
    refine covered.keep howned ?_ ?_ ?_ ⟨first, hfirst, ?_⟩
    · rw [hsame]
    · rw [hsame]
    · rw [hsame]
    · rw [hsame]
      exact htiles
  | rto =>
    have hresent := s.conn.readLoopRto_resent
    exact covered.keep howned (congrArg Buffer.bytes hresent.writeBuf_eq)
      (congrArg Buffer.readPos hresent.writeBuf_eq) hresent.seq_eq
      ⟨first, hfirst, htiles.resent hresent⟩

/-- As long as the stream stays within the sequence space and acknowledgments do
not split packets, every byte sent and not acknowledged is held. -/
theorem complete_of_run {emss : UInt32} {isServer : Bool} {icmpID : UInt16} {events : List Event}
    {s : Sender} (run : Run step (fun s e => s.Honest e ∧ s.Unwrapped e ∧ s.Aligned e)
    (start emss isServer icmpID) events s) :
    s.Complete :=
  (run.invariant Covered (covered_start emss isServer icmpID)
    fun _ _ _ covered permitted taken => covered_step covered permitted.1
      permitted.2.1 permitted.2.2 taken).complete

def acknowledgedOnce : List Event := [{ event := .write [1, 2, 3, 4, 5, 6] },
    { event := .writeLoop 0 }, { event := .writeLoop 1 },
    { event := .incoming {
        icmpType := icmpTypeEchoReply
        code := 0
        id := 7
        seq := 0
        data := putUint32 0 ++ putUint32 4 } 2
      offset := 4 }]

theorem complete_of_run_acknowledgedOnce :
    ∃ s, Run step (fun s e => s.Honest e ∧ s.Unwrapped e ∧ s.Aligned e) (start 4 false 7)
      acknowledgedOnce s ∧ s.acked = 4 ∧ s.conn.writeBuf.readPos = 6 ∧ s.Complete :=
  Run.exists_of_exec_imp (fun s => s.acked = 4 ∧ s.conn.writeBuf.readPos = 6) (by decide +kernel)
    fun _ run ⟨hacked, hsent⟩ => ⟨hacked, hsent, complete_of_run run⟩

/-! A stream longer than the sequence space.  Every segment of 1024 bytes is
acknowledged before the next one is sent; the first segment after the wrap is
not stored, because its sequence number is not above that of the last packet. -/

structure Steady (rounds : Nat) (s : Sender) : Prop where
  closed : s.conn.closed = false
  writeBuf_open : s.conn.writeBuf.closed = false
  emss : s.conn.emss = 1464
  wantType : s.conn.wantType = icmpTypeEchoReply
  icmpID : s.conn.icmpID = 7
  retransmit : s.conn.retransmit = false
  peerSeq : s.conn.peerSeq = 0
  written : s.conn.writeBuf.bytes.length = rounds * 1024
  sent : s.conn.writeBuf.readPos = rounds * 1024
  acked : s.acked = rounds * 1024
  seq : s.conn.seq = UInt32.ofNat (rounds * 1024)
  behind : isUint32SeqHigher (UInt32.ofNat ((rounds + 1) * 1024)) s.conn.peerAck = true
  fresh : ∀ buffer ∈ s.conn.held, buffer < 2 * rounds
  blank : ∀ packet ∈ s.conn.rq, ∀ byte ∈ packet.data, byte = 0
  stored : 0 < rounds → s.conn.rq ≠ []

def ackMessage (rounds : Nat) : Message where
  icmpType := icmpTypeEchoReply
  code := 0
  id := 7
  seq := 0
  data := putUint32 0 ++ putUint32 (UInt32.ofNat (rounds * 1024))

def zeros : Bytes := List.replicate 1024 0

theorem length_zeros : zeros.length = 1024 := List.length_replicate

def ackEvent (rounds : Nat) : Event where
  event := .incoming (ackMessage (rounds + 1)) (2 * rounds + 1)
  offset := (rounds + 1) * 1024

def round (rounds : Nat) : List Event :=
  [{ event := .write zeros }, { event := .writeLoop (2 * rounds) }, ackEvent rounds]

def sendNow (s : Sender) (data : Bytes) (rawBuf : BufferId) : Sender :=
  let written := { s.conn.writeBuf with
    bytes := s.conn.writeBuf.bytes ++ data }
  { s with
    conn := ({ s.conn with writeBuf := written }.getBuffer rawBuf).transmit data
      (written.advance data.length) rawBuf }

theorem frame_sendNow (s : Sender) (data : Bytes) (rawBuf taken : BufferId) :
    let sent := (s.sendNow data rawBuf).conn.getBuffer taken
    sent.peerSeq = s.conn.peerSeq ∧ sent.peerAck = s.conn.peerAck ∧ sent.retransmit =
      s.conn.retransmit ∧ sent.recovery = s.conn.recovery ∧ sent.emss = s.conn.emss ∧ sent.wantType
      = s.conn.wantType ∧ sent.icmpID = s.conn.icmpID :=
  ⟨rfl, rfl, rfl, rfl, rfl, rfl, rfl⟩

variable {rounds : Nat} {s : Sender}

theorem Steady.sendNow_run (steady : s.Steady rounds) (data : Bytes)
    (hdata : data ≠ []) (hfits : data.length ≤ 1464) :
    Run step (fun s e => s.Honest e ∧ s.FewOutstanding e) s [{ event := .write data },
      { event := .writeLoop (2 * rounds) }] (s.sendNow data (2 * rounds)) := by
  let written := { s.conn.writeBuf with
    bytes := s.conn.writeBuf.bytes ++ data }
  let wrote : Sender := { s with conn := { s.conn with writeBuf := written } }
  have hwrite : s.step { event := .write data } = some wrote := by
    simp [step, Conn.step, steady.closed, Buffer.write_of_open steady.writeBuf_open,
      Except.toOption, wrote, written, acknowledged, Conn.Event.received]
  have hread : written.read s.conn.emss.toNat = some (.ok (data, written.advance data.length)) := by
    have hcount : min ((s.conn.writeBuf.bytes ++ data).length -
        s.conn.writeBuf.readPos) s.conn.emss.toNat = data.length := by
      rw [steady.emss, List.length_append, steady.written, steady.sent]
      change min _ 1464 = _
      omega
    have hnext : written.next data.length = data := by
      simp [Buffer.next, Bytes.window, written, steady.sent, ← steady.written]
    unfold Buffer.read
    rw [if_neg (by rw [steady.emss]; decide), if_neg (by simp [written, steady.writeBuf_open]),
      if_neg (by simp [written, steady.sent, steady.written, hdata])]
    dsimp only
    rw [hcount, hnext]
  have hsend : wrote.step { event := .writeLoop (2 * rounds) } =
      some (s.sendNow data (2 * rounds)) := by
    have havailable : wrote.conn.Available (2 * rounds) := fun hheld =>
      absurd (steady.fresh _ hheld) (Nat.lt_irrefl _)
    rw [step, Conn.step_writeLoop (c := wrote.conn) steady.closed havailable hread]
    rfl
  have hwrote : s.FewOutstanding { event := .write data } := by
    intro after hafter
    cases hwrite.symm.trans hafter
    rw [steady.sent, steady.acked]
    omega
  have hsent : wrote.FewOutstanding { event := .writeLoop (2 * rounds) } := by
    intro after hafter
    cases hsend.symm.trans hafter
    change s.conn.writeBuf.readPos + data.length < s.acked + _
    rw [steady.sent, steady.acked]
    omega
  exact (Run.one ⟨fun _ hmem => (by cases hmem), hwrote⟩ hwrite).append
    (Run.one ⟨fun _ hmem => (by cases hmem), hsent⟩ hsend)

theorem mem_sendNow_rq {data : Bytes} {rawBuf : BufferId} {packet : Packet}
    (hmem : packet ∈ (s.sendNow data rawBuf).conn.rq) :
    packet ∈ s.conn.rq ∨ packet.data = data ∧ packet.buffer = rawBuf := by
  rcases RetransmitQueue.mem_of_mem_put hmem with hold | rfl
  · exact .inl hold
  · exact .inr ⟨rfl, rfl⟩

theorem Steady.held_sendNow (steady : s.Steady rounds) (data : Bytes) :
    ∀ buffer ∈ (s.sendNow data (2 * rounds)).conn.held, buffer < 2 * rounds + 1 := by
  intro buffer hheld
  obtain ⟨packet, hmem, rfl⟩ := List.mem_map.mp hheld
  rcases List.mem_append.mp hmem with hrq | hooq
  · rcases mem_sendNow_rq hrq with hold | ⟨-, hbuffer⟩
    · exact Nat.lt_succ_of_lt (steady.fresh packet.buffer
        (List.mem_map_of_mem (List.mem_append_left _ hold)))
    · exact Nat.lt_succ_of_le (Nat.le_of_eq hbuffer)
  · exact Nat.lt_succ_of_lt (steady.fresh packet.buffer
      (List.mem_map_of_mem (List.mem_append_right _ hooq)))

def ackPacket (rounds : Nat) : Packet := Packet.unmarshal (ackMessage (rounds + 1)) (2 * rounds + 1)

theorem header_ackMessage (rounds : Nat) : eHeaderSize ≤ (ackMessage rounds).data.length := by
  simp [ackMessage, eHeaderSize]

theorem getSeqAck_ackMessage (rounds : Nat) : getSeqAck (ackMessage rounds).data =
      (0, UInt32.ofNat (rounds * 1024)) := by
  have hnumbers := getSeqAck_header 0 (UInt32.ofNat (rounds * 1024)) []
  rwa [List.append_nil] at hnumbers

theorem packetSeq_ackPacket (rounds : Nat) : (ackPacket rounds).packetSeq = 0 := by
  rw [ackPacket, Packet.packetSeq_unmarshal _ (header_ackMessage _), getSeqAck_ackMessage]

theorem packetAck_ackPacket (rounds : Nat) :
    (ackPacket rounds).packetAck = UInt32.ofNat ((rounds + 1) * 1024) := by
  rw [ackPacket, Packet.packetAck_unmarshal _ (header_ackMessage _), getSeqAck_ackMessage]

theorem data_ackPacket (rounds : Nat) : (ackPacket rounds).data = [] := by
  exact List.drop_eq_nil_of_le (by simp [ackMessage, eHeaderSize])

def awaiting (s : Sender) (rounds : Nat) : Conn :=
  (s.sendNow zeros (2 * rounds)).conn.getBuffer (2 * rounds + 1)

def nextRound (s : Sender) (rounds : Nat) : Sender where
  conn := (s.awaiting rounds).readLoopIncoming (ackPacket rounds)
  acked := (rounds + 1) * 1024

section

variable (steady : s.Steady rounds)

include steady

theorem Steady.accepts_ackPacket :
    (s.awaiting rounds).Accepts (ackPacket rounds) := by
  refine ⟨?_, ?_, ?_, ?_⟩
  · exact steady.wantType.symm
  · exact (by decide : (0 : UInt8) ≠ 255)
  · exact steady.icmpID.symm
  · exact header_ackMessage _

theorem Steady.conn_nextRound : (s.nextRound rounds).conn.toTransfer =
      (s.awaiting rounds).toTransfer.trim (UInt32.ofNat ((rounds + 1) * 1024)) ∧
      (s.nextRound rounds).conn.retransmit = false ∧ (s.nextRound rounds).conn.recovery =
      s.conn.recovery ∧ (s.nextRound rounds).conn.emss = s.conn.emss ∧
      (s.nextRound rounds).conn.wantType = s.conn.wantType ∧ (s.nextRound rounds).conn.icmpID =
      s.conn.icmpID := by
  have hack := packetAck_ackPacket rounds
  obtain ⟨hpeerSeq, hpeerAck, hretransmit, hrecovery, hsettings⟩ :=
    s.frame_sendNow zeros (2 * rounds) (2 * rounds + 1)
  rw [← awaiting] at hpeerSeq hpeerAck hretransmit hrecovery hsettings
  have hresult := Conn.readLoopIncoming_ack steady.accepts_ackPacket
    ((packetSeq_ackPacket rounds).trans (hpeerSeq.trans steady.peerSeq).symm)
    (data_ackPacket rounds) (hretransmit.trans steady.retransmit)
    (by rw [hack, hpeerAck]; exact steady.behind)
  rw [hack, hrecovery, hsettings.1, hsettings.2.1, hsettings.2.2] at hresult
  exact hresult

theorem Steady.peerAck_nextRound : (s.nextRound rounds).conn.peerAck =
      UInt32.ofNat ((rounds + 1) * 1024) := by
  rw [steady.conn_nextRound.1, Transfer.peerAck_trim]

theorem Steady.steady_nextRound : (s.nextRound rounds).Steady (rounds + 1) := by
  obtain ⟨htransfer, hretransmit, -, hemss, hwantType, hicmpID⟩ := steady.conn_nextRound
  rw [awaiting] at htransfer
  exact {
    closed := by rw [htransfer]; exact steady.closed
    writeBuf_open := by rw [htransfer]; exact steady.writeBuf_open
    emss := hemss.trans steady.emss
    wantType := hwantType.trans steady.wantType
    icmpID := hicmpID.trans steady.icmpID
    retransmit := hretransmit
    peerSeq := by rw [htransfer]; exact steady.peerSeq
    written := by
      rw [htransfer]
      change (s.conn.writeBuf.bytes ++ zeros).length = _
      rw [List.length_append, steady.written, length_zeros]
      omega
    sent := by
      rw [htransfer]
      change s.conn.writeBuf.readPos + zeros.length = _
      rw [steady.sent, length_zeros]
      omega
    acked := rfl
    seq := by
      rw [htransfer]
      change s.conn.seq + UInt32.ofNat zeros.length = _
      have hnext : (rounds + 1) * 1024 = rounds * 1024 + 1024 := by omega
      rw [steady.seq, length_zeros, hnext, UInt32.ofNat_add]
    behind := by
      rw [htransfer]
      rw [Transfer.peerAck_trim, isUint32SeqHigher_ofNat_iff (by omega) (by omega)]
      omega
    fresh := by
      intro buffer hheld
      obtain ⟨packet, hmem, rfl⟩ := List.mem_map.mp hheld
      rw [htransfer] at hmem
      have hbefore := steady.held_sendNow zeros packet.buffer
      rcases List.mem_append.mp hmem with hrq | hooq
      · exact Nat.lt_succ_of_lt (hbefore (List.mem_map_of_mem
          (List.mem_append_left _ (RetransmitQueue.mem_of_mem_deleteUntil hrq))))
      · exact Nat.lt_succ_of_lt (hbefore (List.mem_map_of_mem (List.mem_append_right _ hooq)))
    blank := by
      intro packet hmem byte hbyte
      rw [htransfer] at hmem
      rcases mem_sendNow_rq (RetransmitQueue.mem_of_mem_deleteUntil hmem) with
        hold | ⟨hdata, -⟩
      · exact steady.blank packet hold byte hbyte
      · rw [hdata] at hbyte
        exact List.eq_of_mem_replicate hbyte
    stored := by
      intro _
      rw [htransfer]
      exact RetransmitQueue.deleteUntil_ne_nil _ (RetransmitQueue.put_ne_nil _ (by
          exact List.ne_nil_of_length_eq_add_one length_zeros)) }

theorem Steady.step_ackEvent :
    (s.sendNow zeros (2 * rounds)).step (ackEvent rounds) = some (s.nextRound rounds) := by
  let sent := s.sendNow zeros (2 * rounds)
  have havailable : sent.conn.Available (2 * rounds + 1) := fun hheld =>
    absurd (steady.held_sendNow zeros _ hheld) (Nat.lt_irrefl _)
  have hacked : sent.acknowledged (ackEvent rounds) = (rounds + 1) * 1024 := by
    have htakes : sent.conn.takesAck (ackMessage (rounds + 1)) = true := by
      refine (Conn.takesAck_iff _ _ (2 * rounds + 1)).mpr ⟨steady.accepts_ackPacket, ?_⟩
      change isUint32SeqHigher s.conn.peerSeq (ackPacket rounds).packetSeq = false
      rw [steady.peerSeq, packetSeq_ackPacket]
      decide
    have hbefore : sent.acked = rounds * 1024 := steady.acked
    rw [ackEvent, acknowledged_incoming, if_pos htakes, hbefore]
    omega
  have hconn : sent.conn.step (ackEvent rounds).event = some (s.nextRound rounds).conn :=
    Conn.step_incoming _ steady.closed havailable
  change (sent.conn.step _).map _ = _
  rw [hconn, Option.map_some, hacked]
  rfl

theorem Steady.round_run :
    Run step (fun s e => s.Honest e ∧ s.FewOutstanding e) s (round rounds) (s.nextRound rounds) ∧
      (s.nextRound rounds).Steady (rounds + 1) := by
  have hsend := steady.sendNow_run zeros (List.ne_nil_of_length_eq_add_one length_zeros)
    (by rw [length_zeros]; decide)
  have hsteady := steady.steady_nextRound
  refine ⟨hsend.append (Run.one ⟨?_, ?_⟩ steady.step_ackEvent), hsteady⟩
  · intro message hmem _
    cases hmem
    refine ⟨congrArg Prod.snd (getSeqAck_ackMessage _), ?_⟩
    change (rounds + 1) * 1024 ≤ s.conn.writeBuf.readPos + zeros.length
    rw [steady.sent, length_zeros]
    omega
  · intro after hafter
    cases steady.step_ackEvent.symm.trans hafter
    rw [hsteady.sent, hsteady.acked]
    omega

end

theorem steady_start : (start 1464 false 7).Steady 0 where
  closed := rfl
  writeBuf_open := rfl
  emss := rfl
  wantType := rfl
  icmpID := rfl
  retransmit := rfl
  peerSeq := rfl
  written := rfl
  sent := rfl
  acked := rfl
  seq := rfl
  behind := by decide
  fresh := fun _ hmem => absurd hmem List.not_mem_nil
  blank := fun _ hmem => absurd hmem List.not_mem_nil
  stored := fun hpositive => absurd hpositive (Nat.lt_irrefl 0)

theorem Steady.rounds_run (steady : s.Steady rounds) (property : Nat → Sender → Prop)
    (hfirst : property rounds s) (hnext : ∀ rounds s, s.Steady rounds → property rounds s → property
    (rounds + 1) (s.nextRound rounds)) (count : Nat) :
    ∃ events last, Run step (fun s e => s.Honest e ∧ s.FewOutstanding e) s events last ∧ last.Steady
      (rounds + count) ∧ property (rounds + count) last := by
  induction count with
  | zero => exact ⟨[], s, .start _, steady, hfirst⟩
  | succ count ih =>
    obtain ⟨events, last, run, hsteady, hproperty⟩ := ih
    obtain ⟨hround, hafter⟩ := hsteady.round_run
    exact ⟨_, _, run.append hround, hafter, hnext _ _ hsteady hproperty⟩

theorem Steady.not_complete_sendNow (steady : s.Steady 4194304) :
    ¬ (s.sendNow [1] 8388608).Complete := by
  intro complete
  have hseq : s.conn.seq = 0 := steady.seq
  have hrejected : (s.sendNow [1] 8388608).conn.rq = s.conn.rq :=
    RetransmitQueue.put_of_zero (steady.stored (by decide)) hseq
  have hsent : (s.sendNow [1] 8388608).conn.writeBuf.readPos = 4294967297 := by
    change s.conn.writeBuf.readPos + 1 = _
    rw [steady.sent]
  have hbyte : (s.sendNow [1] 8388608).conn.writeBuf.bytes[4294967296]? = some 1 := by
    change (s.conn.writeBuf.bytes ++ [1])[4294967296]? = _
    have hlength : s.conn.writeBuf.bytes.length = 4294967296 := steady.written
    rw [← hlength, List.getElem?_concat_length]
  obtain ⟨packet, hfilter, hvalue, -⟩ := complete 4294967296
    (Nat.le_of_eq steady.acked) (by rw [hsent]; decide)
  have hmem : packet ∈ s.conn.rq := by
    rw [← hrejected]
    exact List.mem_of_mem_filter (hfilter ▸ List.mem_singleton_self packet)
  rw [hbyte] at hvalue
  have hzero := steady.blank packet hmem 1 (List.mem_of_getElem? hvalue)
  exact absurd hzero (by decide)

/-- After 4 GiB sent and acknowledged segment by segment, one further byte is
sent and not stored. -/
theorem exists_not_complete : ∃ events s, Run step (fun s e => s.Honest e ∧ s.FewOutstanding e)
      (start 1464 false 7) events s ∧ ¬ s.Complete := by
  obtain ⟨events, s, run, steady, -⟩ := steady_start.rounds_run
    (fun _ _ => True) trivial (fun _ _ _ _ => trivial) 4194304
  have hsend := steady.sendNow_run [1] (by decide) (by decide)
  exact ⟨_, _, run.append hsend, steady.not_complete_sendNow⟩

end Sender

end Pig.Icmp
