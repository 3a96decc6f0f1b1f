import Pig.Icmp.Transfer

namespace Pig.Icmp

/-! Segments of a byte stream, and what the data of one endpoint says about the
stream it sends and the stream it receives. -/

def Segment (stream : Bytes) (seq : UInt32) (data : Bytes) : Prop :=
  seq.toNat + data.length ≤ stream.length ∧ stream.window seq.toNat data.length = data

namespace Segment

variable {stream longer bytes data : Bytes} {seq : UInt32}

theorem extend (segment : Segment stream seq data)
    (hextends : stream <+: longer) : Segment longer seq data := by
  obtain ⟨more, rfl⟩ := hextends
  refine ⟨?_, ?_⟩
  · have hinside := segment.1
    rw [List.length_append]
    omega
  · rw [Bytes.window_append_left _ _ _ _ segment.1]
    exact segment.2

theorem nil (hinside : seq.toNat ≤ stream.length) : Segment stream seq [] :=
  ⟨by simpa using hinside, by simp [Bytes.window]⟩

theorem append_right (hseq : seq.toNat = bytes.length) : Segment (bytes ++ data) seq data :=
  ⟨by rw [hseq, List.length_append], by simp [Bytes.window, hseq]⟩

theorem deliver (segment : Segment stream seq data)
    (hdelivered : bytes <+: stream) (hnext : seq.toNat = bytes.length) :
    bytes ++ data <+: stream := by
  have hbytes : stream.take bytes.length = bytes := (List.prefix_iff_eq_take.mp hdelivered).symm
  have hjoin := Bytes.take_append_window stream bytes.length data.length
  rw [hbytes, ← hnext, segment.2] at hjoin
  rw [hjoin]
  exact List.take_prefix _ _

theorem toNat_next (segment : Segment stream seq data) (hshort : stream.length < 2 ^ 31) :
    (seq + UInt32.ofNat data.length).toNat = seq.toNat + data.length := by
  have hinside := segment.1
  rw [UInt32.toNat_add, UInt32.toNat_ofNat']
  omega

end Segment

def Message.Carries (message : Message) (stream : Bytes) : Prop := message.code = 0 ∧ eHeaderSize ≤
  message.data.length ∧ Segment stream (getSeqAck message.data).1 (message.data.drop eHeaderSize)

def Message.packetAck (message : Message) : UInt32 := (getSeqAck message.data).2

namespace Message

variable {message : Message} {seq ack : UInt32} {stream longer data : Bytes}

theorem carries_of_header (hcode : message.code = 0) (hdata : message.data = putUint32 seq ++
    putUint32 ack ++ data) (segment : Segment stream seq data) : message.Carries stream := by
  refine ⟨hcode, ?_, ?_⟩
  · simp only [hdata, eHeaderSize, List.length_append, length_putUint32]
    omega
  · have hdrop : (putUint32 seq ++ putUint32 ack ++ data).drop eHeaderSize =
        data := List.drop_left' (by simp [eHeaderSize])
    rw [hdata, getSeqAck_header, hdrop]
    exact segment

theorem packetAck_of_header (seq : UInt32) (data : Bytes)
    (hdata : message.data = putUint32 seq ++ putUint32 ack ++ data) :
    message.packetAck = ack := by
  rw [packetAck, hdata, getSeqAck_header]

theorem Carries.extend (carries : message.Carries stream) (hextends : stream <+: longer) :
  message.Carries longer := ⟨carries.1, carries.2.1, carries.2.2.extend hextends⟩

theorem Carries.unmarshal (carries : message.Carries stream) (buffer : BufferId) :
    Segment stream (Packet.unmarshal message buffer).packetSeq
      (Packet.unmarshal message buffer).data := by
  rw [Packet.packetSeq_unmarshal buffer carries.2.1, Packet.data_unmarshal buffer carries.2.1]
  exact carries.2.2

end Message

def Packet.Stored (packet : Packet) (stream : Bytes) : Prop := packet.icmpPayload =
      putUint32 packet.packetSeq ++ putUint32 packet.packetAck ++ packet.data ∧
    Segment stream packet.packetSeq packet.data

namespace Packet

variable {packet : Packet} {stream longer : Bytes}

theorem Stored.extend (stored : packet.Stored stream) (hextends : stream <+: longer) : packet.Stored
  longer := ⟨stored.1, stored.2.extend hextends⟩

theorem Stored.refreshAck (stored : packet.Stored stream) (ack : UInt32) :
    (packet.refreshAck ack).Stored stream := by
  refine ⟨?_, stored.2⟩
  have htake : packet.icmpPayload.take 4 = putUint32 packet.packetSeq := by
    rw [stored.1, List.append_assoc]
    exact List.take_left' (length_putUint32 _)
  have hdrop : packet.icmpPayload.drop 8 = packet.data := by
    rw [stored.1]
    exact List.drop_left' (by simp)
  simp [Packet.refreshAck, htake, hdrop]

end Packet

/-- What the data of an endpoint says about the stream it sends, which is what
has been taken from its write buffer, and about the stream it receives. -/
structure Endpoint (stream : Bytes) (k : Transfer) : Prop where
  readPos_le : k.writeBuf.readPos ≤ k.writeBuf.bytes.length
  seq_eq : k.seq = UInt32.ofNat k.writeBuf.readPos
  stored : ∀ packet ∈ k.rq, packet.Stored k.writeBuf.taken
  sent : ∀ message ∈ k.outbox, message.Carries k.writeBuf.taken
  delivered : k.readBuf.bytes <+: stream
  peerSeq_eq : k.peerSeq.toNat = k.readBuf.bytes.length
  kept : ∀ packet ∈ k.ooq, Segment stream packet.packetSeq packet.data
  ack_le : k.ack.toNat ≤ k.readBuf.bytes.length
  sentAck_le : k.sentAck.toNat ≤ k.readBuf.bytes.length
  acked : ∀ message ∈ k.outbox, message.packetAck.toNat ≤ k.readBuf.bytes.length
  readBuf_open : k.readBuf.closed = false

namespace RetransmitQueue

variable {queue : RetransmitQueue} {entry : Packet}

theorem mem_of_mem_put {packet : Packet}
    (hmem : entry ∈ (queue.put packet).1) : entry ∈ queue ∨ entry = packet := by
  unfold put at hmem
  split at hmem
  · exact .inl hmem
  · split at hmem
    · simpa using hmem
    · split at hmem
      · exact .inl hmem
      · simpa using hmem

theorem mem_of_mem_deleteUntil {seq : UInt32} (hmem : entry ∈ (queue.deleteUntil seq).1) :
    entry ∈ queue := by
  unfold deleteUntil at hmem
  split at hmem
  · exact hmem
  · exact List.mem_of_mem_drop hmem

theorem mem_of_mem_refreshAck {seq ack : UInt32} (hmem : entry ∈ queue.refreshAck seq ack) :
    entry ∈ queue ∨ ∃ packet ∈ queue, entry = packet.refreshAck ack := by
  induction queue with
  | nil => simp [refreshAck] at hmem
  | cons first rest ih =>
    unfold refreshAck at hmem
    split at hmem
    · rcases List.mem_cons.mp hmem with rfl | hrest
      · exact .inr ⟨first, List.mem_cons_self, rfl⟩
      · exact .inl (List.mem_cons_of_mem _ hrest)
    · rcases List.mem_cons.mp hmem with rfl | hrest
      · exact .inl List.mem_cons_self
      · rcases ih hrest with hold | ⟨packet, hpacket, heq⟩
        · exact .inl (List.mem_cons_of_mem _ hold)
        · exact .inr ⟨packet, List.mem_cons_of_mem _ hpacket, heq⟩

end RetransmitQueue

namespace Buffer

variable {buffer after : Buffer} {data : Bytes} {count : Nat}

theorem write_of_open (hopen : buffer.closed = false) (data : Bytes) :
    buffer.write data = .ok { buffer with bytes := buffer.bytes ++ data } := by
  unfold write
  split
  · rename_i hempty
    rw [List.isEmpty_iff.mp hempty, List.append_nil]
  · simp [hopen]

theorem write_ok (hwrite : (buffer.write data).toOption = some after) :
    after.readPos = buffer.readPos ∧ buffer.bytes <+: after.bytes := by
  unfold write at hwrite
  split at hwrite
  · cases hwrite
    exact ⟨rfl, List.prefix_rfl⟩
  · split at hwrite
    · simp [Except.toOption] at hwrite
    · cases hwrite
      exact ⟨rfl, List.prefix_append _ _⟩

theorem taken_mono (hreadPos : buffer.readPos ≤ after.readPos)
    (hbytes : buffer.bytes <+: after.bytes) : buffer.taken <+: after.taken := by
  obtain ⟨more, hbytes⟩ := hbytes
  have hgrown : buffer.taken <+: after.bytes.take buffer.readPos := by
    rw [taken, ← hbytes, List.take_append]
    exact List.prefix_append _ _
  exact hgrown.trans (List.take_prefix_take_left hreadPos)

theorem taken_of_write (hwrite : (buffer.write data).toOption = some after)
    (hle : buffer.readPos ≤ buffer.bytes.length) :
    after.taken = buffer.taken := by
  obtain ⟨hreadPos, more, hbytes⟩ := write_ok hwrite
  rw [taken, taken, hreadPos, ← hbytes, List.take_append_of_le_length hle]

theorem read_keeps (hread : buffer.read count = some (.ok (data, after))) :
    after.bytes = buffer.bytes ∧ after.closed = buffer.closed ∧ buffer.readPos ≤ after.readPos := by
  unfold read at hread
  split at hread
  · cases hread
    exact ⟨rfl, rfl, Nat.le_refl _⟩
  · split at hread
    · simp at hread
    · split at hread
      · simp at hread
      · cases hread
        exact ⟨rfl, rfl, Nat.le_add_right _ _⟩

theorem read_ok (hread : buffer.read count = some (.ok (data, after)))
    (hle : buffer.readPos ≤ buffer.bytes.length) :
    ∃ taken, taken ≤ count ∧ buffer.readPos + taken ≤ buffer.bytes.length ∧
      data = buffer.next taken ∧ after = buffer.advance taken := by
  unfold read at hread
  split at hread
  · cases hread
    exact ⟨0, Nat.zero_le _, hle, by simp [next, Bytes.window], rfl⟩
  · split at hread
    · simp at hread
    · split at hread
      · simp at hread
      · cases hread
        exact ⟨_, Nat.min_le_right _ _, by omega, rfl, rfl⟩

theorem length_taken (hle : buffer.readPos ≤ buffer.bytes.length) :
    buffer.taken.length = buffer.readPos := by
  rw [taken, List.length_take]
  omega

end Buffer

theorem Conn.writeBuf_step {c after : Conn} {event : Event} (hstep : c.step event = some after) :
    c.writeBuf.readPos ≤ after.writeBuf.readPos ∧ c.writeBuf.bytes <+: after.writeBuf.bytes := by
  cases taken_of_step hstep with
  | write hwrite =>
    have hgrown := Buffer.write_ok hwrite
    exact ⟨Nat.le_of_eq hgrown.1.symm, hgrown.2⟩
  | read | skip => exact ⟨Nat.le_refl _, List.prefix_rfl⟩
  | send available hread =>
    obtain ⟨hbytes, -, hreadPos⟩ := Buffer.read_keeps hread
    exact ⟨hreadPos, hbytes ▸ List.prefix_rfl⟩
  | @incoming message buffer =>
    obtain ⟨hbytes, hreadPos, -⟩ := (c.getBuffer buffer).sent_readLoopIncoming
        (Packet.unmarshal message buffer)
    exact ⟨Nat.le_of_eq hreadPos.symm, hbytes ▸ List.prefix_rfl⟩
  | ackTimer =>
    rw [toOutgoing_readLoopAckTimer]
    exact ⟨Nat.le_refl _, List.prefix_rfl⟩
  | rto =>
    rw [c.readLoopRto_resent.writeBuf_eq]
    exact ⟨Nat.le_refl _, List.prefix_rfl⟩

namespace Endpoint

variable {stream longer : Bytes} {k after : Transfer} {message : Message}
  {seq ack : UInt32} {packet : Packet}

variable (endpoint : Endpoint stream k)

include endpoint

theorem extend (hextends : stream <+: longer) : Endpoint longer k :=
  { endpoint with
    delivered := endpoint.delivered.trans hextends
    kept := fun packet hmem => (endpoint.kept packet hmem).extend hextends }

theorem seq_segment : Segment k.writeBuf.taken k.seq [] := by
  apply Segment.nil
  have hle := endpoint.readPos_le
  rw [endpoint.seq_eq, UInt32.toNat_ofNat', Buffer.taken, List.length_take]
  omega

theorem emit (data : Bytes) (hcode : message.code = 0)
    (hdata : message.data = putUint32 seq ++ putUint32 ack ++ data)
    (segment : Segment k.writeBuf.taken seq data) (hack : ack.toNat ≤ k.readBuf.bytes.length) :
    Endpoint stream { k with outbox := k.outbox ++ [message] } := by
  refine { endpoint with sent := ?_, acked := ?_ }
  · intro other hmem
    rcases List.mem_append.mp hmem with hold | hnew
    · exact endpoint.sent other hold
    · rw [List.mem_singleton.mp hnew]
      exact Message.carries_of_header hcode hdata segment
  · intro other hmem
    rcases List.mem_append.mp hmem with hold | hnew
    · exact endpoint.acked other hold
    · rw [List.mem_singleton.mp hnew, Message.packetAck_of_header _ _ hdata]
      exact hack

theorem refreshAck (seq ack : UInt32) :
    Endpoint stream { k with rq := k.rq.refreshAck seq ack } := by
  refine { endpoint with stored := ?_ }
  intro entry hmem
  rcases RetransmitQueue.mem_of_mem_refreshAck hmem with hold | ⟨old, hold, rfl⟩
  · exact endpoint.stored entry hold
  · exact (endpoint.stored old hold).refreshAck ack

theorem resent (resent : k.Resent after) :
    Endpoint stream after := by
  cases resent with
  | nothing => exact endpoint
  | packet packet message found code data =>
    have hstored := (endpoint.stored packet (List.mem_of_find?_eq_some found)).refreshAck k.ack
    exact (endpoint.refreshAck packet.packetSeq k.ack).emit _ code
      (data.trans hstored.1) hstored.2 endpoint.ack_le

theorem trim (seq : UInt32) : Endpoint stream (k.trim seq) :=
  { endpoint with
    stored := fun packet hmem =>
      endpoint.stored packet (RetransmitQueue.mem_of_mem_deleteUntil hmem) }

theorem ackedBy (hacked : k.Acked ack after) : Endpoint stream after := by
  obtain ⟨middle, hresent, rfl⟩ := hacked
  split
  · exact (endpoint.resent hresent).trim ack
  · exact endpoint.resent hresent

end Endpoint

end Pig.Icmp
