import Pig.Icmp.Seq

namespace Pig.Icmp

/-! Parsed packets and the queue that keeps them, used both for sent data that
may have to be retransmitted and for data received out of order. -/

abbrev ICMPType := UInt8

def icmpTypeEchoReply : ICMPType := 0

def icmpTypeEcho : ICMPType := 8

/-- A buffer of the listener's pool.  The model follows who owns a buffer; the
bytes in it are those of the packet that owns it. -/
abbrev BufferId := Nat

structure Message where
  icmpType : ICMPType
  code : UInt8
  id : UInt16
  seq : UInt16
  data : Bytes
  deriving DecidableEq, Repr

structure Packet where
  icmpType : ICMPType
  icmpCode : UInt8
  icmpEchoID : UInt16
  icmpSeq : UInt16
  icmpPayload : Bytes
  packetSeq : UInt32
  packetAck : UInt32
  data : Bytes
  buffer : BufferId
  deriving DecidableEq, Repr

/-- The ICMP part of parsing a received message. -/
def Packet.unmarshal (message : Message) (buffer : BufferId) : Packet :=
  let short : Packet := {
    icmpType := message.icmpType
    icmpCode := message.code
    icmpEchoID := message.id
    icmpSeq := message.seq
    icmpPayload := message.data
    packetSeq := 0
    packetAck := 0
    data := []
    buffer := buffer }
  if message.data.length < eHeaderSize then short
  else
    { short with
      packetSeq := (getSeqAck message.data).1
      packetAck := (getSeqAck message.data).2
      data := message.data.drop eHeaderSize }

namespace Packet

variable (message : Message) (buffer : BufferId)

@[simp] theorem icmpType_unmarshal : (unmarshal message buffer).icmpType = message.icmpType := by
  unfold unmarshal
  split <;> rfl

@[simp] theorem icmpCode_unmarshal : (unmarshal message buffer).icmpCode = message.code := by
  unfold unmarshal
  split <;> rfl

@[simp] theorem icmpEchoID_unmarshal : (unmarshal message buffer).icmpEchoID = message.id := by
  unfold unmarshal
  split <;> rfl

@[simp] theorem icmpPayload_unmarshal : (unmarshal message buffer).icmpPayload = message.data := by
  unfold unmarshal
  split <;> rfl

@[simp] theorem buffer_unmarshal : (unmarshal message buffer).buffer = buffer := by
  unfold unmarshal
  split <;> rfl

variable {message}

theorem packetSeq_unmarshal (hheader : eHeaderSize ≤ message.data.length) :
    (unmarshal message buffer).packetSeq = (getSeqAck message.data).1 := by
  rw [unmarshal, if_neg (Nat.not_lt.mpr hheader)]

theorem packetAck_unmarshal (hheader : eHeaderSize ≤ message.data.length) :
    (unmarshal message buffer).packetAck = (getSeqAck message.data).2 := by
  rw [unmarshal, if_neg (Nat.not_lt.mpr hheader)]

theorem data_unmarshal (hheader : eHeaderSize ≤ message.data.length) :
    (unmarshal message buffer).data = message.data.drop eHeaderSize := by
  rw [unmarshal, if_neg (Nat.not_lt.mpr hheader)]

end Packet

def Packet.nextSeq (packet : Packet) : UInt32 := packet.packetSeq + UInt32.ofNat packet.data.length

def Packet.refreshAck (packet : Packet) (ack : UInt32) : Packet :=
  { packet with
    packetAck := ack
    icmpPayload := packet.icmpPayload.take 4 ++ putUint32 ack ++
      packet.icmpPayload.drop 8 }

abbrev RetransmitQueue := List Packet

namespace RetransmitQueue

/-- The queue after a `Put` and the buffers it gives back: a packet without
data, or one not above the last packet of the queue, is not stored. -/
def put (queue : RetransmitQueue) (packet : Packet) : RetransmitQueue × List BufferId :=
  if packet.data.isEmpty then (queue, [packet.buffer])
  else
    match queue.getLast? with
    | none => (queue ++ [packet], [])
    | some lastPacket =>
      if lastPacket.packetSeq ≥ packet.packetSeq then
        (queue, [packet.buffer])
      else (queue ++ [packet], [])

def getPacket (queue : RetransmitQueue) (seq : UInt32) : Option Packet :=
  queue.find? fun entry => entry.packetSeq == seq

/-- The queue after the packet found by `getPacket` got a new acknowledgment
number. -/
def refreshAck (seq ack : UInt32) : RetransmitQueue → RetransmitQueue
  | [] => []
  | entry :: rest =>
    if entry.packetSeq == seq then entry.refreshAck ack :: rest
    else entry :: refreshAck seq ack rest

def foundIdx (queue : RetransmitQueue) (seq : UInt32) : Option Nat := queue.findIdx? fun entry =>
    entry.packetSeq == seq || entry.packetSeq > seq

/-- The queue after a `DeleteUntil` and the buffers it gives back.  When no
packet is at or above the sequence number, every packet is kept. -/
def deleteUntil (queue : RetransmitQueue) (seq : UInt32) : RetransmitQueue × List BufferId :=
  match queue.foundIdx seq with
  | none => (queue, [])
  | some index => (queue.drop index, (queue.take index).map Packet.buffer)

def nextEntrySeq : List Packet → UInt32
  | [] => 0
  | next :: _ => next.packetSeq

def rangeLoop (fn : State → Packet → UInt32 → State × Bool) : State → List Packet → State
  | state, [] => state
  | state, entry :: rest =>
    let result := fn state entry (nextEntrySeq rest)
    if result.2 then rangeLoop fn result.1 rest else result.1

def rangeStart (seq : UInt32) : List Packet → List Packet
  | [] => []
  | entry :: rest =>
    if entry.packetSeq == seq then entry :: rest
    else if entry.packetSeq > seq then []
    else rangeStart seq rest

def rangeFrom (queue : RetransmitQueue) (seq : UInt32) (fn : State → Packet → UInt32 → State × Bool)
  (state : State) : State := rangeLoop fn state (rangeStart seq queue)

theorem view_rangeFrom {Value : Type} {fn : State → Packet → UInt32 → State × Bool}
    (view : State → Value) (hbody : ∀ state entry nextSeq, view (fn state entry nextSeq).1 = view
    state) (queue : RetransmitQueue) (seq : UInt32) (state : State) :
    view (queue.rangeFrom seq fn state) = view state := by
  unfold rangeFrom
  induction rangeStart seq queue generalizing state with
  | nil => rfl
  | cons entry rest ih =>
    unfold rangeLoop
    dsimp only
    split
    · rw [ih, hbody]
    · exact hbody ..

def dataLength (packets : List Packet) : Nat := (packets.map (·.data.length)).sum

/-- The loop over the queue: the index of the first packet to keep, and the
bytes before it. -/
def findLoop (seq : UInt32) :
    (i : Nat) → (deletedBytes : UInt32) → List Packet → Option Nat × UInt32
  | _, deletedBytes, [] => (none, deletedBytes)
  | i, deletedBytes, entry :: rest =>
    if entry.packetSeq == seq then (some i, deletedBytes)
    else if entry.packetSeq > seq then (some i, deletedBytes)
    else findLoop seq (i + 1) (deletedBytes + UInt32.ofNat entry.data.length) rest

structure Trimmed where
  packets : RetransmitQueue
  cleared : List BufferId
  deletedBytes : UInt32
  deriving DecidableEq, Repr

/-- The packets from the given one on, copied to the front of the slice. -/
def compact (queue : RetransmitQueue) (foundIdx : Nat) : RetransmitQueue :=
  let remainingEntries := queue.length - foundIdx
  let copied :=
    if remainingEntries > 0 then queue.drop foundIdx ++ queue.drop remainingEntries else queue
  copied.take remainingEntries

def trim (queue : RetransmitQueue) (seq : UInt32) : Trimmed :=
  if queue.length = 0 then ⟨queue, [], 0⟩
  else
    match findLoop seq 0 0 queue with
    | (none, deletedBytes) => ⟨queue, [], deletedBytes⟩
    | (some foundIdx, deletedBytes) =>
      ⟨queue.compact foundIdx, (queue.take foundIdx).map Packet.buffer, deletedBytes⟩

/-- Exactly the packets below the number are removed, their buffers are given
back once each, and their bytes are counted. -/
structure TrimsBelow (queue : RetransmitQueue) (seq : UInt32) (after : Trimmed) : Prop where
  packets_eq : after.packets = queue.filter fun entry => ¬ entry.packetSeq < seq
  cleared_eq : after.cleared = (queue.filter fun entry => entry.packetSeq < seq).map Packet.buffer
  bytes_eq : after.deletedBytes.toNat =
    dataLength (queue.filter fun entry => entry.packetSeq < seq)

section

variable {queue : RetransmitQueue} {seq : UInt32}

theorem compact_eq (queue : RetransmitQueue) (foundIdx : Nat) :
    queue.compact foundIdx = queue.drop foundIdx := by
  have hlength : (queue.drop foundIdx).length = queue.length - foundIdx := List.length_drop
  rw [compact]
  split
  · exact List.take_left' hlength
  · next hnone =>
    have hzero : queue.length - foundIdx = 0 := by omega
    rw [hzero, List.take_zero, List.drop_eq_nil_of_le (by omega)]

theorem findLoop_eq (seq : UInt32) (queue : RetransmitQueue) (i : Nat) (deletedBytes : UInt32) :
    findLoop seq i deletedBytes queue = ((queue.foundIdx seq).map (· + i), deletedBytes +
      UInt32.ofNat (dataLength (queue.take ((queue.foundIdx seq).getD queue.length)))) := by
  induction queue generalizing i deletedBytes with
  | nil => simp [findLoop, foundIdx, dataLength]
  | cons entry rest ih =>
    have hcons : foundIdx (entry :: rest) seq = if entry.packetSeq == seq ||
        entry.packetSeq > seq then some 0 else (foundIdx rest seq).map (· + 1) := List.findIdx?_cons
    rw [findLoop, ih, hcons]
    by_cases hequal : entry.packetSeq == seq
    · simp [hequal, dataLength]
    · by_cases habove : entry.packetSeq > seq
      · simp [hequal, habove, dataLength]
      · rw [if_neg hequal, if_neg habove, if_neg (by simp [hequal, habove])]
        cases foundIdx rest seq with
        | none | some index =>
          simp [dataLength, UInt32.ofNat_add, UInt32.add_assoc, Nat.add_comm, Nat.add_left_comm]

theorem trim_eq (queue : RetransmitQueue) (seq : UInt32) :
    queue.trim seq = ⟨(queue.deleteUntil seq).1, (queue.deleteUntil seq).2, UInt32.ofNat
      (dataLength (queue.take ((queue.foundIdx seq).getD queue.length)))⟩ := by
  rw [trim, findLoop_eq, deleteUntil, UInt32.zero_add]
  split
  · next hempty =>
    obtain rfl := List.eq_nil_of_length_eq_zero hempty
    rfl
  · cases queue.foundIdx seq with
    | none => rfl
    | some index => simp only [Option.map_some, Nat.add_zero, compact_eq]

theorem filter_of_found (hsorted : queue.Pairwise fun entry next => entry.packetSeq <
    next.packetSeq) {index : Nat} (hfound : queue.foundIdx seq = some index) :
    (queue.filter fun entry => entry.packetSeq < seq) = queue.take index ∧
      (queue.filter fun entry => ¬ entry.packetSeq < seq) = queue.drop index := by
  obtain ⟨hindex, hfirst, hbefore⟩ := List.findIdx?_eq_some_iff_getElem.mp hfound
  have hbelow : ∀ entry ∈ queue.take index, entry.packetSeq < seq := by
    intro entry hentry
    obtain ⟨place, hplace, rfl⟩ := List.mem_take_iff_getElem.mp hentry
    have hnot := hbefore place (by omega)
    grind
  have habove : ∀ entry ∈ queue.drop index, ¬ entry.packetSeq < seq := by
    intro entry hentry
    rw [List.drop_eq_getElem_cons hindex] at hentry
    have hafter := List.pairwise_cons.mp
      (List.drop_eq_getElem_cons hindex ▸ hsorted.sublist (List.drop_sublist index queue))
    grind
  have hsplit (p : Packet → Bool) :
      queue.filter p = (queue.take index).filter p ++ (queue.drop index).filter p := by
    rw [← List.filter_append, List.take_append_drop]
  constructor
  · rw [hsplit, List.filter_eq_self.mpr (by simpa using hbelow),
      List.filter_eq_nil_iff.mpr (by simpa using habove), List.append_nil]
  · rw [hsplit, List.filter_eq_nil_iff.mpr (by simpa using hbelow),
      List.filter_eq_self.mpr (by simpa using habove), List.nil_append]

/-- On a queue in the order of the sequence numbers, unless it is empty,
exactly the packets below the number are removed if one is not below it; their
bytes are counted as far as they fit. -/
theorem trimsBelow_iff (hsorted : queue.Pairwise fun entry next => entry.packetSeq <
    next.packetSeq) (seq : UInt32) :
    TrimsBelow queue seq (queue.trim seq) ↔ (queue = [] ∨ ∃ entry ∈ queue, seq ≤ entry.packetSeq) ∧
      dataLength (queue.filter fun entry => entry.packetSeq < seq) < 2 ^ 32 := by
  rw [trim_eq, deleteUntil]
  cases hfound : queue.foundIdx seq with
  | none =>
    have hbelow : ∀ entry ∈ queue, entry.packetSeq < seq := by
      have hnone := List.findIdx?_eq_none_iff.mp hfound
      grind
    cases queue with
    | nil => exact iff_of_true ⟨rfl, rfl, rfl⟩ ⟨.inl rfl, Nat.two_pow_pos 32⟩
    | cons first rest =>
      refine iff_of_false (fun trims => ?_) ?_
      · have hkept := trims.packets_eq
        rw [List.filter_eq_nil_iff.mpr (by simpa using hbelow)] at hkept
        cases hkept
      · rintro ⟨hnil | ⟨entry, hentry, habove⟩, -⟩
        · cases hnil
        · exact UInt32.not_lt.mpr habove (hbelow entry hentry)
  | some index =>
    obtain ⟨hremoved, hkept⟩ := filter_of_found hsorted hfound
    obtain ⟨hindex, hfirst, -⟩ := List.findIdx?_eq_some_iff_getElem.mp hfound
    have hexists : ∃ entry ∈ queue, seq ≤ entry.packetSeq :=
      ⟨queue[index], List.getElem_mem hindex, by grind⟩
    rw [and_iff_right (.inr hexists), hremoved]
    constructor
    · intro trims
      have hbytes := trims.bytes_eq
      rw [hremoved] at hbytes
      exact hbytes ▸ UInt32.toNat_lt _
    · intro hbytes
      refine ⟨hkept.symm, ?_, ?_⟩
      · rw [hremoved]
      · rw [hremoved]
        exact UInt32.toNat_ofNat_of_lt' hbytes

end

def samplePacket (seq : UInt32) (data : Bytes) (buffer : BufferId) : Packet :=
  ⟨icmpTypeEcho, 0, 0, 0, [], seq, 0, data, buffer⟩

def sampleQueue : RetransmitQueue := [samplePacket 1 [7, 8] 0, samplePacket 3 [9] 1]

theorem trimsBelow_iff_sampleQueue : TrimsBelow sampleQueue 2 (sampleQueue.trim 2) :=
  (trimsBelow_iff (by decide) 2).mpr (by decide)

/-- If every packet is below the number, none is removed, but the bytes of all
are reported as removed. -/
theorem exists_not_trimsBelow : sampleQueue.trim 4 = ⟨sampleQueue, [], 3⟩ ∧
    (sampleQueue.filter fun entry => ¬ entry.packetSeq < 4) = [] ∧
    ¬ TrimsBelow sampleQueue 4 (sampleQueue.trim 4) := by
  refine ⟨by decide, by decide, fun trims => ?_⟩
  have hkept := trims.packets_eq
  cases hkept

end RetransmitQueue

end Pig.Icmp
