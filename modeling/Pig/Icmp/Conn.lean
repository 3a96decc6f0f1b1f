import Pig.Icmp.RetransmitQueue

namespace Pig.Icmp

structure Buffer where
  bytes : Bytes := []
  readPos : Nat := 0
  closed : Bool := false
  deriving DecidableEq, Repr

namespace Buffer

/-- `Write` waits until the whole of `data` fits, so it stores all of it or
fails because the buffer is closed. -/
def write (buffer : Buffer) (data : Bytes) : Except String Buffer :=
  if data.isEmpty then .ok buffer
  else if buffer.closed then .error "buffer closed"
  else .ok { buffer with bytes := buffer.bytes ++ data }

def next (buffer : Buffer) (count : Nat) : Bytes := buffer.bytes.window buffer.readPos count

def advance (buffer : Buffer) (count : Nat) : Buffer :=
  { buffer with readPos := buffer.readPos + count }

/-- `Read` of up to `count` bytes; `none` while it waits for data. -/
def read (buffer : Buffer) (count : Nat) : Option (Except String (Bytes × Buffer)) :=
  if count = 0 then some (.ok ([], buffer))
  else if buffer.closed then some (.error "buffer closed")
  else if buffer.readPos = buffer.bytes.length then none
  else
    let available := min (buffer.bytes.length - buffer.readPos) count
    some (.ok (buffer.next available, buffer.advance available))

def close (buffer : Buffer) : Buffer := { buffer with closed := true }

def taken (buffer : Buffer) : Bytes := buffer.bytes.take buffer.readPos

end Buffer

structure FlightCounter where
  sendWindowSize : UInt32
  bc : UInt32
  deriving DecidableEq, Repr

namespace FlightCounter

def load (counter : FlightCounter) : UInt32 := counter.bc

def add (counter : FlightCounter) (num : UInt32) : FlightCounter :=
  if num ≤ 0 then counter else { counter with bc := counter.bc + num }

def sub (counter : FlightCounter) (num : UInt32) : FlightCounter :=
  if num ≤ 0 then counter
  else if num > counter.bc then { counter with bc := 0 }
  else { counter with bc := counter.bc - num }

end FlightCounter

structure Outgoing where
  writeBuf : Buffer := {}
  rq : RetransmitQueue := []
  seq : UInt32 := 0
  deriving DecidableEq, Repr

/-- The part of a connection that moves data.  `outbox` collects every message
handed to the raw socket, and `returned` the buffers of the pool that this
connection gave back and that have not been handed out again. -/
structure Transfer extends Outgoing where
  readBuf : Buffer := {}
  ooq : RetransmitQueue := []
  peerAck : UInt32 := 0xFFFFFFFF
  peerSeq : UInt32 := 0
  ack : UInt32 := 0
  sentAck : UInt32 := 0
  returned : List BufferId := []
  outbox : List Message := []
  closed : Bool := false
  deriving DecidableEq, Repr

structure Control where
  retransmit : Bool := false
  recovery : Bool := false
  transmitBlocked : Bool := false
  prevPeerAck : UInt32 := 0
  recover : UInt32 := 0
  cwnd : UInt32
  ssthresh : UInt32
  flightSize : FlightCounter
  dupCnt : UInt8 := 0
  ackBytesCount : UInt32 := 0
  deriving DecidableEq, Repr

/-- A connection.  Timers are armed or not armed. -/
structure Conn extends Transfer, Control where
  emss : UInt32
  isServer : Bool
  wantType : ICMPType
  icmpID : UInt16
  nextIcmpSeq : UInt32
  recvIcmpSeq : UInt32
  ackTimer : Bool
  rto : Bool
  deriving DecidableEq, Repr

def defaultBufferSize : UInt32 := 262144

def maxICMPSeq : UInt32 := 65535

/-- A new connection after `initNewReno`: the acknowledgment timer is running,
the retransmission timer has been stopped. -/
def newConnection (emss : UInt32) (isServer : Bool) (icmpID : UInt16) : Conn where
  emss := emss
  isServer := isServer
  wantType := if isServer then icmpTypeEcho else icmpTypeEchoReply
  icmpID := icmpID
  nextIcmpSeq := 0
  recvIcmpSeq := maxICMPSeq
  ackTimer := true
  rto := false
  cwnd := 10 * emss
  ssthresh := maxUint32Seq
  flightSize := { sendWindowSize := defaultBufferSize, bc := 0 }

namespace Conn

def clearMemory (c : Conn) (buffers : List BufferId) : Conn :=
  { c with returned := buffers ++ c.returned }

def held (c : Conn) : List BufferId := (c.rq ++ c.ooq).map Packet.buffer

def Available (c : Conn) (buffer : BufferId) : Prop := buffer ∈ c.held → buffer ∈ c.returned

instance (c : Conn) (buffer : BufferId) : Decidable (c.Available buffer) :=
  inferInstanceAs (Decidable (_ → _))

def getBuffer (c : Conn) (buffer : BufferId) : Conn :=
  { c with returned := c.returned.erase buffer }

def echoMessage (c : Conn) (code : UInt8) (data : Bytes) : Message where
  icmpType := if c.isServer then icmpTypeEchoReply else icmpTypeEcho
  code := code
  id := c.icmpID
  seq := c.nextIcmpSeq.toUInt16
  data := data

def sendEchoMessage (c : Conn) (data : Bytes) : Conn :=
  { c with
    nextIcmpSeq := c.nextIcmpSeq + 1
    outbox := c.outbox ++ [c.echoMessage 0 data] }

def sendCloseMessage (c : Conn) : Conn :=
  { c with
    nextIcmpSeq := c.nextIcmpSeq + 1
    outbox := c.outbox ++ [c.echoMessage 255 []] }

def serializeDuplicateAck (c : Conn) (seq ack : UInt32) : Conn :=
  c.sendEchoMessage (putUint32 seq ++ putUint32 ack)

def serializeAck (c : Conn) (ack : UInt32) : Conn :=
  if c.sentAck == ack || isUint32SeqHigher c.sentAck ack then c
  else
    { c with sentAck := ack }.sendEchoMessage (putUint32 c.seq ++ putUint32 ack)

def outboundPacket (c : Conn) (data : Bytes) (rawBuf : BufferId) : Packet where
  icmpType := 0
  icmpCode := 0
  icmpEchoID := 0
  icmpSeq := 0
  icmpPayload := putUint32 c.seq ++ putUint32 c.ack ++ data
  packetSeq := c.seq
  packetAck := c.ack
  data := data
  buffer := rawBuf

def storeOutbound (c : Conn) (packet : Packet) (writeBuf : Buffer) : Conn :=
  { c with
    writeBuf := writeBuf
    sentAck := c.ack
    seq := packet.nextSeq
    flightSize := c.flightSize.add (UInt32.ofNat packet.data.length)
    rq := (c.rq.put packet).1 }.clearMemory (c.rq.put packet).2

def transmit (c : Conn) (data : Bytes) (writeBuf : Buffer) (rawBuf : BufferId) : Conn :=
  (c.storeOutbound (c.outboundPacket data rawBuf) writeBuf).sendEchoMessage
    (c.outboundPacket data rawBuf).icmpPayload

/-- One segment of application data, built in the given pool buffer; `none`
while the call waits for data. -/
def serializeOutboundData (c : Conn) (rawBuf : BufferId) : Option Conn :=
  match c.writeBuf.read c.emss.toNat with
  | none => none
  | some (.error _) => some (c.clearMemory [rawBuf])
  | some (.ok (data, writeBuf)) => some (c.transmit data writeBuf rawBuf)

def blockTransmit (c : Conn) : Conn := { c with transmitBlocked := true }

def unblockTransmit (c : Conn) : Conn :=
  if c.retransmit || c.recovery then c
  else { c with transmitBlocked := false }

def updateCongestionWindow (c : Conn) (peerAck : UInt32) : Conn :=
  if c.retransmit then c
  else
    let ackedBytes := uint32SeqDiff peerAck c.peerAck
    if c.cwnd ≥ c.ssthresh then
      let ackBytesCount := c.ackBytesCount + ackedBytes
      if ackBytesCount ≥ c.cwnd then
        { c with ackBytesCount := 0, cwnd := c.cwnd + c.emss }
      else { c with ackBytesCount := ackBytesCount }
    else
      { c with
        ackBytesCount := 0
        cwnd := c.cwnd +
          (if ackedBytes > c.emss then c.emss else ackedBytes) }

def retransmitMissingSegment (c : Conn) (peerAck : UInt32) : Conn :=
  match c.rq.getPacket peerAck with
  | none => c
  | some packet =>
    { c with rq := c.rq.refreshAck peerAck c.ack }.sendEchoMessage
      (packet.refreshAck c.ack).icmpPayload

def enterFastRetransmit (c : Conn) (ourSeq packetAck : UInt32) : Conn :=
  let blocked := { c with
    recover := ourSeq
    transmitBlocked := true
    ssthresh := max (c.flightSize.load / 2) (2 * c.emss) }
  { blocked.retransmitMissingSegment packetAck with
    cwnd := blocked.ssthresh + 3 * c.emss
    retransmit := true }

def countDuplicateAck (c : Conn) (ourSeq packetAck : UInt32) : Conn :=
  let counted := { c with dupCnt := c.dupCnt + 1 }
  if counted.dupCnt < 3 then counted
  else if isUint32SeqHigher c.recover packetAck && (c.cwnd ≤ c.emss ||
        uint32SeqDiff c.peerAck c.prevPeerAck > 4 * c.emss) then
    counted
  else counted.enterFastRetransmit ourSeq packetAck

def isDuplicateAck (c : Conn) (ourSeq : UInt32) (packet : Packet) : Bool :=
  packet.data.isEmpty && packet.packetAck == c.peerAck && isUint32SeqHigher ourSeq packet.packetAck

def handleDuplicateAck (c : Conn) (ourSeq : UInt32) (packet : Packet) : Conn × Bool :=
  if !c.isDuplicateAck ourSeq packet then (c, false)
  else if c.retransmit then ({ c with cwnd := c.cwnd + c.emss }, true)
  else (c.countDuplicateAck ourSeq packet.packetAck, true)

def partialAck (c : Conn) (peerAck : UInt32) : Conn :=
  let diff := uint32SeqDiff peerAck c.peerAck
  let ackedBytes := if diff < c.emss then c.emss else diff
  if ackedBytes < c.ssthresh then
    { c.retransmitMissingSegment peerAck with cwnd := c.ssthresh + c.emss }
  else c.retransmitMissingSegment peerAck

def exitFastRetransmit (c : Conn) : Conn :=
  { c with cwnd := c.ssthresh, rto := true, retransmit := false }.unblockTransmit

def doFastRetransmit (c : Conn) (peerAck : UInt32) : Conn × Bool :=
  if !c.retransmit then (c, false)
  else if isUint32SeqHigher c.recover peerAck then (c.partialAck peerAck, true)
  else (c.exitFastRetransmit, false)

/-- The body of the iteration over the out-of-order queue. -/
def recoverPacket (c : Conn) (packet : Packet) (nextSeq : UInt32) : Conn × Bool :=
  let peerAck := if packet.packetAck > c.peerAck then packet.packetAck
    else c.peerAck
  match c.readBuf.write packet.data with
  | .error _ => ({ c with peerAck := peerAck }, false)
  | .ok readBuf =>
    ({ c with
      peerAck := peerAck
      readBuf := readBuf
      peerSeq := packet.nextSeq }, nextSeq == packet.nextSeq)

def dropRecovered (c : Conn) : Conn := { c with ooq := (c.ooq.deleteUntil c.peerSeq).1 }.clearMemory
    (c.ooq.deleteUntil c.peerSeq).2

def acknowledge (c : Conn) : Conn := { c with ack := c.peerSeq }.serializeAck c.peerSeq

def recoverFromLoss (c : Conn) (startSeq : UInt32) : Conn :=
  (c.ooq.rangeFrom startSeq recoverPacket c).dropRecovered.acknowledge

def detectLoss (c : Conn) (packet : Packet) : Conn :=
  if isUint32SeqHigher packet.packetSeq c.peerSeq && !c.recovery then
    { c with recovery := true }.blockTransmit
  else c

def advancePeerAck (c : Conn) (packetAck : UInt32) : Conn :=
  if isUint32SeqHigher packetAck c.peerAck then
    { c with
      rq := (c.rq.deleteUntil packetAck).1
      flightSize := c.flightSize.sub (uint32SeqDiff packetAck c.peerAck)
      prevPeerAck := c.peerAck
      peerAck := packetAck }.clearMemory (c.rq.deleteUntil packetAck).2
  else c

def settleCongestion (c : Conn) (packetAck : UInt32) : Conn :=
  if (c.doFastRetransmit packetAck).2 then (c.doFastRetransmit packetAck).1
  else (c.doFastRetransmit packetAck).1.updateCongestionWindow packetAck

def processNewAck (c : Conn) (packetAck : UInt32) : Conn :=
  ({ c with dupCnt := 0 }.settleCongestion packetAck).advancePeerAck packetAck

def stashPacket (c : Conn) (packet : Packet) : Conn :=
  { c with ooq := (c.ooq.put packet).1 }.clearMemory (c.ooq.put packet).2

def deliverMissing (c : Conn) (packet : Packet) : Conn :=
  { c with
    readBuf := (c.readBuf.write packet.data).toOption.getD c.readBuf
    peerSeq := packet.nextSeq }.clearMemory [packet.buffer]

def processRecoveryData (c : Conn) (packet : Packet) : Conn :=
  if c.peerSeq != packet.packetSeq then
    (c.stashPacket packet).serializeDuplicateAck c.seq c.sentAck
  else
    { (c.deliverMissing packet).recoverFromLoss packet.nextSeq with
      recovery := false }.unblockTransmit

def processData (c : Conn) (packet : Packet) : Conn :=
  match c.readBuf.write packet.data with
  | .error _ => c
  | .ok readBuf =>
    let delivered := { c with
      readBuf := readBuf
      peerSeq := packet.nextSeq
      ack := packet.nextSeq }.clearMemory [packet.buffer]
    if uint32SeqDiff packet.nextSeq c.sentAck < 2 * c.emss then delivered
    else delivered.serializeAck packet.nextSeq

def processPayload (c : Conn) (packet : Packet) : Conn :=
  if packet.data.isEmpty then c
  else if c.recovery then c.processRecoveryData packet
  else c.processData packet

def processSegment (c : Conn) (packet : Packet) : Conn :=
  if isUint32SeqHigher c.peerSeq packet.packetSeq then c
  else
    let c := c.detectLoss packet
    if (c.handleDuplicateAck c.seq packet).2 then
      (c.handleDuplicateAck c.seq packet).1
    else
      ((c.handleDuplicateAck c.seq packet).1.processNewAck packet.packetAck).processPayload packet

def processICMPPacket (c : Conn) (packet : Packet) : Except String Conn :=
  if packet.icmpType != c.wantType then .ok c
  else if packet.icmpCode == 255 then .error "received close packet"
  else if packet.icmpEchoID != c.icmpID then .ok c
  else
    let received := { c with recvIcmpSeq := packet.icmpSeq.toUInt32 }
    if packet.icmpPayload.length < eHeaderSize then
      .ok (received.clearMemory [packet.buffer])
    else .ok (received.processSegment packet)

def close (c : Conn) : Conn :=
  { c.sendCloseMessage with
    closed := true
    readBuf := c.readBuf.close
    writeBuf := c.writeBuf.close }

def manageTimers (c : Conn) : Conn :=
  { c with
    rto := isUint32SeqHigher c.seq c.peerAck
    ackTimer := isUint32SeqHigher c.ack c.sentAck }

def readLoopRto (c : Conn) : Conn :=
  let expired := { c with
    ssthresh := max (c.flightSize.load / 2) (2 * c.emss)
    cwnd := c.emss
    rto := true }
  { expired.retransmitMissingSegment c.peerAck with
    recover := c.seq
    retransmit := false }.unblockTransmit

def readLoopAckTimer (c : Conn) : Conn :=
  if c.sentAck == c.ack then c.manageTimers
  else (c.serializeAck c.ack).manageTimers

def readLoopIncoming (c : Conn) (packet : Packet) : Conn :=
  match c.processICMPPacket packet with
  | .error _ => c.close
  | .ok c => c.manageTimers

/-- What can happen to a connection.  `writeLoop` is one segment sent: the waits
of the loop are over before the call that waits for data, so no condition on
the congestion state holds when the segment is built. -/
inductive Event where
  | write (data : Bytes)
  | read (count : Nat)
  | writeLoop (rawBuf : BufferId)
  | incoming (message : Message) (buffer : BufferId)
  | ackTimer
  | rto
  deriving DecidableEq, Repr

def Event.received : Event → Option Message
  | .incoming message _ => some message
  | _ => none

def step (c : Conn) : Event → Option Conn
  | .write data =>
    if c.closed then none
    else c.writeBuf.write data |>.toOption.map fun writeBuf =>
      { c with writeBuf := writeBuf }
  | .read count =>
    if c.closed then none
    else
      match c.readBuf.read count with
      | some (.ok (_, readBuf)) => some { c with readBuf := readBuf }
      | _ => none
  | .writeLoop rawBuf =>
    if c.closed || !decide (c.Available rawBuf) then none
    else (c.getBuffer rawBuf).serializeOutboundData rawBuf
  | .incoming message buffer =>
    if c.closed || !decide (c.Available buffer) then none
    else some ((c.getBuffer buffer).readLoopIncoming (Packet.unmarshal message buffer))
  | .ackTimer =>
    if c.closed || !c.ackTimer then none else some c.readLoopAckTimer
  | .rto =>
    if c.closed || !c.rto then none else some c.readLoopRto

end Conn

end Pig.Icmp
