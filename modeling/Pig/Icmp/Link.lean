import Pig.Icmp.Integrity

namespace Pig.Icmp

/-! Two connections joined by a network that may lose, repeat, delay and reorder
messages but delivers only what the other side has sent. -/

/-- One call of a connection.  A timer branch may be taken whether or not its
timer is armed, so nothing depends on when the timers are looked after. -/
def Conn.call (c : Conn) : Event → Option Conn
  | .ackTimer => if c.closed then none else some c.readLoopAckTimer
  | .rto => if c.closed then none else some c.readLoopRto
  | event => c.step event

theorem Conn.call_cases {c after : Conn} {event : Event} (hcall : c.call event = some after) :
    c.step event = some after ∨ after = c.readLoopAckTimer ∨ after = c.readLoopRto := by
  unfold call at hcall
  split at hcall
  · simp only [Option.ite_none_left_eq_some, Option.some.injEq] at hcall
    exact .inr (.inl hcall.2.symm)
  · simp only [Option.ite_none_left_eq_some, Option.some.injEq] at hcall
    exact .inr (.inr hcall.2.symm)
  · exact .inl hcall

structure Link where
  client : Conn
  server : Conn
  deriving DecidableEq, Repr

namespace Link

def start (clientEmss serverEmss : UInt32) (icmpID : UInt16) : Link where
  client := newConnection clientEmss false icmpID
  server := newConnection serverEmss true icmpID

inductive Event where
  | client (event : Conn.Event)
  | server (event : Conn.Event)
  deriving DecidableEq, Repr

def step (link : Link) : Event → Option Link
  | .client event => (link.client.call event).map fun client =>
    { link with client := client }
  | .server event => (link.server.call event).map fun server =>
    { link with server := server }

/-- What an endpoint receives has been sent by the other one. -/
def Genuine (link : Link) : Event → Prop
  | .client event => ∀ message ∈ event.received, message ∈ link.server.outbox
  | .server event => ∀ message ∈ event.received, message ∈ link.client.outbox

instance (link : Link) : (event : Event) → Decidable (link.Genuine event)
  | .client _ => inferInstanceAs (Decidable (∀ _ ∈ _, _))
  | .server _ => inferInstanceAs (Decidable (∀ _ ∈ _, _))

end Link

namespace Endpoint

variable {stream : Bytes} {c after : Conn} {event : Conn.Event}

section

variable (endpoint : Endpoint stream c.toTransfer) (hshort : stream.length < 2 ^ 31)

include endpoint hshort

theorem readLoopIncoming {message : Message} {buffer : BufferId}
    (carries : message.Carries stream) :
    Endpoint stream (c.readLoopIncoming (Packet.unmarshal message buffer)).toTransfer := by
  refine c.readLoopIncoming_cases _ endpoint (fun hcode => ?_) { endpoint with } fun _ => ?_
  · rw [Packet.icmpCode_unmarshal, carries.1] at hcode
    simp at hcode
  · exact processSegment (c := { c with recvIcmpSeq := _ }) endpoint hshort
      (carries.unmarshal buffer)

theorem step (hgenuine : ∀ message ∈ event.received, message.Carries stream)
    (hstep : c.step event = some after) (hsent : after.writeBuf.taken.length < 2 ^ 31) :
    Endpoint stream after.toTransfer := by
  cases Conn.taken_of_step hstep with
  | write hwrite =>
    have hgrown := Buffer.write_ok hwrite
    have htaken := Buffer.taken_of_write hwrite endpoint.readPos_le
    exact { endpoint with
      readPos_le := by
        rw [hgrown.1]
        exact Nat.le_trans endpoint.readPos_le hgrown.2.length_le
      seq_eq := by rw [hgrown.1]; exact endpoint.seq_eq
      stored := by rw [htaken]; exact endpoint.stored
      sent := by rw [htaken]; exact endpoint.sent }
  | read hread =>
    have hkept := Buffer.read_keeps hread
    exact { endpoint with
      delivered := by rw [hkept.1]; exact endpoint.delivered
      peerSeq_eq := by rw [hkept.1]; exact endpoint.peerSeq_eq
      ack_le := by rw [hkept.1]; exact endpoint.ack_le
      sentAck_le := by rw [hkept.1]; exact endpoint.sentAck_le
      acked := by rw [hkept.1]; exact endpoint.acked
      readBuf_open := by rw [hkept.2.1]; exact endpoint.readBuf_open }
  | skip => exact { endpoint with }
  | @send rawBuf data writeBuf available hread =>
    obtain ⟨count, -, hinside, rfl, rfl⟩ := Buffer.read_ok hread endpoint.readPos_le
    refine transmit (c := c.getBuffer rawBuf) { endpoint with } hinside ?_ rawBuf
    have hlength : (c.writeBuf.advance count).taken.length =
        c.writeBuf.readPos + count := Buffer.length_taken hinside
    exact hlength ▸ hsent
  | @incoming message buffer =>
    exact readLoopIncoming (c := c.getBuffer buffer) { endpoint with } hshort (hgenuine message rfl)
  | ackTimer => exact endpoint.readLoopAckTimer
  | rto => exact endpoint.resent c.readLoopRto_resent

theorem call (hgenuine : ∀ message ∈ event.received, message.Carries stream)
    (hcall : c.call event = some after) (hsent : after.writeBuf.taken.length < 2 ^ 31) :
    Endpoint stream after.toTransfer := by
  rcases Conn.call_cases hcall with hstep | rfl | rfl
  · exact endpoint.step hshort hgenuine hstep hsent
  · exact endpoint.readLoopAckTimer
  · exact endpoint.resent c.readLoopRto_resent

end

end Endpoint

namespace Conn

theorem taken_call {c after : Conn} {event : Event} (hcall : c.call event = some after) :
    c.writeBuf.taken <+: after.writeBuf.taken := by
  rcases call_cases hcall with hstep | rfl | rfl
  · obtain ⟨hreadPos, hbytes⟩ := writeBuf_step hstep
    exact Buffer.taken_mono hreadPos hbytes
  · simp only [toOutgoing_readLoopAckTimer, List.prefix_rfl]
  · simp only [c.readLoopRto_resent.writeBuf_eq, List.prefix_rfl]

end Conn

namespace Link

def Short (link : Link) : Prop := link.client.writeBuf.taken.length < 2 ^ 31 ∧
    link.server.writeBuf.taken.length < 2 ^ 31

instance (link : Link) : Decidable link.Short := inferInstanceAs (Decidable (_ ∧ _))

def Consistent (link : Link) : Prop := Endpoint link.server.writeBuf.taken link.client.toTransfer ∧
    Endpoint link.client.writeBuf.taken link.server.toTransfer

theorem endpoint_newConnection (stream : Bytes) (emss : UInt32)
    (isServer : Bool) (icmpID : UInt16) :
    Endpoint stream (newConnection emss isServer icmpID).toTransfer where
  readPos_le := Nat.le_refl 0
  seq_eq := rfl
  stored := fun _ hmem => absurd hmem List.not_mem_nil
  sent := fun _ hmem => absurd hmem List.not_mem_nil
  delivered := List.nil_prefix
  peerSeq_eq := rfl
  kept := fun _ hmem => absurd hmem List.not_mem_nil
  ack_le := Nat.le_refl 0
  sentAck_le := Nat.le_refl 0
  acked := fun _ hmem => absurd hmem List.not_mem_nil
  readBuf_open := rfl

theorem consistent_step {link after : Link} {event : Event} (consistent : link.Short →
    link.Consistent) (hgenuine : link.Genuine event) (hstep : link.step event = some after)
    (hshort : after.Short) : after.Consistent := by
  cases event with
  | client event =>
    obtain ⟨client, hcall, rfl⟩ := Option.map_eq_some_iff.mp hstep
    have hextends := Conn.taken_call hcall
    have hbefore := consistent ⟨Nat.lt_of_le_of_lt hextends.length_le hshort.1, hshort.2⟩
    exact ⟨hbefore.1.call hshort.2 (fun message hmem => hbefore.2.sent message
      (hgenuine message hmem)) hcall hshort.1, hbefore.2.extend hextends⟩
  | server event =>
    obtain ⟨server, hcall, rfl⟩ := Option.map_eq_some_iff.mp hstep
    have hextends := Conn.taken_call hcall
    have hbefore := consistent ⟨hshort.1, Nat.lt_of_le_of_lt hextends.length_le hshort.2⟩
    exact ⟨hbefore.1.extend hextends, hbefore.2.call hshort.1 (fun message hmem => hbefore.1.sent
        message (hgenuine message hmem)) hcall hshort.2⟩

variable {clientEmss serverEmss : UInt32} {icmpID : UInt16} {events : List Event} {link : Link}

theorem consistent_of_run (run : Run step Genuine (start clientEmss serverEmss icmpID) events link)
    (hshort : link.Short) : link.Consistent := by
  have hinvariant := run.invariant (fun link => link.Short → link.Consistent)
    (fun _ => ⟨endpoint_newConnection _ _ _ _, endpoint_newConnection _ _ _ _⟩)
    (fun _ _ _ consistent hgenuine hstep hshort =>
      consistent_step consistent hgenuine hstep hshort)
  exact hinvariant hshort

/-- What an endpoint has delivered is the beginning of what the other one has
sent, and it has never acknowledged more than it had delivered. -/
theorem stream_integrity (run : Run step Genuine (start clientEmss serverEmss icmpID) events link)
    (hclient : link.client.writeBuf.taken.length < 2 ^ 31)
    (hserver : link.server.writeBuf.taken.length < 2 ^ 31) :
    (link.server.readBuf.bytes <+: link.client.writeBuf.taken ∧ ∀ message ∈ link.server.outbox,
        message.packetAck.toNat ≤ link.server.readBuf.bytes.length) ∧
    (link.client.readBuf.bytes <+: link.server.writeBuf.taken ∧ ∀ message ∈ link.client.outbox,
        message.packetAck.toNat ≤ link.client.readBuf.bytes.length) := by
  obtain ⟨hclientEnd, hserverEnd⟩ := consistent_of_run run ⟨hclient, hserver⟩
  exact ⟨⟨hserverEnd.delivered, hserverEnd.acked⟩, hclientEnd.delivered, hclientEnd.acked⟩

/-- Two segments of the client; the second one arrives first, and again after
the gap has been closed. -/
def reordered : List Event :=
  let message (icmpSeq : UInt16) (seq : UInt32) (data : Bytes) : Message := {
    icmpType := icmpTypeEcho
    code := 0
    id := 7
    seq := icmpSeq
    data := putUint32 seq ++ putUint32 0 ++ data }
  [.client (.write [1, 2, 3, 4, 5, 6]), .client (.writeLoop 0), .client (.writeLoop 1), .server
    (.incoming (message 1 4 [5, 6]) 0), .server (.incoming (message 0 0 [1, 2, 3, 4]) 1), .server
    (.incoming (message 1 4 [5, 6]) 2)]

theorem stream_integrity_reordered : ∃ link, Run step Genuine (start 4 4 7) reordered link ∧
  link.server.readBuf.bytes = [1, 2, 3, 4, 5, 6] ∧ link.server.readBuf.bytes <+:
  link.client.writeBuf.taken := Run.exists_of_exec_imp (fun link => link.server.readBuf.bytes =
  [1, 2, 3, 4, 5, 6] ∧ link.Short) (by decide +kernel) fun _ run ⟨hbytes, hclient, hserver⟩ =>
      ⟨hbytes, (stream_integrity run hclient hserver).1.1⟩

end Link

end Pig.Icmp
