import Pig.Clients.Churn
import Pig.Tunnel.Reframing

namespace Pig.Tunnel.Server

open Go Network Reassembly Clients

/-! The source addresses of the packets a client gets onto the inbound queue.
They are written over whatever the client has sent, unless there is nothing to
write, and unless a checksum is written over them in turn. -/

structure Serves (tunnel : ClientTunnel) (env : Env) : Prop where
  sourceIP_eq : env.sourceIP = tunnel.sourceIP
  sourceIP6_eq : env.sourceIP6 =
    if tunnel.sourceIP6 = [] then none else some tunnel.sourceIP6

/-- The source is the address of the client in the family of the packet. -/
def Genuine (tunnel : ClientTunnel) : IPPacket → Prop
  | .v4 p => IPv4Packet.sourceIP p = .ok tunnel.sourceIP
  | .v6 p => IPv6Packet.sourceIP p = .ok tunnel.sourceIP6

instance (tunnel : ClientTunnel) (pkt : IPPacket) : Decidable (Genuine tunnel pkt) :=
  match pkt with
  | .v4 _ => inferInstanceAs (Decidable (_ = _))
  | .v6 _ => inferInstanceAs (Decidable (_ = _))

def Assigned (tunnel : ClientTunnel) : IPPacket → Prop
  | .v4 _ => tunnel.sourceIP.length = 4
  | .v6 _ => tunnel.sourceIP6.length = 16

def Overlaps (p : Slice) : Prop := (p.byte 9 = protocolICMP ∧ IPv4Packet.headerLen p = 12) ∨
    (p.byte 9 = protocolUDP ∧ IPv4Packet.headerLen p = 8)

instance (p : Slice) : Decidable (Overlaps p) := inferInstanceAs (Decidable (_ ∨ _))

def Covered (buffer : Slice) (data : Bytes) : IPPacket → Prop
  | .v4 _ => Overlaps (buffer.write 0 data)
  | .v6 _ => False

theorem not_covered_v6 (buffer p : Slice) (data : Bytes) : ¬ Covered buffer data (.v6 p) := id

structure Delivers (env : Env) (inbound : Inbound) (pending : Bytes)
    (prePkt : IPPacket) : Prop where
  header : 20 ≤ pending.length
  head : headPacket pending = some prePkt
  complete : prePkt.statedLength ≤ pending.length
  fits : prePkt.statedLength ≤ env.mtu
  accepted : env.accepts inbound.taken = true

/-- There is an address to write, and it stays. -/
def Trusted (tunnel : ClientTunnel) (env : Env) (inbound : Inbound) (pending : Bytes) : Prop :=
  ∀ prePkt, Delivers env inbound pending prePkt → Assigned tunnel prePkt ∧
      ¬ Covered (env.buffer inbound.taken) (pending.take prePkt.statedLength) prePkt

variable {tunnel : ClientTunnel} {env : Env} {inbound : Inbound}
  {pending data : Bytes} {prePkt pkt : IPPacket} {buffer : Slice}

variable {p : Slice}

theorem not_checksumPlaces_of_not_overlaps (h : ¬ Overlaps p)
    {index : Nat} (hlow : 12 ≤ index) (hhigh : index < 16) :
    ¬ IPv4Packet.ChecksumPlaces p index := by
  have hfour : IPv4Packet.headerLen p % 4 = 0 := by
    rw [IPv4Packet.headerLen]
    omega
  rintro (hfield | ⟨offset, hoffset, hfield⟩)
  · simp only [WordPlaces] at hfield
    omega
  · simp only [Overlaps, not_or, not_and] at h
    simp only [IPv4Packet.checksumOffset] at hoffset
    simp only [WordPlaces] at hfield
    split at hoffset
    case isTrue hicmp =>
      obtain rfl := Option.some.inj hoffset
      have := h.1 hicmp
      omega
    case isFalse =>
      split at hoffset
      case isTrue =>
        obtain rfl := Option.some.inj hoffset
        omega
      case isFalse =>
        split at hoffset
        case isTrue hudp =>
          obtain rfl := Option.some.inj hoffset
          have := h.2 hudp
          omega
        case isFalse => cases hoffset

theorem sub_eq_ok_iff_length {ip : Bytes} (low size : Nat) (hcap : low + size ≤ p.cap)
    (hbyte : ip.length = size → ∀ index, index < size → p.byte (low + index) = ip.getD index 0) :
    p.sub low (low + size) = .ok ip ↔ ip.length = size := by
  rw [Slice.sub_eq_ok_iff, Nat.add_sub_cancel_left]
  constructor
  · rintro ⟨-, rfl⟩
    exact Bytes.length_window _ _ _ hcap
  · intro hlength
    refine ⟨⟨Nat.le_add_right .., hcap⟩, ?_⟩
    have hwindow := p.window_eq_of_byte low ip (by omega) (by rw [hlength]; exact hbyte hlength)
    rwa [hlength] at hwindow

theorem rewrite_v4 (env : Env) (hcap : 16 ≤ p.cap) : rewrite env (.v4 p) =
      .ok (.v4 (p.write 12 ((to4 env.sourceIP).take 4))) := by
  rw [rewrite, IPv4Packet.setSourceIP, Slice.copyTo, if_pos ⟨by decide, hcap⟩]
  rfl

theorem rewrite_v6 {ip : Bytes} (hcap : 24 ≤ p.cap) (hip : env.sourceIP6 = some ip) :
    rewrite env (.v6 p) = .ok (.v6 (p.write 8 ((to16 ip).take 16))) := by
  simp only [rewrite, hip]
  rw [IPv6Packet.setSourceIP, Slice.copyTo, if_pos ⟨by decide, hcap⟩]
  rfl

theorem genuine_iff_v4 (serves : Serves tunnel env)
    (hcap : data.length ≤ buffer.cap) (hlen : 20 ≤ buffer.len)
    (hcovered : ¬ Overlaps (buffer.write 0 data))
    (hfill : fillPacket buffer (rewrite env) (.v4 p) data = .ok pkt) :
    Genuine tunnel pkt ↔ tunnel.sourceIP.length = 4 := by
  have hroom : 16 ≤ (buffer.write 0 data).cap := by
    have := buffer.len_le
    rw [Slice.cap_write, Slice.cap]
    omega
  have hrewrite := rewrite_v4 env hroom
  rw [fillPacket_eq _ _ hcap hrewrite] at hfill
  obtain ⟨r, hupdate, hpkt⟩ := bind_eq_ok.1 hfill
  obtain rfl := Except.ok.inj hpkt
  have hsummed := IPv4Packet.changedAt_updateChecksum hupdate
  -- The fields that place the checksum stand in front of the address.
  have hwritten : (buffer.write 0 data).ChangedAt (12 ≤ ·)
      ((buffer.write 0 data).write 12 ((to4 env.sourceIP).take 4)) :=
    .write _ fun _ hlow _ => hlow
  obtain ⟨hheader, -, hprotocol⟩ := IPv4Packet.header_of_changedAt hwritten
    fun _ hplace => Nat.le_trans (by decide) hplace
  refine sub_eq_ok_iff_length 12 4 ?_ ?_
  · rw [hsummed.cap_eq, Slice.cap_write]
    exact hroom
  · intro hlength index hindex
    have hip : (to4 env.sourceIP).take 4 = tunnel.sourceIP := by
      rw [serves.sourceIP_eq, to4, if_pos hlength, ← hlength, List.take_length]
    rw [hsummed.byte_eq _ (not_checksumPlaces_of_not_overlaps
        (by rw [Overlaps, hheader, hprotocol]; exact hcovered)
        (by omega) (by omega)), hip,
      Slice.byte_write_of_inside _ (by omega) (by omega) (by omega)]
    rw [Nat.add_sub_cancel_left]

theorem le_of_checksumPlaces {index : Nat}
    (h : IPv6Packet.ChecksumPlaces p index) : 40 ≤ index := by
  obtain ⟨transport, offset, hfound, -, hfield⟩ := h
  obtain ⟨found, hok, hbounds⟩ := IPv6Packet.transportHeader_ok p
  obtain rfl := Except.ok.inj (hok.symm.trans hfound)
  have := (hbounds transport rfl).2.1
  simp only [WordPlaces] at hfield
  omega

theorem genuine_iff_v6 (serves : Serves tunnel env)
    (hcap : data.length ≤ buffer.cap) (hdata : 24 ≤ buffer.cap)
    (hfill : fillPacket buffer (rewrite env) (.v6 p) data = .ok pkt) :
    Genuine tunnel pkt ↔ tunnel.sourceIP6.length = 16 := by
  have hroom : 24 ≤ (buffer.write 0 data).cap := by
    rwa [Slice.cap_write]
  obtain ⟨q, hrewrite, hq⟩ : ∃ q, rewrite env (.v6 (buffer.write 0 data)) = .ok (.v6 q) ∧
      q.cap = buffer.cap ∧ (tunnel.sourceIP6.length = 16 → ∀ index, index < 16 →
          q.byte (8 + index) = tunnel.sourceIP6.getD index 0) := by
    by_cases hip : tunnel.sourceIP6 = []
    · have hnone : env.sourceIP6 = none := by
        rw [serves.sourceIP6_eq, if_pos hip]
      refine ⟨buffer.write 0 data, by simp only [rewrite, hnone]; rfl,
        Slice.cap_write .., fun hlength => ?_⟩
      rw [hip] at hlength
      cases hlength
    · have hsome : env.sourceIP6 = some tunnel.sourceIP6 := by
        rw [serves.sourceIP6_eq, if_neg hip]
      refine ⟨_, rewrite_v6 hroom hsome, ?_, fun hlength index hindex => ?_⟩
      · rw [Slice.cap_write, Slice.cap_write]
      · have hfull : (to16 tunnel.sourceIP6).take 16 = tunnel.sourceIP6 := by
          rw [to16, if_neg (by omega), if_pos hlength, ← hlength, List.take_length]
        rw [hfull, Slice.byte_write_of_inside _ (by omega) (by omega)
          (by omega), Nat.add_sub_cancel_left]
  rw [fillPacket_eq _ _ hcap hrewrite] at hfill
  obtain ⟨r, hupdate, hpkt⟩ := bind_eq_ok.1 hfill
  obtain rfl := Except.ok.inj hpkt
  have hsummed := IPv6Packet.changedAt_updateChecksum hupdate
  refine sub_eq_ok_iff_length 8 16 ?_ ?_
  · rw [hsummed.cap_eq, hq.1]
    exact hdata
  · intro hlength index hindex
    rw [hsummed.byte_eq _ fun h => absurd (le_of_checksumPlaces h) (by omega)]
    exact hq.2 hlength index hindex

theorem genuine_iff (serves : Serves tunnel env) (hdelivers : Delivers env inbound pending prePkt)
    (hcovered : ¬ Covered (env.buffer inbound.taken) (pending.take prePkt.statedLength) prePkt)
    (hfill : fillPacket (env.buffer inbound.taken) (rewrite env) prePkt
      (pending.take prePkt.statedLength) = .ok pkt) :
    Genuine tunnel pkt ↔ Assigned tunnel prePkt := by
  have hfits := Nat.le_trans hdelivers.fits (env.mtu_le_cap inbound.taken)
  have hcap : (pending.take prePkt.statedLength).length ≤ (env.buffer inbound.taken).cap := by
    rwa [List.length_take_of_le hdelivers.complete]
  cases prePkt with
  | v4 p =>
    exact genuine_iff_v4 serves hcap (env.header_le_len inbound.taken) hcovered hfill
  | v6 p =>
    refine genuine_iff_v6 serves hcap ?_ hfill
    have hstated : 40 ≤ (IPPacket.v6 p).statedLength := Nat.le_add_left ..
    omega

theorem extract_cases {after : Inbound} {rest : Bytes}
    (hextract : extract env inbound pending = .ok (some (after, rest))) :
    after.queue = inbound.queue ∨ ∃ prePkt pkt, Delivers env inbound pending prePkt ∧
        fillPacket (env.buffer inbound.taken) (rewrite env) prePkt
          (pending.take prePkt.statedLength) = .ok pkt ∧
        after.queue = inbound.queue ++ [pkt] := by
  by_cases hlen : pending.length < 20
  · cases (extract_of_short hlen).symm.trans hextract
  have hheader : 20 ≤ pending.length := by omega
  cases hhead : headPacket pending with
  | none =>
    cases (extract_of_none hheader hhead).symm.trans hextract
  | some prePkt =>
    rw [extract_of_some hheader hhead] at hextract
    split at hextract
    · cases hextract
    split at hextract
    · obtain ⟨-, -, hafter⟩ := bind_eq_ok.1 hextract
      cases hafter
      exact .inl rfl
    obtain ⟨pkt, hfill, hafter⟩ := bind_eq_ok.1 hextract
    cases hafter
    cases haccepts : env.accepts inbound.taken with
    | false => exact .inl rfl
    | true =>
      refine .inr ⟨prePkt, pkt, ⟨hheader, hhead, ?_, ?_, haccepts⟩, hfill, rfl⟩ <;> omega

theorem genuine_of_extract {after : Inbound} {rest : Bytes} (serves : Serves tunnel env)
    (hqueue : ∀ pkt ∈ inbound.queue, Genuine tunnel pkt)
    (trusted : Trusted tunnel env inbound pending)
    (hextract : extract env inbound pending = .ok (some (after, rest))) :
    ∀ pkt ∈ after.queue, Genuine tunnel pkt := by
  obtain heq | ⟨prePkt, added, hdelivers, hfill, heq⟩ := extract_cases hextract
  · rwa [heq]
  · obtain ⟨hassigned, hcovered⟩ := trusted prePkt hdelivers
    intro pkt hpkt
    rw [heq, List.mem_append, List.mem_singleton] at hpkt
    obtain hpkt | rfl := hpkt
    · exact hqueue pkt hpkt
    · exact (genuine_iff serves hdelivers hcovered hfill).2 hassigned

/-- Whatever a client sends, in whatever pieces, the packets its handler puts on
the queue carry an address of the client if every iteration is trusted; and a
packet that no checksum covers carries it exactly then. -/
theorem genuine_of_trusted_run (tunnel : ClientTunnel) (env : Env)
    (serves : Serves tunnel env) {inputs : List Input}
    {last : Except Fault (Reader Inbound)}
    (run : Run (step readBufferSize (extract env))
      (HandledAt (Trusted tunnel env)) (start .empty) inputs last) :
    ∀ reader, last = .ok reader → (∀ pkt ∈ reader.state.queue, Genuine tunnel pkt) ∧
      ∀ after rest prePkt pkt, extract env reader.state reader.pending = .ok (some (after, rest)) →
        after.queue = reader.state.queue ++ [pkt] →
        Delivers env reader.state reader.pending prePkt →
        ¬ Covered (env.buffer reader.state.taken) (reader.pending.take prePkt.statedLength) prePkt →
        (Genuine tunnel pkt ↔
          Trusted tunnel env reader.state reader.pending) := by
  intro reader hreader
  refine ⟨state_of_handled_run run (by simp [Inbound.empty]) (fun _ _ _ _ hqueue trusted hextract =>
      genuine_of_extract serves hqueue trusted hextract) reader hreader, ?_⟩
  intro after rest prePkt pkt hextract hqueue hdelivers hcovered
  obtain heq | ⟨found, added, hfound, hfill, heq⟩ := extract_cases hextract
  · rw [heq] at hqueue
    simp at hqueue
  · obtain rfl := Option.some.inj (hdelivers.head.symm.trans hfound.head)
    obtain rfl : pkt = added := by
      simpa using hqueue.symm.trans heq
    rw [genuine_iff serves hdelivers hcovered hfill]
    constructor
    · intro hassigned other hother
      obtain rfl := Option.some.inj (hdelivers.head.symm.trans hother.head)
      exact ⟨hassigned, hcovered⟩
    · exact fun trusted => (trusted prePkt hdelivers).1

def handlerOf (tunnel : ClientTunnel) : Env where
  mtu := 64
  sourceIP := tunnel.sourceIP
  sourceIP6 := if tunnel.sourceIP6 = [] then none else some tunnel.sourceIP6
  buffer := fun _ => blank 64
  mtu_le_cap := fun _ => Nat.le_of_eq List.length_replicate.symm
  header_le_len := fun _ => by decide
  accepts := fun _ => true

theorem exists_delivered {env : Env} {pending : Bytes}
    (h : ((extract env .empty pending).toOption.join.map
      fun found => found.1.queue.length) = some 1) :
    ∃ after rest pkt, extract env .empty pending = .ok (some (after, rest)) ∧
      after.queue = [pkt] := by
  cases hextract : extract env .empty pending with
  | error fault => simp [hextract, Except.toOption] at h
  | ok found =>
    cases found with
    | none => simp [hextract, Except.toOption] at h
    | some found =>
      simp only [hextract, Except.toOption, Option.join_some,
        Option.map_some, Option.some.injEq] at h
      obtain ⟨pkt, hqueue⟩ := List.length_eq_one_iff.1 h
      exact ⟨found.1, found.2, pkt, rfl, hqueue⟩

theorem genuine_of_trusted_run_datagram6 :
    ∃ after rest pkt, extract (handlerOf firstTunnel) .empty datagram6 = .ok (some (after, rest)) ∧
      after.queue = [pkt] ∧ Genuine firstTunnel pkt := by
  have hlength : ((extract (handlerOf firstTunnel) .empty
      datagram6).toOption.join.map fun found => found.1.queue.length) =
        some 1 := by
    decide +kernel
  obtain ⟨after, rest, pkt, hextract, hqueue⟩ := exists_delivered hlength
  have hhead : headPacket datagram6 = some (.v6 (Slice.ofBytes datagram6)) := by decide +kernel
  have hdelivers : Delivers (handlerOf firstTunnel) .empty datagram6
      (.v6 (Slice.ofBytes datagram6)) :=
    ⟨by decide, hhead, by decide +kernel, by decide +kernel, rfl⟩
  have hiff := (genuine_of_trusted_run firstTunnel (handlerOf firstTunnel) ⟨rfl, rfl⟩
    (run_read (fun h => by cases h) (by decide)) _ rfl).2 after rest
      (.v6 (Slice.ofBytes datagram6)) pkt hextract hqueue hdelivers
      (not_covered_v6 _ _ _)
  refine ⟨after, rest, pkt, hextract, hqueue, hiff.2 fun prePkt hother => ?_⟩
  obtain rfl := Option.some.inj (hhead.symm.trans hother.head)
  exact ⟨rfl, not_covered_v6 _ _ _⟩

def queueOf : Except Fault (Reader Inbound) → List IPPacket
  | .ok reader => reader.state.queue
  | .error _ => []

def secondTunnel : ClientTunnel := ⟨[10, 8, 0, 3], []⟩

theorem exists_not_genuine : (∃ state, Run State.step (fun _ _ => True) (newState dualStack)
        [0, 1, 0, 1, 0, 0, 1, 1] state ∧
      state.tunnels 1 = .running secondTunnel) ∧
    ∃ last, Run (step readBufferSize (extract (handlerOf secondTunnel)))
        (fun _ _ => True) (start .empty) [.read datagram6, .extract] last ∧
      ∃ pkt ∈ queueOf last, ¬ Genuine secondTunnel pkt :=
  ⟨Run.exists_of_exec _ _ _ _ _ (by decide +kernel),
    Run.exists_of_exec _ _ _ _ _ (by decide +kernel)⟩

/-! An ICMP packet that states a header of twelve bytes gets its checksum where
the source address is, whatever addresses the client has. -/

def shortHeader : Bytes := [0x43, 0, 0, 28, 0, 1, 0x40, 0, 64, 1, 0, 0, 10, 0, 0, 1, 10, 0, 0, 2] ++
    [8, 0, 0, 0, 0, 7, 0, 1]

example : ∃ last, Run (step readBufferSize (extract (handlerOf firstTunnel)))
        (fun _ _ => True) (start .empty) [.read shortHeader, .extract] last ∧
      ∃ pkt ∈ queueOf last, ¬ Genuine firstTunnel pkt :=
  Run.exists_of_exec _ _ _ _ _ (by decide +kernel)

end Pig.Tunnel.Server
