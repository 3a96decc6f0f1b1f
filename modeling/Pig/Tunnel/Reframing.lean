import Pig.Tunnel.Client
import Pig.Tunnel.Server

namespace Pig.Network

open Go

/-! Complete packets: lengths that agree with each other and with the data, and
a whole transport header. -/

namespace IPv4Packet

structure WellFormed (p : Slice) : Prop where
  version_eq : (p.byte 0 >>> 4).toNat = 4
  header_ge : 20 ≤ headerLen p
  transport_le : headerLen p + leastHeader (p.byte 9) ≤ p.len
  total_eq : wordAt p 2 = p.len
  unfragmented : p.byte 6 &&& 0x3f = 0 ∧ p.byte 7 = 0

end IPv4Packet

namespace IPv6Packet

def leastHeader (protocol : UInt8) : Nat :=
  if protocol = ipProtoTCP then 20 else 8

structure WellFormed (p : Slice) : Prop where
  version_eq : (p.byte 0 >>> 4).toNat = 6
  total_eq : wordAt p 4 + 40 = p.len
  transport_le : ∀ transport, transportHeader p = .ok (some transport) →
    leastHeader transport.protocol ≤ transport.transportLen

end IPv6Packet

end Pig.Network

namespace Pig.Tunnel

open Go Network Reassembly

def WellFormed (frame : Bytes) : Prop := IPv4Packet.WellFormed (Slice.ofBytes frame) ∨
    IPv6Packet.WellFormed (Slice.ofBytes frame)

/-- The packet `pkt` is `frame` in some buffer, apart from an address and the
checksums. -/
def Carries (addressPlaces : IPPacket → Nat → Prop) (frame : Bytes) (pkt : IPPacket) : Prop := ∃
  sent, headPacket frame = some sent ∧ pkt = sent.inBuffer pkt.slice ∧ frame.length ≤ pkt.slice.cap
  ∧ ∀ index, index < frame.length → ¬ addressPlaces sent index → ¬ sent.ChecksumPlaces index →
  pkt.slice.byte index = frame.getD index 0

section

variable {buffer : Slice} {rewrite : IPPacket → Checked IPPacket}
  {a : IPPacket → Nat → Prop} {p : Slice} {frame : Bytes}

theorem headPacket_of_wellFormed_v4 (hframe : IPv4Packet.WellFormed (Slice.ofBytes frame)) :
    headPacket frame = some (.v4 (Slice.ofBytes frame)) :=
  congrArg (IPPacket.ofVersion _) hframe.version_eq

theorem headPacket_of_wellFormed_v6 (hframe : IPv6Packet.WellFormed (Slice.ofBytes frame)) :
    headPacket frame = some (.v6 (Slice.ofBytes frame)) :=
  congrArg (IPPacket.ofVersion _) hframe.version_eq

theorem header_of_fill {q : Slice} {addresses : Nat → Prop} (hframeLen : 20 ≤ frame.length)
    (hcap : frame.length ≤ buffer.cap) (hchanged : (buffer.write 0 frame).ChangedAt addresses q)
    (haddress : ∀ index, addresses index → 10 ≤ index) :
    IPv4Packet.headerLen q = IPv4Packet.headerLen (Slice.ofBytes frame) ∧ wordAt q 2 = wordAt
      (Slice.ofBytes frame) 2 ∧ q.byte 9 = (Slice.ofBytes frame).byte 9 := by
  obtain ⟨hheaderLen, hwords, hprotocol⟩ := IPv4Packet.header_of_changedAt hchanged haddress
  rw [hheaderLen, hwords, hprotocol]
  have hbyte : ∀ index, index < 20 →
      (buffer.write 0 frame).byte index = (Slice.ofBytes frame).byte index :=
    fun index hindex => byte_write_data hcap (by omega)
  simp only [IPv4Packet.headerLen, wordAt]
  rw [hbyte 0 (by decide), hbyte 2 (by decide), hbyte (2 + 1) (by decide), hbyte 9 (by decide)]
  exact ⟨rfl, rfl, rfl⟩

def AddressBounds : IPPacket → Nat → Prop
  | .v4 _, index => 10 ≤ index
  | .v6 _, index => 8 ≤ index ∧ index < 40

variable {sent : IPPacket}

theorem Carries.of_changedAt {q r : Slice} {sums : Nat → Prop}
    (hhead : headPacket frame = some sent) (hcap : frame.length ≤ buffer.cap)
    (hchanged : (buffer.write 0 frame).ChangedAt (a sent) q) (hsummed : q.ChangedAt sums r)
    (hsums : ∀ index, sums index → sent.ChecksumPlaces index) :
    Carries a frame (sent.inBuffer r) := by
  have hslice := IPPacket.slice_inBuffer r sent
  refine ⟨sent, hhead, by rw [hslice], ?_, ?_⟩
  · rw [hslice, hsummed.cap_eq, hchanged.cap_eq, Slice.cap_write]
    exact hcap
  · intro index hindex hnotAddress hnotChecksum
    rw [hslice, hsummed.byte_eq index fun h => hnotChecksum (hsums index h),
      hchanged.byte_eq index hnotAddress, byte_write_data hcap hindex]

theorem carries_of_fillPacket {pkt : IPPacket} (hlen : 20 ≤ frame.length)
    (hhead : headPacket frame = some sent) (hstated : sent.statedLength = frame.length)
    (hcap : frame.length ≤ buffer.cap) (hrewrite : RewritesAt (a sent) rewrite
    (sent.inBuffer (buffer.write 0 frame))) (haddress : ∀ index, a sent index → AddressBounds sent
    index) (hfilled : fillPacket buffer rewrite sent frame = .ok pkt) : Carries a frame pkt := by
  obtain ⟨-, rfl⟩ | ⟨-, rfl⟩ := headPacket_cases hhead
  · obtain ⟨q, hchanged, hfill⟩ := fillPacket_v4 hcap hrewrite
    obtain ⟨hheaderLen, hwords, hprotocol⟩ := header_of_fill hlen hcap hchanged haddress
    obtain ⟨r, hupdate, ⟨⟩⟩ := bind_eq_ok.1 (hfill.symm.trans hfilled)
    refine Carries.of_changedAt hhead hcap hchanged
      (IPv4Packet.changedAt_updateChecksum hupdate) fun index h => ?_
    rw [IPv4Packet.ChecksumPlaces, hheaderLen, hprotocol] at h
    exact h
  · obtain ⟨q, hchanged, hfill⟩ := fillPacket_v6 hcap hrewrite
    have htotal : wordAt (Slice.ofBytes frame) 4 + 40 = frame.length := hstated
    have hbyte : ∀ index, index < frame.length → ¬ (8 ≤ index ∧ index < 40) →
        q.byte index = (Slice.ofBytes frame).byte index := by
      intro index hindex houtside
      rw [hchanged.byte_eq index fun hplace => houtside (haddress index hplace)]
      exact byte_write_data hcap hindex
    obtain ⟨r, hupdate, ⟨⟩⟩ := bind_eq_ok.1 (hfill.symm.trans hfilled)
    exact Carries.of_changedAt hhead hcap hchanged (IPv6Packet.changedAt_updateChecksum hupdate)
      fun index h => IPv6Packet.checksumPlaces_agree htotal.symm (fun place hplace => hbyte place
        (by omega) (by omega)) (fun place hlow hhigh => hbyte place hhigh (by omega)) h

theorem WellFormed.head (hframe : WellFormed frame) :
    20 ≤ frame.length ∧ ∃ sent, headPacket frame = some sent ∧
      sent.statedLength = frame.length := by
  have hlen : (Slice.ofBytes frame).len = frame.length := rfl
  obtain hv4 | hv6 := hframe
  · have hheader := hv4.header_ge
    have htransport := hv4.transport_le
    exact ⟨by omega, _, headPacket_of_wellFormed_v4 hv4, hv4.total_eq⟩
  · have htotal := hv6.total_eq
    exact ⟨by omega, _, headPacket_of_wellFormed_v6 hv6, htotal⟩

theorem checksumFits_of_wellFormed (hframe : IPv4Packet.WellFormed (Slice.ofBytes frame))
    (hcap : frame.length ≤ buffer.cap) :
    IPv4Packet.ChecksumFits (buffer.write 0 frame) := by
  have hheader := hframe.header_ge
  have htransport := hframe.transport_le
  have hframeLen : (Slice.ofBytes frame).len = frame.length := rfl
  obtain ⟨hheaderLen, hwords, hprotocol⟩ := header_of_fill (by omega) hcap
    (Slice.ChangedAt.rfl _) fun _ => (False.elim : False → _)
  intro htotal
  rw [hwords, hframe.total_eq] at htotal
  rw [hheaderLen, hprotocol]
  refine ⟨by omega, fun hicmp => ?_, fun htcp => ?_⟩
  · have hleast : IPv4Packet.leastHeader protocolICMP = 8 := by decide
    rw [hicmp, hleast] at htransport
    omega
  · have hleast : IPv4Packet.leastHeader protocolTCP = 20 := by decide
    rw [htcp, hleast] at htransport
    omega

theorem fillPacket_carries (hframe : WellFormed frame)
    (hhead : headPacket frame = some sent) (hcap : frame.length ≤ buffer.cap)
    (hlen : 20 ≤ buffer.len)
    (hrewrite : RewritesAt (a sent) rewrite (sent.inBuffer (buffer.write 0 frame)))
    (haddress : ∀ index, a sent index → AddressBounds sent index) :
    ∃ pkt, fillPacket buffer rewrite sent frame = .ok pkt ∧ Carries a frame pkt := by
  obtain ⟨hframeLen, found, hfound, hstated⟩ := hframe.head
  cases hhead.symm.trans hfound
  have hfilled : Succeeds (fillPacket buffer rewrite sent frame) := by
    obtain hv4 | hv6 := hframe
    · cases (headPacket_of_wellFormed_v4 hv4).symm.trans hhead
      exact (succeeds_fillPacket_v4 hcap hlen hrewrite haddress).2
        (checksumFits_of_wellFormed hv4 hcap)
    · cases (headPacket_of_wellFormed_v6 hv6).symm.trans hhead
      exact succeeds_fillPacket_v6 hcap hrewrite
  obtain ⟨pkt, hfill⟩ := hfilled
  exact ⟨pkt, hfill, carries_of_fillPacket hframeLen hhead hstated hcap hrewrite haddress hfill⟩

end

theorem headPacket_agree {left right : Bytes} {pkt : IPPacket} (hagree : ∀ index, index < 20 →
    left.getD index 0 = right.getD index 0) (hhead : headPacket left = some pkt) :
    headPacket right = some (pkt.inBuffer (Slice.ofBytes right)) ∧
      (pkt.inBuffer (Slice.ofBytes right)).statedLength = pkt.statedLength := by
  have hcases := headPacket_cases hhead
  rw [hagree 0 (by decide)] at hcases
  obtain ⟨hversion, rfl⟩ | ⟨hversion, rfl⟩ := hcases
  · refine ⟨congrArg (IPPacket.ofVersion _) hversion, ?_⟩
    simp only [IPPacket.inBuffer, IPPacket.statedLength, wordAt,
      Slice.byte_ofBytes, hagree 2 (by decide), hagree (2 + 1) (by decide)]
  · refine ⟨congrArg (IPPacket.ofVersion _) hversion, ?_⟩
    simp only [IPPacket.inBuffer, IPPacket.statedLength, wordAt,
      Slice.byte_ofBytes, hagree 4 (by decide), hagree (4 + 1) (by decide)]

theorem getD_of_isPrefix {short long : Bytes} {index : Nat}
    (hshort : short <+: long) (hindex : index < short.length) :
    short.getD index 0 = long.getD index 0 := by
  obtain ⟨rest, rfl⟩ := hshort
  simp only [List.getD_eq_getElem?_getD]
  rw [List.getElem?_append_left hindex]

theorem headPacket_append {frame : Bytes} {sent : IPPacket} (hlen : 20 ≤ frame.length)
    (hhead : headPacket frame = some sent) (rest : Bytes) :
    headPacket (frame ++ rest) = some (sent.inBuffer (Slice.ofBytes (frame ++ rest))) ∧
      (sent.inBuffer (Slice.ofBytes (frame ++ rest))).statedLength = sent.statedLength :=
  headPacket_agree (fun index hindex =>
    getD_of_isPrefix (List.prefix_append ..) (by omega)) hhead

theorem headPacket_part {frame part : Bytes} {sent : IPPacket} (hlen : 20 ≤ part.length)
    (hpart : part <+: frame) (hhead : headPacket frame = some sent) :
    headPacket part = some (sent.inBuffer (Slice.ofBytes part)) ∧
      (sent.inBuffer (Slice.ofBytes part)).statedLength = sent.statedLength :=
  headPacket_agree (fun index hindex =>
    (getD_of_isPrefix hpart (by omega)).symm) hhead

section

variable {buffer : Nat → Slice} {rewrite : Nat → IPPacket → Checked IPPacket} {accepts : Nat → Bool}
  {addressPlaces : IPPacket → Nat → Prop} {frame : Bytes}

def Fills (buffer : Nat → Slice) (rewrite : Nat → IPPacket → Checked IPPacket)
  (addressPlaces : IPPacket → Nat → Prop) (frame : Bytes) : Prop := ∀ index, ∃ sent pkt, headPacket
  frame = some sent ∧ fillPacket (buffer index) (rewrite index) sent frame = .ok pkt ∧ Carries
  addressPlaces frame pkt

def deliver (buffer : Nat → Slice) (rewrite : Nat → IPPacket → Checked IPPacket)
    (accepts : Nat → Bool) (inbound : Inbound) (frame : Bytes) : Inbound :=
  match headPacket frame with
  | none => inbound
  | some sent =>
    match fillPacket (buffer inbound.taken) (rewrite inbound.taken) sent frame with
    | .error _ => inbound
    | .ok pkt => inbound.enqueue (accepts inbound.taken) pkt

theorem deliver_eq {inbound : Inbound} {sent pkt : IPPacket} (hhead : headPacket frame = some sent)
    (hfill : fillPacket (buffer inbound.taken) (rewrite inbound.taken) sent frame = .ok pkt) :
    deliver buffer rewrite accepts inbound frame = inbound.enqueue (accepts inbound.taken) pkt := by
  simp only [deliver, hhead, hfill]

theorem foldl_deliver {frames : List Bytes} (hfills : ∀ frame ∈ frames, Fills buffer rewrite
    addressPlaces frame) (haccepts : ∀ index, accepts index = true) (inbound : Inbound) :
    ∃ queue, List.Forall₂ (Carries addressPlaces) frames queue ∧ (frames.foldl
      (deliver buffer rewrite accepts) inbound).queue = inbound.queue ++ queue := by
  induction frames generalizing inbound with
  | nil => exact ⟨[], .nil, by simp⟩
  | cons frame rest ih =>
    obtain ⟨sent, pkt, hhead, hfill, hcarries⟩ := hfills frame List.mem_cons_self inbound.taken
    obtain ⟨queue, hqueue, hfold⟩ := ih (fun other hother => hfills other
      (List.mem_cons_of_mem _ hother)) (inbound.enqueue (accepts inbound.taken) pkt)
    refine ⟨pkt :: queue, .cons hcarries hqueue, ?_⟩
    rw [List.foldl_cons, deliver_eq hhead hfill, hfold, Inbound.enqueue, haccepts]
    simp

theorem fillPacket_inBuffer {data : Bytes} (p q : Slice)
    (rewrite : IPPacket → Checked IPPacket) (pkt : IPPacket) :
    fillPacket p rewrite (pkt.inBuffer q) data = fillPacket p rewrite pkt data := by
  cases pkt <;> rfl

theorem recognises_of_fills {extract : Inbound → Bytes → Checked (Option (Inbound × Bytes))}
    (hframe : WellFormed frame) (hfills : Fills buffer rewrite addressPlaces frame)
    (hshort : ∀ inbound pending, pending.length < 20 → extract inbound pending = .ok none)
    (hextract : ∀ inbound pending prePkt, 20 ≤ pending.length →
      headPacket pending = some prePkt → prePkt.statedLength = frame.length →
      extract inbound pending = if pending.length < frame.length then .ok none else do
        let pkt ← fillPacket (buffer inbound.taken) (rewrite inbound.taken) prePkt
          (pending.take frame.length)
        return some (inbound.enqueue (accepts inbound.taken) pkt, pending.drop frame.length)) :
    Recognises extract (deliver buffer rewrite accepts) frame := by
  obtain ⟨hlen, sent, hhead, hstated⟩ := hframe.head
  refine ⟨by omega, fun inbound rest => ?_, fun inbound part hpart hless => ?_⟩
  · obtain ⟨found, pkt, hfound, hfill, -⟩ := hfills inbound.taken
    cases hhead.symm.trans hfound
    obtain ⟨hhead', hstated'⟩ := headPacket_append hlen hhead rest
    rw [hextract _ _ _ (by rw [List.length_append]; omega) hhead' (hstated'.trans hstated),
      if_neg (by rw [List.length_append]; omega), List.take_left, List.drop_left,
      fillPacket_inBuffer, hfill, deliver_eq hhead hfill]
    rfl
  · by_cases hheader : part.length < 20
    · exact hshort _ _ hheader
    · obtain ⟨hhead', hstated'⟩ := headPacket_part (by omega) hpart hhead
      rw [hextract _ _ _ (by omega) hhead' (hstated'.trans hstated), if_pos hless]

end

namespace Client

variable {env : Env} {frame : Bytes}

theorem rewritesAt (index : Nat) (pkt : IPPacket) {buffer : Slice} (hlen : 512 ≤ buffer.len) :
    RewritesAt (addressPlaces pkt) (rewrite env index) (pkt.inBuffer buffer) := by
  cases pkt with
  | v4 p => exact rewritesAt_v4 env index hlen
  | v6 p => exact rewritesAt_v6 env index hlen

theorem addressBounds (pkt : IPPacket) (index : Nat) (hplace : addressPlaces pkt index) :
    AddressBounds pkt index := by
  cases pkt with
  | v4 p => exact Nat.le_trans (by decide) hplace.1
  | v6 p => exact ⟨Nat.le_trans (by decide) hplace.1, hplace.2⟩

theorem fills (hframe : WellFormed frame) (hmtu : frame.length ≤ env.mtu) :
    Fills env.buffer (rewrite env) addressPlaces frame := by
  intro index
  obtain ⟨-, sent, hhead, -⟩ := hframe.head
  have hlen := le_len_buffer env index
  obtain ⟨pkt, hfill, hcarries⟩ := fillPacket_carries hframe hhead
    (Nat.le_trans hmtu (mtu_le_cap env index)) (by omega) (rewritesAt index sent hlen)
    (addressBounds sent)
  exact ⟨sent, pkt, hhead, hfill, hcarries⟩

theorem recognises (hframe : WellFormed frame) (hmtu : frame.length ≤ env.mtu) :
    Recognises (extract env) (deliver env.buffer (rewrite env) env.accepts) frame := by
  refine recognises_of_fills hframe (fills hframe hmtu) (fun _ _ => extract_of_short)
    fun inbound pending prePkt hlen hhead hstated => ?_
  rw [extract_of_some hlen hhead, hstated, if_neg (Nat.not_lt.2 hmtu)]

end Client

namespace Server

variable {env : Env} {frame : Bytes}

theorem rewritesAt {pkt : IPPacket} {buffer : Slice} (hlen : 20 ≤ buffer.len)
    (hstated : pkt.statedLength ≤ buffer.cap) :
    RewritesAt (addressPlaces pkt) (rewrite env) (pkt.inBuffer buffer) := by
  cases pkt with
  | v4 p => exact rewritesAt_v4 env hlen
  | v6 p =>
    rw [IPPacket.statedLength] at hstated
    exact rewritesAt_v6 env (by omega)

theorem addressBounds (pkt : IPPacket) (index : Nat) (hplace : addressPlaces pkt index) :
    AddressBounds pkt index := by
  cases pkt with
  | v4 p => exact Nat.le_trans (by decide) hplace.1
  | v6 p => exact ⟨hplace.1, Nat.lt_of_lt_of_le hplace.2 (by decide)⟩

theorem fills (hframe : WellFormed frame) (hmtu : frame.length ≤ env.mtu) :
    Fills env.buffer (fun _ => rewrite env) addressPlaces frame := by
  intro index
  obtain ⟨-, sent, hhead, hstated⟩ := hframe.head
  have hlen := env.header_le_len index
  have hcap := Nat.le_trans hmtu (env.mtu_le_cap index)
  obtain ⟨pkt, hfill, hcarries⟩ := fillPacket_carries hframe hhead hcap hlen
    (rewritesAt hlen (by rw [Slice.cap_write, hstated]; exact hcap)) (addressBounds sent)
  exact ⟨sent, pkt, hhead, hfill, hcarries⟩

theorem recognises (hframe : WellFormed frame) (hmtu : frame.length ≤ env.mtu) :
    Recognises (extract env)
      (deliver env.buffer (fun _ => rewrite env) env.accepts) frame := by
  refine recognises_of_fills hframe (fills hframe hmtu) (fun _ _ => extract_of_short)
    fun inbound pending prePkt hlen hhead hstated => ?_
  rw [extract_of_some hlen hhead, hstated, if_neg (Nat.not_lt.2 hmtu)]

end Server

/-- For every way the frames arrive in chunks, the handler neither fails nor
runs out of room before the end, and after it the queue holds what was determined
beforehand, one packet for each frame. -/
def Reframes (extract : Inbound → Bytes → Checked (Option (Inbound × Bytes)))
  (addressPlaces : IPPacket → Nat → Prop) (frames : List Bytes) : Prop := ∃ delivered : Inbound,
  List.Forall₂ (Carries addressPlaces) frames delivered.queue ∧ ∀ inputs last, Run
  (step readBufferSize extract) (fun _ _ => True) (start Inbound.empty) inputs
  last → (received inputs <+: frames.flatten → ∃ reader, last = .ok reader ∧
  (reader.reading = true → reader.pending.length < readBufferSize)) ∧
  (received inputs = frames.flatten → ∃ more, received more = [] ∧ Run
  (step readBufferSize extract) (fun _ _ => True) last more (.ok ⟨delivered, [], true⟩))

theorem reframes_of_recognises {extract : Inbound → Bytes → Checked (Option (Inbound × Bytes))}
    {buffer : Nat → Slice} {rewrite : Nat → IPPacket → Checked IPPacket} {accepts : Nat → Bool}
    {addressPlaces : IPPacket → Nat → Prop} {frames : List Bytes} (hempty : ∀ inbound, extract
    inbound [] = .ok none) (hfills : ∀ frame ∈ frames, Fills buffer rewrite addressPlaces frame)
    (haccepts : ∀ index, accepts index = true) (hrecognises : ∀ frame ∈ frames,
    Recognises extract (deliver buffer rewrite accepts) frame)
    (hfit : ∀ frame ∈ frames, frame.length ≤ readBufferSize) :
    Reframes extract addressPlaces frames := by
  obtain ⟨queue, hqueue, hfold⟩ := foldl_deliver hfills haccepts Inbound.empty
  refine ⟨frames.foldl (deliver buffer rewrite accepts) Inbound.empty, ?_, ?_⟩
  · rw [hfold]
    exact hqueue
  · intro inputs last run
    exact ⟨fun hseen => room_of_run hempty hrecognises run hseen (by decide) hfit,
      delivers hempty hrecognises run⟩

theorem reframing_exact {frames : List Bytes} (hframes : ∀ frame ∈ frames, WellFormed frame) :
    (∀ env : Client.Env, env.mtu ≤ 65535 → (∀ index, env.accepts index = true) →
      (∀ frame ∈ frames, frame.length ≤ env.mtu) →
      Reframes (Client.extract env) Client.addressPlaces frames) ∧
    (∀ env : Server.Env, env.mtu ≤ 65535 → (∀ index, env.accepts index = true) →
      (∀ frame ∈ frames, frame.length ≤ env.mtu) →
      Reframes (Server.extract env) Server.addressPlaces frames) := by
  have hsize : 65535 ≤ readBufferSize := by decide
  constructor
  · intro env hmtu haccepts hfit
    exact reframes_of_recognises (fun _ => rfl) (fun frame hframe => Client.fills
      (hframes frame hframe) (hfit frame hframe)) haccepts (fun frame hframe => Client.recognises
      (hframes frame hframe) (hfit frame hframe)) fun frame hframe =>
        Nat.le_trans (hfit frame hframe) (Nat.le_trans hmtu hsize)
  · intro env hmtu haccepts hfit
    exact reframes_of_recognises (fun _ => rfl) (fun frame hframe => Server.fills
      (hframes frame hframe) (hfit frame hframe)) haccepts (fun frame hframe => Server.recognises
      (hframes frame hframe) (hfit frame hframe)) fun frame hframe =>
        Nat.le_trans (hfit frame hframe) (Nat.le_trans hmtu hsize)

def blank (size : Nat) : Slice :=
  ⟨List.replicate size 0, size, Nat.le_of_eq List.length_replicate.symm⟩

def sampleClient : Client.Env where
  mtu := 1500
  ip := [10, 0, 0, 2]
  ip6 := List.replicate 15 0 ++ [2]
  buffer := fun _ => blank 2048
  len_buffer := fun _ => rfl
  load := fun _ _ => none
  accepts := fun _ => true

def sampleServer : Server.Env where
  mtu := 1500
  sourceIP := [10, 0, 0, 2]
  sourceIP6 := some (List.replicate 15 0 ++ [2])
  buffer := fun _ => blank 1500
  mtu_le_cap := fun _ => Nat.le_of_eq List.length_replicate.symm
  header_le_len := fun _ => by decide
  accepts := fun _ => true

def datagram4 : Bytes := [0x45, 0, 0, 28, 0, 1, 0x40, 0, 64, 17, 0, 0, 10, 0, 0, 1, 10, 0, 0, 2] ++
    [0, 53, 0, 54, 0, 8, 0, 0]

def datagram6 : Bytes := [0x60, 0, 0, 0, 0, 8, 17, 64] ++ List.replicate 15 0 ++ [1] ++
    List.replicate 15 0 ++ [2] ++ [0, 53, 0, 54, 0, 8, 0, 0]

theorem wellFormed_datagrams : ∀ frame ∈ [datagram4, datagram6], WellFormed frame := by
  intro frame hframe
  simp only [List.mem_cons, List.not_mem_nil, or_false] at hframe
  obtain rfl | rfl := hframe
  · exact .inl ⟨by decide, by decide, by decide, by decide, by decide⟩
  · refine .inr ⟨by decide, by decide, ?_⟩
    have hheader : IPv6Packet.transportHeader (Slice.ofBytes datagram6) =
        .ok (some ⟨17, 40, 8⟩) := by decide
    intro transport htransport
    cases hheader.symm.trans htransport
    decide

theorem reframing_exact_datagrams : Reframes (Client.extract sampleClient) Client.addressPlaces
        [datagram4, datagram6] ∧
      Reframes (Server.extract sampleServer) Server.addressPlaces [datagram4, datagram6] :=
  ⟨(reframing_exact wellFormed_datagrams).1 sampleClient (by decide) (fun _ => rfl) (by decide),
    (reframing_exact wellFormed_datagrams).2 sampleServer (by decide) (fun _ => rfl) (by decide)⟩

end Pig.Tunnel
