import Pig.Tunnel.Progress

namespace Pig.Tunnel

open Go Network Reassembly

/-! Packets of any length, some of them longer than the MTU: which iterations
of the two loops discard exactly these and deliver the others. -/

/-- A header of a known version that states the length of the packet, which may
be a fragment. -/
structure Headed (frame : Bytes) : Prop where
  length_ge : 20 ≤ frame.length
  head : ∃ sent, headPacket frame = some sent ∧ sent.statedLength = frame.length

variable {frame : Bytes}

theorem WellFormed.headed (hframe : WellFormed frame) : Headed frame :=
  ⟨hframe.head.1, hframe.head.2⟩

section

variable {extract : Inbound → Bytes → Checked (Option (Inbound × Bytes))}
  {handled : Inbound → Bytes → Prop} {accepts : Nat → Bool} {mtu : Nat}
  {addressPlaces : IPPacket → Nat → Prop} {pending : Bytes} {inbound : Inbound}

/-- An iteration as it should be: it waits for a read that has room, or takes
one packet off the data and puts it on the queue unless it is too long. -/
inductive Extracts
    (extract : Inbound → Bytes → Checked (Option (Inbound × Bytes)))
    (addressPlaces : IPPacket → Nat → Prop) (mtu : Nat) (inbound : Inbound)
    (pending : Bytes) : Prop
  | waits (hextract : extract inbound pending = .ok none) (hroom : pending.length < readBufferSize)
  | delivers {after : Inbound} {frame rest : Bytes} {pkt : IPPacket}
      (hpending : pending = frame ++ rest) (hnonempty : 0 < frame.length)
      (hextract : extract inbound pending = .ok (some (after, rest)))
      (hmtu : frame.length ≤ mtu) (hcarries : Carries addressPlaces frame pkt)
      (hqueue : after.queue = inbound.queue ++ [pkt])
  | discards {after : Inbound} {frame rest : Bytes}
      (hpending : pending = frame ++ rest) (hnonempty : 0 < frame.length)
      (hextract : extract inbound pending = .ok (some (after, rest)))
      (hmtu : mtu < frame.length) (hqueue : after.queue = inbound.queue)

def QueueHasRoom (accepts : Nat → Bool) (mtu : Nat) (inbound : Inbound) (pending : Bytes) : Prop :=
  ∀ prePkt, 20 ≤ pending.length → headPacket pending = some prePkt → prePkt.statedLength ≤
  pending.length → prePkt.statedLength ≤ mtu → accepts inbound.taken = true

/-- What a loop does with a packet when it finds the data handled. -/
structure Treats
    (extract : Inbound → Bytes → Checked (Option (Inbound × Bytes)))
    (handled : Inbound → Bytes → Prop) (accepts : Nat → Bool) (mtu : Nat)
    (addressPlaces : IPPacket → Nat → Prop) (frame : Bytes) : Prop where
  waits : ∀ inbound part, handled inbound part → part <+: frame → part.length < frame.length →
    extract inbound part = .ok none ∧ part.length < readBufferSize
  discards : mtu < frame.length → ∀ inbound rest, handled inbound (frame ++ rest) →
    extract inbound (frame ++ rest) = .ok (some (inbound, rest))
  fills : frame.length ≤ mtu → ∀ inbound rest, handled inbound (frame ++ rest) →
    ∃ pkt, Carries addressPlaces frame pkt ∧ extract inbound (frame ++ rest) =
        .ok (some (inbound.enqueue (accepts inbound.taken) pkt, rest))

theorem accepts_of_queueHasRoom {rest : Bytes} (hframe : Headed frame)
    (hroom : QueueHasRoom accepts mtu inbound (frame ++ rest))
    (hmtu : frame.length ≤ mtu) : accepts inbound.taken = true := by
  obtain ⟨hlen, sent, hhead, hstated⟩ := hframe
  obtain ⟨hhead', hstated'⟩ := headPacket_append hlen hhead rest
  refine hroom _ ?_ hhead' ?_ ?_
  · rw [List.length_append]
    omega
  · rw [hstated', hstated, List.length_append]
    omega
  · rw [hstated', hstated]
    exact hmtu

def Kept (addressPlaces : IPPacket → Nat → Prop) (mtu : Nat) (done : List Bytes) (inbound : Inbound)
  : Prop := List.Forall₂ (Carries addressPlaces) (done.filter (·.length ≤ mtu)) inbound.queue

theorem Kept.extended {done : List Bytes} {after : Inbound} (kept : Kept addressPlaces mtu done
    inbound) (hqueue : frame.length ≤ mtu → ∃ pkt, Carries addressPlaces frame pkt ∧ after.queue =
    inbound.queue ++ [pkt]) (hdiscarded : mtu < frame.length → after.queue = inbound.queue) :
    Kept addressPlaces mtu (done ++ [frame]) after := by
  rw [Kept, List.filter_append]
  by_cases hmtu : frame.length ≤ mtu
  · obtain ⟨pkt, hcarries, hafter⟩ := hqueue hmtu
    rw [hafter, List.filter_singleton, decide_eq_true hmtu, cond_true]
    exact List.rel_append kept (.cons hcarries .nil)
  · rw [hdiscarded (by omega), List.filter_singleton, decide_eq_false hmtu,
      cond_false, List.append_nil]
    exact kept

theorem Treats.recognisesIf (hframe : Headed frame)
    (treats : Treats extract handled accepts mtu addressPlaces frame) :
    RecognisesIf extract (fun inbound pending => handled inbound pending ∧ QueueHasRoom accepts mtu
      inbound pending) (Kept addressPlaces mtu) frame where
  nonempty := Nat.lt_of_lt_of_le (by decide) hframe.length_ge
  complete := by
    rintro done inbound rest kept ⟨hhandled, hroom⟩
    by_cases hmtu : frame.length ≤ mtu
    · obtain ⟨pkt, hcarries, hextract⟩ := treats.fills hmtu inbound rest hhandled
      refine ⟨_, hextract, kept.extended (fun _ => ⟨pkt, hcarries, ?_⟩)
        fun hlong => absurd hlong (by omega)⟩
      rw [Inbound.enqueue, accepts_of_queueHasRoom hframe hroom hmtu, if_pos rfl]
    · exact ⟨inbound, treats.discards (by omega) inbound rest hhandled,
        kept.extended (fun h => absurd h hmtu) fun _ => rfl⟩
  incomplete := fun inbound part hhandled hpart hshort =>
    (treats.waits inbound part hhandled.1 hpart hshort).1

theorem Extracts.progresses (extracts : Extracts extract addressPlaces mtu inbound pending) :
    Progresses readBufferSize extract inbound pending := by
  cases extracts with
  | waits hextract hroom => exact .waits hextract hroom
  | delivers hpending hnonempty hextract
  | discards hpending hnonempty hextract =>
    exact .consumes hextract (by rw [hpending, List.length_append]; omega)

theorem Extracts.accepts_of_fills {rest : Bytes} {pkt : IPPacket} (extracts : Extracts extract
    addressPlaces mtu inbound (frame ++ rest)) (hmtu : frame.length ≤ mtu)
    (hfill : extract inbound (frame ++ rest) = .ok (some (inbound.enqueue (accepts inbound.taken)
    pkt, rest))) :
    accepts inbound.taken = true := by
  cases extracts with
  | waits hextract => cases hfill.symm.trans hextract
  | delivers hpending hnonempty hextract hfits hcarries hqueue =>
    cases hfill.symm.trans hextract
    by_contra hfull
    simp [Inbound.enqueue, hfull] at hqueue
  | discards hpending hnonempty hextract hlong =>
    cases hfill.symm.trans hextract
    have hlength := congrArg List.length hpending
    rw [List.length_append, List.length_append] at hlength
    omega

variable {todo : List Bytes}

theorem part_or_whole (hpending : pending <+: (frame :: todo).flatten) :
    (pending <+: frame ∧ pending.length < frame.length) ∨ ∃ rest, pending = frame ++ rest := by
  by_cases hlength : pending.length < frame.length
  · exact .inl ⟨List.prefix_of_prefix_length_le hpending
      (List.prefix_append ..) (Nat.le_of_lt hlength), hlength⟩
  · obtain ⟨rest, hrest⟩ : frame <+: pending :=
      List.prefix_of_prefix_length_le (List.prefix_append ..) hpending (by omega)
    exact .inr ⟨rest, hrest.symm⟩

theorem extracts_iff (hprogress : ∀ {inbound pending}, Progresses readBufferSize extract inbound
    pending ↔ handled inbound pending) (hempty : ∀ inbound, extract inbound [] = .ok none)
    (hframes : ∀ frame ∈ todo, Headed frame ∧ Treats extract handled accepts mtu addressPlaces
    frame) (hpending : pending <+: todo.flatten) :
    Extracts extract addressPlaces mtu inbound pending ↔
      handled inbound pending ∧ QueueHasRoom accepts mtu inbound pending := by
  cases todo with
  | nil =>
    obtain rfl := List.prefix_nil.mp hpending
    have hroom : ([] : Bytes).length < readBufferSize := by decide
    refine iff_of_true (.waits (hempty inbound) hroom)
      ⟨hprogress.mp (.waits (hempty inbound) hroom), ?_⟩
    intro prePkt hlen
    exact absurd hlen (by decide)
  | cons frame todo =>
    obtain ⟨hframe, treats⟩ := hframes frame List.mem_cons_self
    have hpositive : 0 < frame.length := Nat.lt_of_lt_of_le (by decide) hframe.length_ge
    obtain ⟨hpart, hshort⟩ | ⟨rest, rfl⟩ := part_or_whole hpending
    · refine ⟨fun extracts => ⟨hprogress.mp extracts.progresses, ?_⟩, ?_⟩
      · obtain ⟨-, sent, hhead, hstated⟩ := hframe
        intro prePkt hlen hhead' hcomplete
        obtain ⟨hhead'', hstated'⟩ := headPacket_part hlen hpart hhead
        cases hhead''.symm.trans hhead'
        omega
      · rintro ⟨hhandled, -⟩
        obtain ⟨hextract, hroom⟩ := treats.waits _ _ hhandled hpart hshort
        exact .waits hextract hroom
    · constructor
      · intro extracts
        have hhandled := hprogress.mp extracts.progresses
        refine ⟨hhandled, ?_⟩
        obtain ⟨hlen, sent, hhead, hstated⟩ := hframe
        obtain ⟨hhead', hstated'⟩ := headPacket_append hlen hhead rest
        intro prePkt _ hfound _ hmtu
        cases hhead'.symm.trans hfound
        rw [hstated', hstated] at hmtu
        obtain ⟨pkt, -, hfill⟩ := treats.fills hmtu inbound rest hhandled
        exact extracts.accepts_of_fills hmtu hfill
      · rintro ⟨hhandled, hroom⟩
        by_cases hmtu : frame.length ≤ mtu
        · obtain ⟨pkt, hcarries, hfill⟩ := treats.fills hmtu inbound rest hhandled
          refine .delivers rfl hpositive hfill hmtu hcarries ?_
          rw [Inbound.enqueue, accepts_of_queueHasRoom hframe hroom hmtu, if_pos rfl]
        · exact .discards rfl hpositive
            (treats.discards (by omega) inbound rest hhandled) (by omega) rfl

/-- After the part `seen` of the stream of `frames`: no check failed, the queue
holds the packets that came whole and are not too long, what the handler waits
for is the rest of a packet, and the next iteration is as it should be exactly
if it meets the condition. -/
def Keeps (extract : Inbound → Bytes → Checked (Option (Inbound × Bytes)))
  (condition : Inbound → Bytes → Prop) (addressPlaces : IPPacket → Nat → Prop) (mtu : Nat)
  (frames : List Bytes) (seen : Bytes) (last : Checked (Reader Inbound)) : Prop := ∃ reader done
  todo, last = .ok reader ∧ frames = done ++ todo ∧ seen = done.flatten ++ reader.pending ∧ Kept
  addressPlaces mtu done reader.state ∧ (reader.reading = true → ∀ frame ∈ todo.head?,
  reader.pending.length < frame.length) ∧ (Extracts extract addressPlaces mtu reader.state
  reader.pending ↔ condition reader.state reader.pending)

theorem keeps_of_run {frames : List Bytes} {inputs : List Input} {last : Checked (Reader Inbound)}
    (hprogress : ∀ {inbound pending}, Progresses readBufferSize extract inbound pending ↔ handled
    inbound pending) (hempty : ∀ inbound, extract inbound [] = .ok none)
    (hframes : ∀ frame ∈ frames, Headed frame ∧ Treats extract handled accepts mtu addressPlaces
    frame) (run : Run (step readBufferSize extract) (HandledAt fun inbound pending => handled
    inbound pending ∧ QueueHasRoom accepts mtu inbound pending) (start Inbound.empty) inputs last)
    (hseen : received inputs <+: frames.flatten) :
    Keeps extract (fun inbound pending => handled inbound pending ∧ QueueHasRoom accepts mtu inbound
      pending) addressPlaces mtu frames (received inputs) last := by
  obtain ⟨reader, done, todo, hlast, rfl, framed⟩ := framed_of_handled_run run
    hseen .nil hempty fun frame hframe =>
      (hframes frame hframe).2.recognisesIf (hframes frame hframe).1
  exact ⟨reader, done, todo, hlast, rfl, framed.seen_eq, framed.state_delivered, framed.waiting,
    extracts_iff hprogress hempty (fun frame hframe => hframes frame
    (List.mem_append_right done hframe)) (framed.pending_isPrefix hseen)⟩

end

theorem Headed.whole (hframe : Headed frame) (rest : Bytes) :
    ∃ sent, headPacket frame = some sent ∧ sent.statedLength = frame.length ∧ 20 ≤
      (frame ++ rest).length ∧ headPacket (frame ++ rest) = some (sent.inBuffer
      (Slice.ofBytes (frame ++ rest))) ∧ (sent.inBuffer (Slice.ofBytes
      (frame ++ rest))).statedLength = frame.length := by
  obtain ⟨hlen, sent, hhead, hstated⟩ := hframe
  obtain ⟨hhead', hstated'⟩ := headPacket_append hlen hhead rest
  refine ⟨sent, hhead, hstated, ?_, hhead', hstated'.trans hstated⟩
  rw [List.length_append]
  omega

theorem Headed.part {part : Bytes} (hframe : Headed frame)
    (hpart : part <+: frame) (hlen : 20 ≤ part.length) :
    ∃ prePkt, headPacket part = some prePkt ∧ prePkt.statedLength = frame.length := by
  obtain ⟨-, sent, hhead, hstated⟩ := hframe
  obtain ⟨hhead', hstated'⟩ := headPacket_part hlen hpart hhead
  exact ⟨_, hhead', hstated'.trans hstated⟩

namespace Client

variable {env : Env}

theorem treats (hframe : Headed frame) :
    Treats (extract env) (fun _ pending => Handled env pending) env.accepts
      env.mtu addressPlaces frame where
  waits := by
    intro inbound part hhandled hpart hshort
    by_cases hlen : part.length < 20
    · exact ⟨extract_of_short hlen, Nat.lt_trans hlen (by decide)⟩
    · obtain ⟨prePkt, hhead, hstated⟩ := hframe.part hpart (by omega)
      obtain hlen' | ⟨found, hfound, -, hwhole, hroom⟩ := hhandled
      · exact absurd hlen' hlen
      · cases hhead.symm.trans hfound
        rw [hstated] at hwhole hroom
        have hmtu : ¬ env.mtu < frame.length := fun hlong =>
          absurd (hwhole hlong) (by omega)
        rw [extract_of_some (by omega) hhead, hstated, if_neg hmtu, if_pos hshort]
        exact ⟨rfl, hroom hshort⟩
  discards := by
    intro hmtu inbound rest _
    obtain ⟨sent, -, -, hlen, hhead, hstated⟩ := hframe.whole rest
    rw [extract_of_some hlen hhead, hstated, if_pos hmtu, Slice.dropFront_ofBytes
      (by rw [List.length_append]; omega), ok_bind, Slice.ofBytes, List.drop_left]
    rfl
  fills := by
    intro hmtu inbound rest _
    obtain ⟨sent, hsent, hlength, hlen, hhead, hstated⟩ := hframe.whole rest
    have hfilled : Succeeds (fillPacket (env.buffer inbound.taken) (rewrite env inbound.taken) sent
      frame) := succeeds_fillPacket inbound.taken hmtu
    obtain ⟨pkt, hfill⟩ := hfilled
    refine ⟨pkt, carries_of_fillPacket hframe.length_ge hsent hlength
      (Nat.le_trans hmtu (mtu_le_cap env _)) (rewritesAt _ sent (le_len_buffer env _))
      (addressBounds sent) hfill, ?_⟩
    rw [extract_of_some hlen hhead, hstated, if_neg (by omega),
      if_neg (by rw [List.length_append]; omega), List.take_left,
      List.drop_left, fillPacket_inBuffer, hfill]
    rfl

end Client

namespace Server

variable {env : Env}

theorem Handled.whole {inbound : Inbound} {rest : Bytes} {prePkt : IPPacket}
    (hhandled : Handled env inbound (frame ++ rest)) (hlen : 20 ≤ (frame ++ rest).length)
    (hhead : headPacket (frame ++ rest) = some prePkt) (hstated : prePkt.statedLength =
    frame.length) :
    (env.mtu < frame.length → Succeeds (describe prePkt)) ∧ (frame.length ≤ env.mtu → Succeeds
      (fillPacket (env.buffer inbound.taken) (rewrite env) prePkt frame)) := by
  have hle : prePkt.statedLength ≤ (frame ++ rest).length := by
    rw [hstated, List.length_append]
    omega
  obtain hshort | ⟨found, hfound, -, -, hcomplete⟩ := hhandled
  · exact absurd hshort (by omega)
  · cases hhead.symm.trans hfound
    obtain ⟨hdescribe, hsum⟩ := hcomplete hle
    rw [hstated] at hdescribe hsum
    refine ⟨fun hmtu => (succeeds_describe hlen hhead hle).mpr (hdescribe hmtu), fun hmtu => ?_⟩
    have hfill := (succeeds_fillPacket hhead hle (hstated ▸ hmtu)
      inbound.taken).mpr (by rw [hstated]; exact hsum hmtu)
    rwa [hstated, List.take_left] at hfill

theorem treats (hframe : Headed frame) :
    Treats (extract env) (Handled env) env.accepts env.mtu addressPlaces frame where
  waits := by
    intro inbound part hhandled hpart hshort
    by_cases hlen : part.length < 20
    · exact ⟨extract_of_short hlen, Nat.lt_trans hlen (by decide)⟩
    · obtain ⟨prePkt, hhead, hstated⟩ := hframe.part hpart (by omega)
      obtain hlen' | ⟨found, hfound, -, hroom, -⟩ := hhandled
      · exact absurd hlen' hlen
      · cases hhead.symm.trans hfound
        rw [hstated] at hroom
        rw [extract_of_some (by omega) hhead, hstated, if_pos hshort]
        exact ⟨rfl, hroom hshort⟩
  discards := by
    intro hmtu inbound rest hhandled
    obtain ⟨sent, -, -, hlen, hhead, hstated⟩ := hframe.whole rest
    obtain ⟨_, hdescribe⟩ := (hhandled.whole hlen hhead hstated).1 hmtu
    rw [extract_of_some hlen hhead, hstated, if_neg (by rw [List.length_append]; omega), if_pos
      hmtu, hdescribe, List.drop_left]
    rfl
  fills := by
    intro hmtu inbound rest hhandled
    obtain ⟨sent, hsent, hlength, hlen, hhead, hstated⟩ := hframe.whole rest
    obtain ⟨pkt, hfill⟩ := (hhandled.whole hlen hhead hstated).2 hmtu
    have hcap := Nat.le_trans hmtu (env.mtu_le_cap inbound.taken)
    refine ⟨pkt, ?_, ?_⟩
    · rw [fillPacket_inBuffer] at hfill
      exact carries_of_fillPacket hframe.length_ge hsent hlength hcap
        (rewritesAt (env.header_le_len _) (by rw [Slice.cap_write, hlength]; exact hcap))
        (addressBounds sent) hfill
    · rw [extract_of_some hlen hhead, hstated, if_neg (by rw [List.length_append]; omega), if_neg
        (by omega), List.take_left, List.drop_left, hfill]
      rfl

end Server

def Client.Skips (env : Client.Env) (inbound : Inbound) (pending : Bytes) : Prop :=
  Client.Handled env pending ∧ QueueHasRoom env.accepts env.mtu inbound pending

def Server.Skips (env : Server.Env) (inbound : Inbound) (pending : Bytes) : Prop :=
  Server.Handled env inbound pending ∧ QueueHasRoom env.accepts env.mtu inbound pending

/-- In a run whose iterations all meet the condition both sides discard the
packets that are too long and deliver the others in order, and in every state
reached the next iteration does so exactly if it meets the condition. -/
theorem oversized_discarded_iff {frames : List Bytes} (hframes : ∀ frame ∈ frames, Headed frame)
    {mtu : Nat} (client : Client.Env) (hclient : client.mtu = mtu) (server : Server.Env)
    (hserver : server.mtu = mtu) (inputs : List Input) (hseen : received inputs <+: frames.flatten)
    :
    (∀ last, Run (step readBufferSize (Client.extract client)) (HandledAt (Client.Skips client))
      (start Inbound.empty) inputs last → Keeps (Client.extract client) (Client.Skips client)
      Client.addressPlaces mtu frames (received inputs) last) ∧
    (∀ last, Run (step readBufferSize (Server.extract server)) (HandledAt (Server.Skips server))
      (start Inbound.empty) inputs last → Keeps (Server.extract server) (Server.Skips server)
      Server.addressPlaces mtu frames (received inputs) last) := by
  constructor
  · intro last run
    rw [← hclient]
    exact keeps_of_run Client.progresses_iff (fun _ => rfl)
      (fun frame hframe => ⟨hframes frame hframe, Client.treats (hframes frame hframe)⟩) run hseen
  · intro last run
    rw [← hserver]
    exact keeps_of_run Server.progresses_iff (fun _ => rfl)
      (fun frame hframe => ⟨hframes frame hframe, Server.treats (hframes frame hframe)⟩) run hseen

def longDatagram : Bytes := [0x45, 0, 0x05, 0xdd, 0, 1, 0x40, 0, 64, 17, 0, 0, 10, 0, 0, 1, 10, 0,
  0, 2] ++ [0, 53, 0, 54, 0x05, 0xc9, 0, 0] ++ List.replicate 1473 0

theorem wellFormed_longDatagram : WellFormed longDatagram :=
  .inl ⟨by decide +kernel, by decide +kernel, by decide +kernel,
    by decide +kernel, by decide +kernel⟩

theorem headed_samples : ∀ frame ∈ [longDatagram, datagram4], Headed frame := by
  intro frame hframe
  simp only [List.mem_cons, List.not_mem_nil, or_false] at hframe
  obtain rfl | rfl := hframe
  · exact wellFormed_longDatagram.headed
  · exact (wellFormed_datagrams datagram4 List.mem_cons_self).headed

theorem oversized_discarded_iff_longDatagram :
    Extracts (Client.extract sampleClient) Client.addressPlaces 1500 .empty
      (longDatagram ++ datagram4) ∧ Extracts (Server.extract sampleServer) Server.addressPlaces 1500
      .empty (longDatagram ++ datagram4) := by
  have hhead : headPacket (longDatagram ++ datagram4) =
      some (.v4 (Slice.ofBytes (longDatagram ++ datagram4))) := by
    decide +kernel
  have hstated : (IPPacket.v4 (Slice.ofBytes (longDatagram ++ datagram4))).statedLength = 1501 := by
    decide +kernel
  have hlength : (longDatagram ++ datagram4).length = 1529 := by
    decide +kernel
  have hseen : received [.read (longDatagram ++ datagram4)] <+:
      [longDatagram, datagram4].flatten := by
    simp [received, Input.chunk]
  have hroom : (longDatagram ++ datagram4).length ≤ readBufferSize := by
    rw [hlength]
    decide
  obtain ⟨hclient, hserver⟩ := oversized_discarded_iff headed_samples
    sampleClient rfl sampleServer rfl [.read (longDatagram ++ datagram4)] hseen
  constructor
  · obtain ⟨reader, done, todo, hreader, -, -, -, -, hiff⟩ :=
      hclient _ (run_read (fun h => by cases h) hroom)
    cases hreader
    refine hiff.mpr ⟨.inr ⟨_, hhead, ?_, ?_, ?_⟩, fun _ _ _ _ _ => rfl⟩
    · decide
    · rw [hstated, hlength]
      decide
    · rw [hstated, hlength]
      decide
  · obtain ⟨reader, done, todo, hreader, -, -, -, -, hiff⟩ :=
      hserver _ (run_read (fun h => by cases h) hroom)
    cases hreader
    refine hiff.mpr ⟨.inr ⟨_, hhead, ?_, ?_, fun _ => ⟨?_, ?_⟩⟩,
      fun _ _ _ _ _ => rfl⟩
    · decide
    · rw [hstated, hlength]
      decide
    · intro _ _
      change 24 ≤ (longDatagram ++ datagram4).length
      rw [hlength]
      decide
    · intro hmtu
      exact absurd hmtu (by decide)

/-- The client slices past the end of the data where the server waits. -/
theorem exists_not_discarded : WellFormed longDatagram ∧ sampleClient.mtu = sampleServer.mtu ∧
      sampleClient.mtu < longDatagram.length ∧ Run (step readBufferSize
      (Client.extract sampleClient)) (fun _ _ => True) (start .empty)
      [.read (longDatagram.take 20), .extract] (.error .sliceBounds) ∧ Run
      (step readBufferSize (Server.extract sampleServer)) (fun _ _ => True) (start .empty)
      [.read (longDatagram.take 20), .extract] (.ok ⟨.empty, longDatagram.take 20, true⟩) := by
  have hclient : Client.extract sampleClient .empty (longDatagram.take 20) =
      .error .sliceBounds := by
    decide +kernel
  have hserver : Server.extract sampleServer .empty (longDatagram.take 20) = .ok none := by
    decide +kernel
  refine ⟨wellFormed_longDatagram, rfl, by decide +kernel, ?_, ?_⟩
  · refine .next (run_read trivial (by decide +kernel)) trivial ?_
    simp [step, Reader.extract, hclient]
  · refine .next (run_read trivial (by decide +kernel)) trivial ?_
    simp [step, Reader.extract, hserver]

end Pig.Tunnel
