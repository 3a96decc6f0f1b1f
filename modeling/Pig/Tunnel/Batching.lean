import Pig.Tunnel.Outbound
import Pig.Tunnel.Oversized

namespace Pig.Tunnel

open Go Network Custody

/-! What the loops of the connections hand to Write. Packets are collected in a
batch; a flush writes the batch, packet by packet if the connection asks for
it. -/

structure Call where
  data : Bytes
  written : Written
  deriving DecidableEq, Repr

namespace Call

def accepted (call : Call) : Bytes := call.data.take call.written.n.toNat

@[mk_iff]
structure Progresses (call : Call) : Prop where
  positive : 0 < call.written.n
  inside : call.written.n ≤ call.data.length
  error_ne : call.written.error ≠ some .other

instance (call : Call) : Decidable call.Progresses := decidable_of_iff' _ (progresses_iff call)

def Whole (call : Call) : Prop := call.data.length ≤ call.written.n

instance (call : Call) : Decidable call.Whole := inferInstanceAs (Decidable (_ ≤ _))

theorem accepted_of_whole {call : Call} (hwhole : call.Whole) : call.accepted = call.data := by
  have hle : (call.data.length : Int) ≤ call.written.n := hwhole
  exact List.take_of_length_le (by omega)

end Call

def flushBytesCalls : List Written → Bytes → List Call
  | [], _ => []
  | written :: writes, batch =>
    if batch = [] then []
    else ⟨batch, written⟩ ::
      if written.n < 0 ∨ batch.length < written.n ∨ written.error = some .other then []
      else flushBytesCalls writes (batch.drop written.n.toNat)

def flushPacketsCalls : List Written → Bytes → List Call
  | [], _ => []
  | written :: writes, batch =>
    if batch = [] then []
    else match frontLength batch with
      | none => []
      | some totalLen =>
        ⟨batch.take totalLen, written⟩ ::
          if written.error = some .other ∨ written.n < totalLen then []
          else flushPacketsCalls writes (batch.drop totalLen)

structure Flush where
  writes : List Written
  batch : Bytes
  deriving DecidableEq, Repr

namespace Flush

def result (atomic : Bool) (flush : Flush) : Flushed :=
  flushOutboundBatch atomic flush.writes flush.batch

def calls (atomic : Bool) (flush : Flush) : List Call :=
  if atomic then flushPacketsCalls flush.writes flush.batch
  else flushBytesCalls flush.writes flush.batch

structure Served (atomic : Bool) (flush : Flush) : Prop where
  returns : flush.result atomic ≠ .halted
  progresses : ∀ call ∈ flush.calls atomic, call.Progresses
  whole : atomic = true → ∀ call ∈ flush.calls atomic, call.Whole

end Flush

theorem flushBytes_done {writes : List Written} {batch : Bytes} (hreturns : flushBytes writes batch
    ≠ .halted) (hprogresses : ∀ call ∈ flushBytesCalls writes batch, call.Progresses) :
    ∃ rest, flushBytes writes batch = .done rest ∧
      (flushBytesCalls writes batch).flatMap Call.accepted = batch := by
  induction writes generalizing batch with
  | nil =>
    by_cases hempty : batch = []
    · exact ⟨[], if_pos hempty, hempty.symm⟩
    · exact absurd (if_neg hempty) hreturns
  | cons written writes ih =>
    by_cases hempty : batch = []
    · exact ⟨_, if_pos hempty, by rw [flushBytesCalls, if_pos hempty, hempty]; rfl⟩
    · rw [flushBytesCalls, if_neg hempty] at hprogresses ⊢
      obtain ⟨hpositive, hinside, herror⟩ := hprogresses _ List.mem_cons_self
      dsimp only at hpositive hinside herror
      have hrange : ¬ (written.n < 0 ∨ batch.length < written.n) := by omega
      rw [if_neg (by rw [← or_assoc]; exact not_or.mpr ⟨hrange, herror⟩)] at hprogresses ⊢
      rw [flushBytes, if_neg hempty, if_neg hrange, if_neg herror] at hreturns ⊢
      obtain ⟨rest, hdone, haccepted⟩ := ih hreturns (List.forall_mem_cons.mp hprogresses).2
      refine ⟨rest, hdone, ?_⟩
      rw [List.flatMap_cons, haccepted]
      exact List.take_append_drop _ _

theorem Headed.frontLength_append {frame : Bytes} (headed : Headed frame)
    (rest : Bytes) : frontLength (frame ++ rest) = some frame.length := by
  obtain ⟨hlen, sent, hhead, hstated⟩ := headed
  obtain ⟨hhead, hsame⟩ := headPacket_append hlen hhead rest
  have hlong : 20 ≤ (frame ++ rest).length := by
    rw [List.length_append]
    omega
  rw [frontLength, if_neg (by omega), peek_of_some hlong hhead]
  dsimp only
  rw [hsame, hstated, if_neg (by rw [List.length_append]; omega)]

section

variable {frame : Bytes} (headed : Headed frame) (written : Written)
  (writes : List Written) (rest : Bytes)

include headed

theorem Headed.append_ne_nil : frame ++ rest ≠ [] := by
  have hlen := headed.length_ge
  rw [← List.length_pos_iff, List.length_append]
  omega

theorem Headed.flushBatchAsPackets_nil : flushBatchAsPackets [] (frame ++ rest) = .halted := by
  rw [flushBatchAsPackets, if_neg (headed.append_ne_nil rest), headed.frontLength_append]

theorem Headed.flushPacketsCalls_cons : flushPacketsCalls (written :: writes) (frame ++ rest) =
      ⟨frame, written⟩ ::
        if written.error = some .other ∨ written.n < frame.length then []
        else flushPacketsCalls writes rest := by
  rw [flushPacketsCalls, if_neg (headed.append_ne_nil rest), headed.frontLength_append]
  dsimp only
  rw [List.take_left, List.drop_left]

end

theorem flushBatchAsPackets_done {frames : List Bytes} {writes : List Written}
    (hheaded : ∀ frame ∈ frames, Headed frame) (hreturns : flushBatchAsPackets writes frames.flatten
    ≠ .halted) (hprogresses : ∀ call ∈ flushPacketsCalls writes frames.flatten, call.Progresses)
    (hwhole : ∀ call ∈ flushPacketsCalls writes frames.flatten, call.Whole) :
    ∃ rest, flushBatchAsPackets writes frames.flatten = .done rest ∧
      (flushPacketsCalls writes frames.flatten).map Call.data = frames := by
  induction frames generalizing writes with
  | nil =>
    cases writes with
    | nil | cons written writes => exact ⟨_, rfl, rfl⟩
  | cons frame frames ih =>
    obtain ⟨headed, hothers⟩ := List.forall_mem_cons.mp hheaded
    rw [List.flatten_cons] at hreturns hprogresses hwhole ⊢
    cases writes with
    | nil => exact absurd (headed.flushBatchAsPackets_nil _) hreturns
    | cons written writes =>
      rw [headed.flushPacketsCalls_cons] at hprogresses hwhole ⊢
      have herror : ¬ written.error = some .other := (hprogresses _ List.mem_cons_self).error_ne
      have hall : ¬ written.n < frame.length := Int.not_lt.mpr (hwhole _ List.mem_cons_self)
      rw [if_neg (not_or.mpr ⟨herror, hall⟩)] at hprogresses hwhole ⊢
      rw [flushBatchAsPackets, if_neg (headed.append_ne_nil _),
        headed.frontLength_append] at hreturns ⊢
      dsimp only at hreturns ⊢
      rw [List.drop_left, if_neg herror, if_neg hall] at hreturns ⊢
      obtain ⟨rest, hdone, hdata⟩ := ih hothers hreturns (List.forall_mem_cons.mp
        hprogresses).2 (List.forall_mem_cons.mp hwhole).2
      exact ⟨rest, hdone, congrArg (frame :: ·) hdata⟩

def Moved (atomic : Bool) (frames : List Bytes) (calls : List Call) (kept : List Bytes) : Prop :=
  ∃ written, frames = written ++ kept ∧ calls.flatMap Call.accepted = written.flatten ∧
    (atomic = true → calls.map Call.data = written)

namespace Moved

variable {atomic : Bool} {frames kept rest : List Bytes} {calls later : List Call}

theorem none (atomic : Bool) (frames : List Bytes) : Moved atomic frames [] frames :=
  ⟨[], rfl, rfl, fun _ => rfl⟩

theorem append (moved : Moved atomic frames calls kept) (more : List Bytes) :
    Moved atomic (frames ++ more) calls (kept ++ more) := by
  obtain ⟨written, rfl, haccepted, hdata⟩ := moved
  exact ⟨written, List.append_assoc .., haccepted, hdata⟩

theorem trans (moved : Moved atomic frames calls kept) (after : Moved atomic kept later rest) :
    Moved atomic frames (calls ++ later) rest := by
  obtain ⟨written, rfl, haccepted, hdata⟩ := moved
  obtain ⟨next, rfl, hnext, hlater⟩ := after
  refine ⟨written ++ next, (List.append_assoc ..).symm, ?_, fun hatomic => ?_⟩
  · rw [List.flatMap_append, haccepted, hnext, List.flatten_append]
  · rw [List.map_append, hdata hatomic, hlater hatomic]

end Moved

def Separable (atomic : Bool) (frames : List Bytes) : Prop :=
  atomic = true → ∀ frame ∈ frames, Headed frame

theorem Moved.separable {atomic : Bool} {frames kept : List Bytes}
    {calls : List Call} (moved : Moved atomic frames calls kept)
    (hseparable : Separable atomic frames) : Separable atomic kept := by
  obtain ⟨written, rfl, -⟩ := moved
  exact fun hatomic _ hframe => hseparable hatomic _ (List.mem_append_right _ hframe)

section

variable {atomic : Bool} {frames kept : List Bytes} {writes : List Written}

theorem flushOutboundBatch_moves (hseparable : Separable atomic frames)
    (hserved : Flush.Served atomic ⟨writes, frames.flatten⟩) :
    ∃ rest, flushOutboundBatch atomic writes frames.flatten = .done rest ∧
      Moved atomic frames (Flush.calls atomic ⟨writes, frames.flatten⟩) [] := by
  obtain ⟨hreturns, hprogresses, hwhole⟩ := hserved
  cases atomic with
  | false =>
    obtain ⟨rest, hdone, haccepted⟩ := flushBytes_done hreturns hprogresses
    exact ⟨rest, hdone, frames, (List.append_nil _).symm, haccepted,
      fun hatomic => absurd hatomic Bool.false_ne_true⟩
  | true =>
    obtain ⟨rest, hdone, hdata⟩ := flushBatchAsPackets_done
      (hseparable rfl) hreturns hprogresses (hwhole rfl)
    refine ⟨rest, hdone, frames, (List.append_nil _).symm, ?_, fun _ => hdata⟩
    rw [List.flatMap_def, List.map_congr_left fun call hcall => Call.accepted_of_whole
        (hwhole rfl call hcall)]
    exact congrArg List.flatten hdata

def roomFlushes (batch : Bytes) (writes : List Written) (totalLen : Nat) : List Flush :=
  if maxBatchSize < batch.length + totalLen then [⟨writes, batch⟩] else []

def fullFlushes (batch : Bytes) (writes : List Written) : List Flush :=
  if maxBatchSize ≤ batch.length then [⟨writes, batch⟩] else []

theorem makeRoom_moves {totalLen : Nat} (hseparable : Separable atomic kept)
    (hserved : ∀ flush ∈ roomFlushes kept.flatten writes totalLen, flush.Served atomic) :
    ∃ rest writes', makeRoom atomic kept.flatten writes totalLen = pure (rest.flatten, writes') ∧
      Moved atomic kept ((roomFlushes kept.flatten writes totalLen).flatMap
        (Flush.calls atomic)) rest := by
  unfold makeRoom
  unfold roomFlushes at hserved ⊢
  split at hserved
  · next hlarge =>
      obtain ⟨rest, hdone, moved⟩ := flushOutboundBatch_moves hseparable
        (hserved _ List.mem_cons_self)
      rw [if_pos hlarge, if_pos hlarge, hdone]
      exact ⟨[], rest, rfl, by rwa [List.flatMap_singleton]⟩
  · next hsmall =>
      rw [if_neg hsmall, if_neg hsmall]
      exact ⟨kept, writes, rfl, .none _ _⟩

def Leaves (atomic : Bool) (batch : Bytes) (writes : List Written) (frames rest : List Bytes) :
    Prop :=
  (maxBatchSize ≤ batch.length ∧ rest = [] ∧ ∃ later, flushOutboundBatch atomic writes batch =
    .done later) ∨ ¬ maxBatchSize ≤ batch.length ∧ rest = frames

theorem fullFlushes_move (hseparable : Separable atomic frames)
    (hserved : ∀ flush ∈ fullFlushes frames.flatten writes, flush.Served atomic) :
    ∃ rest, Moved atomic frames ((fullFlushes frames.flatten writes).flatMap (Flush.calls atomic))
      rest ∧ Leaves atomic frames.flatten writes frames rest := by
  unfold fullFlushes at hserved ⊢
  split at hserved
  · next hfull =>
      obtain ⟨writes', hdone, moved⟩ := flushOutboundBatch_moves hseparable
        (hserved _ List.mem_cons_self)
      rw [if_pos hfull, List.flatMap_singleton]
      exact ⟨[], moved, .inl ⟨hfull, rfl, writes', hdone⟩⟩
  · next hroom =>
      rw [if_neg hroom]
      exact ⟨frames, .none _ _, .inr ⟨hroom, rfl⟩⟩

end

end Pig.Tunnel

namespace Pig.Network.IPPacket

def sent (pkt : IPPacket) : Bytes := pkt.slice.array.take pkt.statedLength

end Pig.Network.IPPacket

namespace Pig.Tunnel

open Go Network Custody

/-- A packet with a valid length, which can be told apart in a batch if it has
to be. -/
structure Sendable (atomic : Bool) (pkt : IPPacket) : Prop where
  total : pkt.totalLength = .ok pkt.statedLength
  positive : 0 < pkt.statedLength
  inside : pkt.statedLength ≤ pkt.slice.len
  separable : Separable atomic [pkt.sent]

namespace Sendable

variable {atomic : Bool} {pkt : IPPacket}

theorem valid (sendable : Sendable atomic pkt) :
    ¬ (pkt.statedLength = 0 ∨ pkt.slice.len < pkt.statedLength) := by
  have hpositive := sendable.positive
  have hinside := sendable.inside
  omega

theorem sub_eq (sendable : Sendable atomic pkt) : pkt.slice.sub 0 pkt.statedLength = .ok pkt.sent :=
  (pkt.slice.sub_eq_ok_iff).mpr ⟨⟨Nat.zero_le _,
    Nat.le_trans sendable.inside pkt.slice.len_le⟩, rfl⟩

end Sendable

def packetFlushes (atomic : Bool) (batch : Bytes) (writes : List Written)
    (pkt : IPPacket) : List Flush :=
  match pkt.totalLength with
  | .error _ => []
  | .ok totalLen =>
    if totalLen = 0 ∨ pkt.slice.len < totalLen then []
    else
      roomFlushes batch writes totalLen ++
        match (makeRoom atomic batch writes totalLen).result, pkt.slice.sub 0 totalLen with
        | some (batch, writes), .ok data => fullFlushes (batch ++ data) writes
        | _, _ => []

section

variable {atomic : Bool} {kept : List Bytes} {writes : List Written} {pkt : IPPacket}

theorem packetFlushes_move (hseparable : Separable atomic kept) (sendable : Sendable atomic pkt)
    (hserved : ∀ flush ∈ packetFlushes atomic kept.flatten writes pkt, flush.Served atomic) :
    ∃ room writes', makeRoom atomic kept.flatten writes pkt.statedLength = pure
      (room.flatten, writes') ∧ ∃ rest, Moved atomic (kept ++ [pkt.sent])
      ((packetFlushes atomic kept.flatten writes pkt).flatMap (Flush.calls atomic)) rest ∧
      Leaves atomic (room.flatten ++ pkt.sent) writes' (room ++ [pkt.sent]) rest := by
  simp only [packetFlushes, sendable.total, if_neg sendable.valid, sendable.sub_eq,
    List.forall_mem_append] at hserved ⊢
  obtain ⟨hroomServed, hfullServed⟩ := hserved
  obtain ⟨room, writes', hroom, moved⟩ := makeRoom_moves hseparable hroomServed
  rw [hroom] at hfullServed ⊢
  have hframes : (room ++ [pkt.sent]).flatten = room.flatten ++ pkt.sent := by
    simp
  have hboth : Separable atomic (room ++ [pkt.sent]) := by
    intro hatomic
    rw [List.forall_mem_append]
    exact ⟨moved.separable hseparable hatomic, sendable.separable hatomic⟩
  have hfullServed : ∀ flush ∈ fullFlushes (room ++ [pkt.sent]).flatten
      writes', flush.Served atomic := by
    rw [hframes]
    exact hfullServed
  obtain ⟨rest, after, hcases⟩ := fullFlushes_move hboth hfullServed
  rw [hframes] at after hcases
  refine ⟨room, writes', rfl, rest, ?_, hcases⟩
  rw [List.flatMap_append]
  exact (moved.append _).trans after

end

/-- The body of a loop moves each packet that it takes through the batch. -/
def Moves {State : Type} (atomic : Bool) (batch : State → Bytes) (Takes : IPPacket → Prop)
  (body : State → List Written → IPPacket → Handling State) : Prop := ∀ state kept writes pkt, batch
  state = kept.flatten → Separable atomic kept → Sendable atomic pkt → Takes pkt →
  (∀ flush ∈ packetFlushes atomic kept.flatten writes pkt, flush.Served atomic) → ∃ after rest,
  (body state writes pkt).result = some after ∧ batch after = rest.flatten ∧ Moved atomic
  (kept ++ [pkt.sent]) ((packetFlushes atomic kept.flatten writes pkt).flatMap (Flush.calls atomic))
  rest

theorem Server.processPacket_moves (atomic : Bool) :
    Moves atomic id (fun _ => True) (processPacket atomic) := by
  rintro _ kept writes pkt rfl hseparable sendable - hserved
  obtain ⟨room, writes', hroom, rest, moved, hcases⟩ :=
    packetFlushes_move hseparable sendable hserved
  refine ⟨rest.flatten, rest, ?_, rfl, moved⟩
  rw [processPacket, sendable.total, Handling.use_ok_bind,
    if_neg sendable.valid, hroom, Handling.pure_bind, sendable.sub_eq]
  dsimp only [Handling.use_ok_bind, Handling.release_bind]
  rcases hcases with ⟨hfull, rfl, later, hdone⟩ | ⟨hspace, rfl⟩
  · rw [if_pos hfull, hdone]
    rfl
  · rw [if_neg hspace, List.flatten_append, List.flatten_singleton]
    rfl

namespace Client

variable (sum64 : Bytes → UInt64) (ip : Bytes)

def Tracks (pkt : IPPacket) : Prop := ∀ p, pkt = .v4 p → Succeeds (newTuple pkt)

theorem trackOutbound_of_tracks {pkt : IPPacket} (tracks : Tracks pkt) (table : Conntrack) :
    ∃ after, (trackOutbound sum64 ip table pkt).result = some after := by
  cases pkt with
  | v4 p =>
    obtain ⟨tuple, htuple⟩ := tracks p rfl
    rw [trackOutbound, htuple]
    exact ⟨_, rfl⟩
  | v6 p => exact ⟨table, rfl⟩

theorem sendPacket_moves (atomic : Bool) :
    Moves atomic Prod.snd Tracks (sendPacket sum64 ip atomic) := by
  rintro ⟨table, _⟩ kept writes pkt rfl hseparable sendable tracks hserved
  obtain ⟨room, writes', hroom, rest, moved, hcases⟩ :=
    packetFlushes_move hseparable sendable hserved
  obtain ⟨after, hafter⟩ := trackOutbound_of_tracks sum64 ip tracks table
  refine ⟨(after, rest.flatten), rest, ?_, rfl, moved⟩
  rw [sendPacket, sendable.total, Handling.use_ok_bind, if_neg sendable.valid]
  refine Handling.bind_eq_some.mpr ⟨after, hafter, ?_⟩
  rw [hroom, Handling.pure_bind, sendable.sub_eq]
  dsimp only [Handling.use_ok_bind, Handling.release_bind]
  rcases hcases with ⟨hfull, rfl, later, hdone⟩ | ⟨hspace, rfl⟩
  · rw [if_pos hfull, hdone]
    rfl
  · rw [if_neg hspace, List.flatten_append, List.flatten_singleton]
    rfl

end Client

variable {State : Type}

theorem popPackets_work {state after : State} {round : Round}
    {idle : State → List Written → Option State} {pkts : List IPPacket}
    (hwork : popPackets idle state round = .work after pkts) :
    round.done = false ∧ round.closed = false ∧ (round.empty = true ∧ idle state round.writes = some
      after ∨ round.empty = false ∧ after = state) := by
  unfold popPackets at hwork
  split at hwork
  · cases hwork
  next hdone =>
  split at hwork
  · split at hwork <;> cases hwork
  next hclosed =>
  refine ⟨Bool.eq_false_iff.mpr hdone, Bool.eq_false_iff.mpr hclosed, ?_⟩
  split at hwork
  · next hempty =>
      split at hwork
      · next hidle _ =>
          cases hwork
          exact .inl ⟨hempty, hidle⟩
      · cases hwork
  · next hempty =>
      split at hwork
      · cases hwork
      · cases hwork
        exact .inr ⟨Bool.eq_false_iff.mpr hempty, rfl⟩

structure Batching (atomic : Bool) (State : Type) where
  loop : Loop State Round (List Written) IPPacket
  batch : State → Bytes
  idle : State → List Written → Option State
  Takes : IPPacket → Prop
  head_eq : loop.head = popPackets idle
  idle_flushes : ∀ state writes,
    (idle state writes).map batch = writeBatch atomic (batch state) writes
  body_moves : Moves atomic batch Takes loop.body

def Server.batching (atomic : Bool) : Batching atomic Bytes where
  loop := handleOutboundConn atomic
  batch := id
  idle := writeBatch atomic
  Takes := fun _ => True
  head_eq := rfl
  idle_flushes := fun _ _ => Option.map_id_apply
  body_moves := processPacket_moves atomic

def Client.batching (sum64 : Bytes → UInt64) (ip : Bytes) (atomic : Bool) :
    Batching atomic (Conntrack × Bytes) where
  loop := processOutboundConn sum64 ip atomic
  batch := Prod.snd
  idle := fun state writes =>
    (writeBatch atomic state.2 writes).map fun batch => (state.1, batch)
  Takes := Tracks
  head_eq := rfl
  idle_flushes := fun _ _ => (Option.map_map ..).trans Option.map_id_apply
  body_moves := sendPacket_moves sum64 ip atomic

section

def handedOut : Next State IPPacket → List IPPacket
  | .stop => []
  | .discard pkts => pkts
  | .work _ pkts => pkts

def putBack : Next State IPPacket → List IPPacket
  | .discard pkts => pkts
  | _ => []

variable {w : Worker State IPPacket}

theorem handedOut_eq (hpending : w.pending = []) (next : Next State IPPacket) :
    handedOut next = (w.proceed next).pending.map (·.1) ++ putBack next := by
  cases next with
  | stop | discard pkts => simp [handedOut, putBack, Worker.proceed, hpending]
  | work state pkts => simp [handedOut, putBack, Worker.proceed]

theorem work_of_running {next : Next State IPPacket} (hrunning : (w.proceed next).running = true) :
    putBack next = [] ∧ next = .work (w.proceed next).state (handedOut next) := by
  cases next with
  | stop | discard pkts => cases hrunning
  | work state pkts => exact ⟨rfl, rfl⟩

theorem pending_of_stopped {next : Next State IPPacket} (hrunning : w.running = true)
    (hpending : w.pending = []) (hstopped : (w.proceed next).running = false) :
    (w.proceed next).pending = [] := by
  cases next with
  | stop | discard pkts => exact hpending
  | work state pkts => exact absurd (hrunning.symm.trans hstopped) (by decide)

end

structure Observed (State : Type) where
  worker : Worker State IPPacket
  popped : List IPPacket
  discarded : List IPPacket
  calls : List Call
  batch : Bytes

namespace Batching

variable {atomic : Bool} (b : Batching atomic State)

def idleFlushes (state : State) (round : Round) : List Flush :=
  if round.done ∨ round.closed ∨ ¬ round.empty then []
  else [⟨round.writes, b.batch state⟩]

def flushesAt (w : Worker State IPPacket) : Event Round (List Written) → List Flush
  | .round round => b.idleFlushes w.state round
  | .item writes =>
    match w.pending with
    | [] => []
    | (pkt, _) :: _ => packetFlushes atomic (b.batch w.state) writes pkt

def poppedAt (w : Worker State IPPacket) : Event Round (List Written) → List IPPacket
  | .round round => handedOut (b.loop.head w.state round)
  | .item _ => []

def discardedAt (w : Worker State IPPacket) : Event Round (List Written) → List IPPacket
  | .round round => putBack (b.loop.head w.state round)
  | .item _ => []

def batchAfter (o : Observed State) (worker : Worker State IPPacket) :
    Event Round (List Written) → Bytes
  | .round round =>
    if b.idleFlushes o.worker.state round = [] then o.batch else []
  | .item _ => b.batch worker.state

def start (state : State) : Observed State where
  worker := .start state
  popped := []
  discarded := []
  calls := []
  batch := b.batch state

def observed (o : Observed State) (event : Event Round (List Written))
    (worker : Worker State IPPacket) : Observed State where
  worker := worker
  popped := o.popped ++ b.poppedAt o.worker event
  discarded := o.discarded ++ b.discardedAt o.worker event
  calls := o.calls ++ (b.flushesAt o.worker event).flatMap (Flush.calls atomic)
  batch := b.batchAfter o worker event

def observe (o : Observed State) (event : Event Round (List Written)) : Option (Observed State) :=
  (b.loop.step o.worker event).map (b.observed o event)

structure Served (o : Observed State) (event : Event Round (List Written)) :
    Prop where
  sendable : ∀ pkt ∈ b.poppedAt o.worker event, Sendable atomic pkt ∧ b.Takes pkt
  flushes : ∀ flush ∈ b.flushesAt o.worker event, flush.Served atomic

end Batching

namespace Observed

def pending (o : Observed State) : List IPPacket := o.worker.pending.map (·.1)

/-- The packets from the queue have been written in their order, but for those
in the batch, those still to be handled and those that a closed queue handed
out. A loop that has been left has handled them all. -/
structure Preserved (atomic : Bool) (o : Observed State) : Prop where
  stream : ∃ written kept, o.popped.map IPPacket.sent = written ++ kept ++ o.pending.map
    IPPacket.sent ++ o.discarded.map IPPacket.sent ∧ o.batch = kept.flatten ∧ o.calls.flatMap
    Call.accepted = written.flatten ∧ (atomic = true → o.calls.map Call.data = written)
  handled : o.worker.running = false → o.worker.pending = []

end Observed

namespace Batching

variable {atomic : Bool} {b : Batching atomic State}

variable {state : State}

theorem idle_moves {kept : List Bytes} {round : Round}
    (hbatch : b.batch state = kept.flatten) (hseparable : Separable atomic kept)
    (hserved : ∀ flush ∈ b.idleFlushes state round, flush.Served atomic) :
    ∃ rest, Moved atomic kept ((b.idleFlushes state round).flatMap (Flush.calls atomic)) rest ∧
      (if b.idleFlushes state round = [] then kept.flatten else []) = rest.flatten ∧ ∀ after pkts,
      b.loop.head state round = .work after pkts → b.batch after = rest.flatten := by
  rw [b.head_eq]
  unfold idleFlushes at hserved ⊢
  split at hserved
  · next hbusy =>
      rw [if_pos hbusy, if_pos rfl]
      refine ⟨kept, .none _ _, rfl, fun after pkts hwork => ?_⟩
      obtain ⟨hdone, hclosed, ⟨hempty, -⟩ | ⟨-, rfl⟩⟩ := popPackets_work hwork
      · simp [hdone, hclosed, hempty] at hbusy
      · exact hbatch
  · next hidle =>
      rw [hbatch] at hserved
      obtain ⟨writes, hdone, moved⟩ := flushOutboundBatch_moves hseparable
        (hserved _ List.mem_cons_self)
      rw [if_neg hidle, if_neg (List.cons_ne_nil _ _), hbatch, List.flatMap_singleton]
      refine ⟨[], moved, rfl, fun after pkts hwork => ?_⟩
      obtain ⟨-, -, ⟨-, hidled⟩ | ⟨hempty, -⟩⟩ := popPackets_work hwork
      · have hflushes := b.idle_flushes state round.writes
        rw [hidled, hbatch, writeBatch, hdone] at hflushes
        exact Option.some.inj hflushes
      · simp [hempty] at hidle

structure Exact (b : Batching atomic State) (o : Observed State) : Prop where
  moved : ∃ handled kept, o.popped.map IPPacket.sent = handled ++ o.pending.map IPPacket.sent ++
    o.discarded.map IPPacket.sent ∧ Separable atomic handled ∧ Moved atomic handled o.calls kept ∧
    o.batch = kept.flatten
  sendable : ∀ pkt ∈ o.pending, Sendable atomic pkt ∧ b.Takes pkt
  current : o.worker.running = true → b.batch o.worker.state = o.batch ∧ o.discarded = []
  handled : o.worker.running = false → o.worker.pending = []

theorem exact_start (hbatch : b.batch state = []) : b.Exact (b.start state) where
  moved := ⟨[], [], rfl, fun _ _ hframe => absurd hframe List.not_mem_nil, .none _ _, hbatch⟩
  sendable := fun _ hpkt => absurd hpkt List.not_mem_nil
  current := fun _ => ⟨rfl, rfl⟩
  handled := fun _ => rfl

variable {o : Observed State}

theorem Exact.preserved (exact : b.Exact o) : o.Preserved atomic where
  stream := by
    obtain ⟨handled, kept, hpopped, -, ⟨written, rfl, hcalls⟩, hbatch⟩ := exact.moved
    exact ⟨written, kept, hpopped, hbatch, hcalls⟩
  handled := exact.handled

theorem Exact.round {round : Round} (exact : b.Exact o) (served : b.Served o (.round round))
    (hrunning : o.worker.running = true) (hpending : o.worker.pending = []) :
    b.Exact (b.observed o (.round round)
      (o.worker.proceed (b.loop.head o.worker.state round))) := by
  obtain ⟨handled, kept, hpopped, hseparable, moved, hbatch⟩ := exact.moved
  obtain ⟨hcurrent, hdiscarded⟩ := exact.current hrunning
  obtain ⟨rest, flushed, hrest, hwork⟩ := idle_moves (hcurrent.trans hbatch)
    (moved.separable hseparable) served.flushes
  have hafter : b.batchAfter o (o.worker.proceed (b.loop.head o.worker.state round)) (.round round)
      = rest.flatten := by
    rw [← hrest, ← hbatch]
    rfl
  have hsendable := served.sendable
  have hhanded := handedOut_eq hpending (b.loop.head o.worker.state round)
  refine ⟨⟨handled, rest, ?_, hseparable, moved.trans flushed, hafter⟩, ?_, ?_, ?_⟩
  · rw [Observed.pending, hpending, hdiscarded, List.map_nil, List.map_nil,
      List.append_nil, List.append_nil] at hpopped
    simp only [observed, poppedAt, discardedAt, Observed.pending]
    rw [List.map_append, hpopped, hhanded, hdiscarded, List.nil_append,
      List.map_append, List.append_assoc]
  · rintro pkt hpkt
    apply hsendable
    rw [poppedAt, hhanded]
    exact List.mem_append_left _ hpkt
  · intro hstill
    obtain ⟨hback, hhead⟩ := work_of_running hstill
    refine ⟨(hwork _ _ hhead).trans hafter.symm, ?_⟩
    simp only [observed, discardedAt]
    rw [hback, hdiscarded, List.append_nil]
  · exact pending_of_stopped hrunning hpending

theorem Exact.item {writes : List Written} {pkt : IPPacket} {number : Nat}
    {rest : List (IPPacket × Nat)} (exact : b.Exact o) (served : b.Served o (.item writes))
    (hrunning : o.worker.running = true) (hpending : o.worker.pending = (pkt, number) :: rest) :
    b.Exact (b.observed o (.item writes) (o.worker.finish number rest
      (b.loop.body o.worker.state writes pkt))) := by
  obtain ⟨handled, kept, hpopped, hseparable, moved, hbatch⟩ := exact.moved
  obtain ⟨hcurrent, hdiscarded⟩ := exact.current hrunning
  rw [hbatch] at hcurrent
  have hpackets : o.pending = pkt :: rest.map (·.1) := by
    rw [Observed.pending, hpending, List.map_cons]
  have hall := exact.sendable
  rw [hpackets, List.forall_mem_cons] at hall
  obtain ⟨⟨sendable, takes⟩, hothers⟩ := hall
  have hflushes : b.flushesAt o.worker (.item writes) =
      packetFlushes atomic kept.flatten writes pkt := by
    simp only [flushesAt, hpending, hcurrent]
  have hserved := served.flushes
  rw [hflushes] at hserved
  obtain ⟨after, left, hresult, hleft, added⟩ := b.body_moves _ kept writes pkt
    hcurrent (moved.separable hseparable) sendable takes hserved
  have hstate : (o.worker.finish number rest
      (b.loop.body o.worker.state writes pkt)).state = after := by
    rw [Worker.finish, hresult, Option.getD_some]
  have hbatchAfter : b.batchAfter o (o.worker.finish number rest (b.loop.body o.worker.state writes
      pkt)) (.item writes) = left.flatten := by
    rw [batchAfter, hstate, hleft]
  refine ⟨⟨handled ++ [pkt.sent], left, ?_, ?_, ?_, hbatchAfter⟩, hothers, ?_, ?_⟩
  · rw [hpackets, hdiscarded] at hpopped
    simp only [observed, poppedAt, discardedAt, hdiscarded, List.append_nil, hpopped]
    simp [Observed.pending, Worker.finish]
  · intro hatomic
    rw [List.forall_mem_append]
    exact ⟨hseparable hatomic, sendable.separable hatomic⟩
  · simp only [observed, hflushes]
    exact (moved.append _).trans added
  · intro _
    refine ⟨(congrArg b.batch hstate).trans (hleft.trans hbatchAfter.symm), ?_⟩
    simp only [observed, discardedAt, hdiscarded, List.append_nil]
  · intro hstopped
    have hstill : (b.loop.body o.worker.state writes pkt).result.isSome =
      false := hstopped
    rw [hresult] at hstill
    cases hstill

theorem exact_step {after : Observed State} {event : Event Round (List Written)}
    (exact : b.Exact o) (served : b.Served o event) (hstep : b.observe o event = some after) :
    b.Exact after := by
  obtain ⟨worker, hworker, rfl⟩ := Option.map_eq_some_iff.mp hstep
  have hrunning := Loop.running_of_step hworker
  cases Loop.taken_of_step hworker with
  | round hpending => exact exact.round served hrunning hpending
  | item hpending => exact exact.item served hrunning hpending

theorem preserved_of_run {last : Observed State} {events : List
    (Event Round (List Written))} (hbatch : b.batch state = []) (run : Run b.observe b.Served
    (b.start state) events last) :
    last.Preserved atomic :=
  (run.invariant b.Exact (exact_start hbatch) fun _ _ _ exact served hstep =>
    exact_step exact served hstep).preserved

end Batching

def twice : IPPacket := .v4 (Slice.ofBytes datagram4)

def idleRound (writes : List Written) : Round := ⟨false, none, true, false, writes, some []⟩

/-- Two datagrams, and what the connection then returns. -/
def twoDatagrams (writes : List Written) : List (Event Round (List Written)) :=
  [.round (popped [twice, twice]), .item [], .item [], .round (idleRound writes)]

theorem sendable_twice : Sendable true twice where
  total := by decide +kernel
  positive := by decide +kernel
  inside := by decide +kernel
  separable := by
    rintro - frame hframe
    obtain rfl := List.mem_singleton.mp hframe
    exact ⟨by decide +kernel, twice, by decide +kernel, by decide +kernel⟩

theorem tracks_twice : Client.Tracks twice := by
  rintro p -
  exact ⟨_, rfl⟩

def Batching.Twice {State : Type} (b : Batching true State) (writes : List Written)
  (o : Observed State) (event : Event Round (List Written)) : Prop :=
  (∀ pkt ∈ b.poppedAt o.worker event, pkt = twice) ∧ ∀ flush ∈ b.flushesAt o.worker event, flush =
  ⟨writes, twice.sent ++ twice.sent⟩

instance {State : Type} (b : Batching true State) (writes : List Written)
    (o : Observed State) (event : Event Round (List Written)) :
    Decidable (b.Twice writes o event) :=
  inferInstanceAs (Decidable (_ ∧ _))

theorem Batching.Twice.served {b : Batching true State} (htakes : b.Takes twice)
    {o : Observed State} {event : Event Round (List Written)} (h : b.Twice [⟨28, none⟩, ⟨28, none⟩]
    o event) : b.Served o event where
  sendable := by
    rintro pkt hpkt
    obtain rfl := h.1 pkt hpkt
    exact ⟨sendable_twice, htakes⟩
  flushes := by
    rintro flush hflush
    obtain rfl := h.2 flush hflush
    exact ⟨by decide +kernel, by decide +kernel, fun _ => by decide +kernel⟩

theorem Batching.exists_served {b : Batching true State} (htakes : b.Takes twice)
    (state : State) (hexec : (Run.exec b.observe (b.Twice [⟨28, none⟩, ⟨28, none⟩]) (b.start state)
      (twoDatagrams [⟨28, none⟩, ⟨28, none⟩])).any (·.calls.length = 2) = true) :
    ∃ last, Run b.observe b.Served (b.start state) (twoDatagrams [⟨28, none⟩, ⟨28, none⟩]) last ∧
      last.calls.length = 2 := by
  obtain ⟨last, run, hcalls⟩ := Run.exists_of_exec _ _ _ _ _ hexec
  exact ⟨last, run.weaken fun _ _ => Batching.Twice.served htakes, hcalls⟩

/-- The connection asks for packets, and takes one byte of the first. -/
@[mk_iff]
structure Observed.Lost {State : Type} (o : Observed State) : Prop where
  popped : o.popped = [twice, twice]
  pending : o.worker.pending = []
  stopped : o.worker.running = false
  calls : o.calls = [⟨twice.sent, ⟨1, none⟩⟩]

instance {State : Type} (o : Observed State) : Decidable o.Lost :=
  decidable_of_iff' _ (Observed.lost_iff o)

theorem Observed.Lost.not_preserved {o : Observed State} (lost : o.Lost) : ¬ o.Preserved true := by
  intro preserved
  obtain ⟨written, kept, -, -, haccepted, hdata⟩ := preserved.stream
  have hdata := hdata rfl
  rw [lost.calls] at haccepted hdata
  rw [← hdata] at haccepted
  exact absurd haccepted (by decide +kernel)

namespace Client

section

variable {sum64 : Bytes → UInt64} {env : Env} {atomic : Bool} {o : Observed (Conntrack × Bytes)}
  {events : List (Event Round (List Written))}
  (run : Run (batching sum64 env.ip atomic).observe (fun _ _ => True)
    ((batching sum64 env.ip atomic).start (fun _ => none, [])) events o)
  (hrunning : o.worker.running = true)

include run hrunning

theorem exists_handled : ∃ handled, o.popped = handled ++ o.pending ∧
    processPackets sum64 env.ip handled = .ok o.worker.state.1 := by
  induction run with
  | start => exact ⟨[], rfl, rfl⟩
  | @next middle _ _ _ _ _ hstep ih =>
    obtain ⟨worker, hworker, rfl⟩ := Option.map_eq_some_iff.mp hstep
    obtain ⟨handled, hpopped, htable⟩ := ih (Loop.running_of_step hworker)
    cases Loop.taken_of_step hworker with
    | round hpending =>
      -- A flush of the batch leaves the table alone.
      obtain ⟨hback, hwork⟩ := work_of_running hrunning
      refine ⟨handled, ?_, htable.trans (congrArg _ ?_)⟩
      · rw [Observed.pending, hpending, List.map_nil, List.append_nil] at hpopped
        simp only [Batching.observed, Batching.poppedAt]
        rw [hpopped, handedOut_eq hpending, hback, List.append_nil]
        rfl
      · rw [Batching.head_eq] at hwork
        obtain ⟨-, -, ⟨-, hidle⟩ | ⟨-, hsame⟩⟩ := popPackets_work hwork
        · obtain ⟨batch, -, hstate⟩ := Option.map_eq_some_iff.mp hidle
          exact (congrArg Prod.fst hstate :)
        · exact (congrArg Prod.fst hsame :).symm
    | @item writes pkt number rest hpending =>
      obtain ⟨state, hstate⟩ := Option.isSome_iff_exists.mp hrunning
      refine ⟨handled ++ [pkt], ?_, ?_⟩
      · rw [Observed.pending, hpending, List.map_cons] at hpopped
        simp only [Batching.observed, Batching.poppedAt]
        rw [hpopped, List.append_nil, List.append_assoc]
        rfl
      · have hnext : processPacket sum64 env.ip middle.worker.state.1 pkt = .ok state.1 :=
          processPacket_of_sendPacket hstate
        rw [processPackets, List.foldlM_append]
        refine bind_eq_ok.mpr ⟨_, htable, ?_⟩
        simp only [Batching.observed, Worker.finish]
        rw [hstate]
        simpa using hnext

/-- Whatever the connection does, while the loop runs the replies to the packets
taken up so far find the hosts that sent, unless two hosts share them. -/
theorem returnsReplies_outbound_iff {sent : List Slice}
    (hsent : o.popped = sent.map .v4 ++ o.pending)
    (hip : env.ip.length = 4 ∨ env.ip.length = 16) (hplain : ∀ p ∈ sent, Plain p)
    (hforeign : ∀ p ∈ sent, targetOf p ≠ env.ip) (hfree : CollisionFree sum64 env.ip sent) :
    ReturnsReplies (env.tracking sum64 o.worker.state.1) sent ↔ Unshared sent := by
  obtain ⟨handled, hpopped, htable⟩ := exists_handled run hrunning
  obtain rfl := List.append_cancel_right (hpopped.symm.trans hsent)
  rw [processPackets_eq hplain] at htable
  rw [← Except.ok.inj htable]
  exact returnsReplies_noteAll_iff hip hplain hforeign hfree

end

/-- The first of two queries has been taken up. -/
theorem returnsReplies_outbound_iff_query : ∃ o, Run (batching sampleSum sampleClient.ip
    true).observe (fun _ _ => True) ((batching sampleSum sampleClient.ip true).start
    (fun _ => none, [])) [.round (popped [.v4 (query 5 1), .v4 (query 6 2)]), .item []] o ∧
    ReturnsReplies (sampleClient.tracking sampleSum o.worker.state.1) [query 5 1] :=
  Run.exists_of_exec_imp (fun o => o.worker.running = true ∧ o.popped = [query 5 1].map .v4 ++
    o.pending) (by decide +kernel) fun _ run h => (returnsReplies_outbound_iff run h.1 h.2
    (.inl rfl) (by decide +kernel) (by decide +kernel) (by decide +kernel)).mpr (by decide +kernel)

end Client

end Pig.Tunnel
