import Pig.Lib.Custody
import Pig.Tunnel.Conntrack

namespace Pig.Tunnel

open Go Network Custody

/-! The loops that take packets from an outbound queue and write them to a
connection or a stream. Each packet sits in a buffer of the pool, which the loop
puts back. -/

def maxBatchSize : Nat := 64 * 1024

inductive WriteError where
  | shortWrite
  | other
  deriving DecidableEq, Repr

structure Written where
  n : Int
  error : Option WriteError
  deriving DecidableEq, Repr

inductive Flushed where
  | done (writes : List Written)
  | failed (writes : List Written)
  | halted
  deriving DecidableEq, Repr

def flushBytes : List Written → Bytes → Flushed
  | [], batch => if batch = [] then .done [] else .halted
  | written :: writes, batch =>
    if batch = [] then .done (written :: writes)
    else if written.n < 0 ∨ batch.length < written.n then .halted
    else if written.error = some .other then .failed writes
    else flushBytes writes (batch.drop written.n.toNat)

def frontLength (batch : Bytes) : Option Nat :=
  if batch.length < 20 then none
  else match peek batch with
    | .error _ => none
    | .ok (_, totalLen) =>
      if totalLen < 20 ∨ batch.length < totalLen then none
      else some totalLen

def flushBatchAsPackets : List Written → Bytes → Flushed
  | [], batch =>
    if batch = [] then .done []
    else match frontLength batch with
      | none => .failed []
      | some _ => .halted
  | written :: writes, batch =>
    if batch = [] then .done (written :: writes)
    else match frontLength batch with
      | none => .failed (written :: writes)
      | some totalLen =>
        if written.error = some .other then .failed writes
        else if written.n < totalLen then .failed writes
        else flushBatchAsPackets writes (batch.drop totalLen)

def flushOutboundBatch (atomic : Bool) (writes : List Written) (batch : Bytes) : Flushed :=
  if atomic then flushBatchAsPackets writes batch else flushBytes writes batch

structure Round where
  done : Bool
  pkts : Option (List IPPacket)
  empty : Bool
  closed : Bool
  writes : List Written
  waited : Option (List IPPacket)
  deriving DecidableEq, Repr

/-- The outer loop up to the packets that were popped. `idle` is what is done
before it waits for them; without a result the loop is left. -/
def popPackets {State : Type} (idle : State → List Written → Option State)
    (state : State) (round : Round) : Next State IPPacket :=
  if round.done then .stop
  else if round.closed then
    if round.empty then .stop else .discard (round.pkts.getD [])
  else if round.empty then
    match idle state round.writes, round.waited with
    | some state, some pkts => .work state pkts
    | _, _ => .stop
  else match round.pkts with
    | none => .stop
    | some pkts => .work state pkts

def writeBatch (atomic : Bool) (batch : Bytes) (writes : List Written) : Option Bytes :=
  match flushOutboundBatch atomic writes batch with
  | .done _ => some []
  | _ => none

def makeRoom (atomic : Bool) (batch : Bytes) (writes : List Written)
    (totalLen : Nat) : Handling (Bytes × List Written) :=
  if maxBatchSize < batch.length + totalLen then
    match flushOutboundBatch atomic writes batch with
    | .done writes => pure ([], writes)
    | .failed _ => do
        Handling.release
        Handling.stop
    | .halted => Handling.stop
  else pure (batch, writes)

structure StreamReply where
  selected : Bool
  failed : Bool
  deriving DecidableEq, Repr

namespace Server

/-- The function `processPacket` of `handleOutboundConn`. -/
def processPacket (atomic : Bool) (batch : Bytes) (writes : List Written)
    (pkt : IPPacket) : Handling Bytes := do
  let totalLen ← Handling.use pkt.totalLength
  if totalLen = 0 ∨ pkt.slice.len < totalLen then
    Handling.release
    return batch
  let (batch, writes) ← makeRoom atomic batch writes totalLen
  let data ← Handling.use (pkt.slice.sub 0 totalLen)
  let batch := batch ++ data
  Handling.release
  if maxBatchSize ≤ batch.length then
    match flushOutboundBatch atomic writes batch with
    | .done _ => return []
    | .failed _ =>
      -- The buffer has been put back by now.
      Handling.release
      Handling.stop
    | .halted => Handling.stop
  else return batch

def handleOutboundConn (atomic : Bool) : Loop Bytes Round (List Written) IPPacket where
  head := popPackets (writeBatch atomic)
  body := processPacket atomic

def writeToStream (reply : StreamReply) (pkt : IPPacket) : Handling Unit := do
  let totalLen ← Handling.use pkt.totalLength
  if totalLen = 0 ∨ pkt.slice.len < totalLen then
    Handling.release
    return
  let _ ← Handling.use pkt.sourceIP
  let _ ← Handling.use pkt.sourcePort
  if !reply.selected then
    Handling.release
    return
  let _ ← Handling.use (pkt.slice.sub 0 totalLen)
  Handling.release
  if reply.failed then Handling.stop else return

def handleOutboundStream : Loop Unit Round StreamReply IPPacket where
  head := popPackets fun state _ => some state
  body := fun _ => writeToStream

end Server

namespace Client

section

variable (sum64 : Bytes → UInt64) (ip : Bytes)

def trackOutbound (table : Conntrack) : IPPacket → Handling Conntrack
  | .v4 p => do
      let tuple ← Handling.use (newTuple (.v4 p))
      return track sum64 ip table tuple
  | .v6 _ => return table

/-- The function `processPacket` of `processOutboundConn`. -/
def sendPacket (atomic : Bool) (state : Conntrack × Bytes)
    (writes : List Written) (pkt : IPPacket) :
    Handling (Conntrack × Bytes) := do
  let (table, batch) := state
  let totalLen ← Handling.use pkt.totalLength
  if totalLen = 0 ∨ pkt.slice.len < totalLen then
    Handling.release
    return (table, batch)
  let table ← trackOutbound sum64 ip table pkt
  let (batch, writes) ← makeRoom atomic batch writes totalLen
  let data ← Handling.use (pkt.slice.sub 0 totalLen)
  let batch := batch ++ data
  Handling.release
  if maxBatchSize ≤ batch.length then
    match flushOutboundBatch atomic writes batch with
    | .done _ => return (table, [])
    | _ => Handling.stop
  else return (table, batch)

def processOutboundConn (atomic : Bool) :
    Loop (Conntrack × Bytes) Round (List Written) IPPacket where
  head := popPackets fun state writes =>
    (writeBatch atomic state.2 writes).map fun batch => (state.1, batch)
  body := sendPacket sum64 ip atomic

def writeToStream (table : Conntrack) (reply : StreamReply)
    (pkt : IPPacket) : Handling Conntrack := do
  let _ ← Handling.use pkt.destinationIP
  let _ ← Handling.use pkt.destinationPort
  if !reply.selected then
    Handling.release
    return table
  let totalLen ← Handling.use pkt.totalLength
  if totalLen = 0 ∨ pkt.slice.len < totalLen then
    Handling.release
    return table
  let table ← trackOutbound sum64 ip table pkt
  let _ ← Handling.use (pkt.slice.sub 0 totalLen)
  Handling.release
  if reply.failed then Handling.stop else return table

structure PopRound where
  done : Bool
  pkt : Option IPPacket
  deriving DecidableEq, Repr

def popPacket (table : Conntrack) (round : PopRound) : Next Conntrack IPPacket :=
  if round.done then .stop
  else match round.pkt with
    | none => .stop
    | some pkt => .work table [pkt]

def processOutboundStream : Loop Conntrack PopRound StreamReply IPPacket where
  head := popPacket
  body := writeToStream sum64 ip

end

end Client

section

variable {Result : Type} {atomic : Bool} {batch : Bytes} {writes : List Written} {totalLen : Nat}

theorem tidy_makeRoom_bind {next : Bytes × List Written → Handling Result} :
    (makeRoom atomic batch writes totalLen >>= next).Tidy ↔ ∀ found,
      (makeRoom atomic batch writes totalLen).result = some found → (next found).Tidy := by
  apply Handling.tidy_bind
  · unfold makeRoom
    split
    · split
      · exact Handling.tidy_pure _
      · exact Handling.tidy_release_stop
      · exact Handling.tidy_stop
    · exact Handling.tidy_pure _
  · unfold makeRoom
    split
    · split
      · exact fun _ => rfl
      · rintro ⟨⟩
      · exact fun _ => rfl
    · exact fun _ => rfl

end

theorem Server.tidy_writeToStream (reply : StreamReply) (pkt : IPPacket) :
    (Server.writeToStream reply pkt).Tidy := by
  refine Handling.tidy_use_bind.mpr fun totalLen _ => ?_
  split
  · exact Handling.tidy_release_pure _
  refine Handling.tidy_use_bind.mpr fun _ _ => ?_
  refine Handling.tidy_use_bind.mpr fun _ _ => ?_
  split
  · exact Handling.tidy_release_pure _
  refine Handling.tidy_use_bind.mpr fun _ _ => ?_
  refine Handling.tidy_release_bind.mpr ?_
  split <;> rfl

namespace Client

variable {sum64 : Bytes → UInt64} {ip : Bytes}

theorem tidy_trackOutbound_bind {Result : Type} {table : Conntrack} {pkt : IPPacket}
    {next : Conntrack → Handling Result} (hnext : ∀ table, (next table).Tidy) :
    (trackOutbound sum64 ip table pkt >>= next).Tidy := by
  cases pkt with
  | v4 p =>
    rw [trackOutbound]
    cases newTuple (.v4 p) with
    | error fault => exact Custody.tidy_use_cons.mpr Custody.tidy_nil
    | ok tuple => exact Custody.tidy_use_cons.mpr (hnext _)
  | v6 p => exact hnext table

theorem tidy_sendPacket (atomic : Bool) (state : Conntrack × Bytes)
    (writes : List Written) (pkt : IPPacket) :
    (sendPacket sum64 ip atomic state writes pkt).Tidy := by
  refine Handling.tidy_use_bind.mpr fun totalLen _ => ?_
  split
  · exact Handling.tidy_release_pure _
  refine tidy_trackOutbound_bind fun table => ?_
  refine tidy_makeRoom_bind.mpr fun room _ => ?_
  refine Handling.tidy_use_bind.mpr fun data _ => ?_
  refine Handling.tidy_release_bind.mpr ?_
  split
  · split <;> rfl
  · rfl

theorem processPacket_of_sendPacket {atomic : Bool} {table after : Conntrack} {batch rest : Bytes}
    {writes : List Written} {pkt : IPPacket} (hsent : (sendPacket sum64 ip atomic (table, batch)
    writes pkt).result = some (after, rest)) : processPacket sum64 ip table pkt = .ok after := by
  obtain ⟨totalLen, htotal, hsent⟩ := Handling.use_bind_eq_some.mp hsent
  unfold processPacket
  rw [htotal, ok_bind]
  split at hsent
  · next hinvalid =>
      cases hsent
      exact if_pos hinvalid
  · next hvalid =>
      obtain ⟨tracked, htracked, hsent⟩ := Handling.bind_eq_some.mp hsent
      obtain ⟨room, -, hsent⟩ := Handling.bind_eq_some.mp hsent
      obtain ⟨data, -, hsent⟩ := Handling.use_bind_eq_some.mp hsent
      have hafter : tracked = after := by
        dsimp only at hsent
        split at hsent
        · split at hsent
          · cases hsent
            rfl
          · cases hsent
        · cases hsent
          rfl
      subst hafter
      refine (if_neg hvalid).trans ?_
      cases pkt with
      | v4 p =>
        obtain ⟨tuple, htuple, htracked⟩ := Handling.use_bind_eq_some.mp htracked
        cases htracked
        exact bind_eq_ok.mpr ⟨tuple, htuple, rfl⟩
      | v6 p =>
        cases htracked
        rfl

theorem tidy_writeToStream (table : Conntrack) (reply : StreamReply)
    (pkt : IPPacket) : (writeToStream sum64 ip table reply pkt).Tidy := by
  refine Handling.tidy_use_bind.mpr fun _ _ => ?_
  refine Handling.tidy_use_bind.mpr fun _ _ => ?_
  split
  · exact Handling.tidy_release_pure _
  refine Handling.tidy_use_bind.mpr fun totalLen _ => ?_
  split
  · exact Handling.tidy_release_pure _
  refine tidy_trackOutbound_bind fun table => ?_
  refine Handling.tidy_use_bind.mpr fun _ _ => ?_
  refine Handling.tidy_release_bind.mpr ?_
  split <;> rfl

end Client

namespace Server

/-- The packet fills the batch, and the flush that this causes fails. -/
def Overflows (atomic : Bool) (batch : Bytes) (writes : List Written) (pkt : IPPacket) : Prop := ∃
  totalLen room data rest, pkt.totalLength = .ok totalLen ∧ 0 < totalLen ∧ totalLen ≤ pkt.slice.len
  ∧ (makeRoom atomic batch writes totalLen).result = some room ∧ pkt.slice.sub 0 totalLen = .ok data
  ∧ maxBatchSize ≤ (room.1 ++ data).length ∧ flushOutboundBatch atomic room.2 (room.1 ++ data) =
  .failed rest

theorem tidy_processPacket_iff {atomic : Bool} {batch : Bytes}
    {writes : List Written} {pkt : IPPacket} :
    (processPacket atomic batch writes pkt).Tidy ↔ ¬ Overflows atomic batch writes pkt := by
  constructor
  · rintro htidy ⟨totalLen, room, data, rest, htotal, hpos, hlen, hroom, hdata, hfull, hfailed⟩
    have htidy := Handling.tidy_use_bind.mp htidy totalLen htotal
    rw [if_neg (by omega)] at htidy
    have htidy := tidy_makeRoom_bind.mp htidy room hroom
    have htidy := Handling.tidy_use_bind.mp htidy data hdata
    have htidy := Handling.tidy_release_bind.mp htidy
    rw [if_pos hfull, hfailed] at htidy
    cases htidy
  · intro hnot
    refine Handling.tidy_use_bind.mpr fun totalLen htotal => ?_
    split
    · exact Handling.tidy_release_pure _
    next hlen =>
      refine tidy_makeRoom_bind.mpr fun room hroom => ?_
      refine Handling.tidy_use_bind.mpr fun data hdata => ?_
      refine Handling.tidy_release_bind.mpr ?_
      split
      · next hfull =>
          split
          · rfl
          · next rest hfailed =>
              refine absurd ⟨totalLen, room, data, rest, htotal, ?_, ?_, hroom,
                hdata, hfull, hfailed⟩ hnot
              · omega
              · omega
          · rfl
      · rfl

section

variable {atomic : Bool} {batch : Bytes} {writes : List Written} {pkt : IPPacket} {totalLen : Nat}

variable {data : Bytes}

theorem length_of_sub (hdata : pkt.slice.sub 0 totalLen = .ok data) : data.length = totalLen := by
  obtain ⟨⟨-, hcap⟩, rfl⟩ := pkt.slice.sub_eq_ok_iff.mp hdata
  exact Bytes.length_window _ _ _ (by simpa [Slice.cap] using hcap)

theorem makeRoom_of_le (hroom : batch.length + totalLen ≤ maxBatchSize) :
    makeRoom atomic batch writes totalLen = pure (batch, writes) :=
  if_neg (Nat.not_lt.mpr hroom)

theorem not_overflows_of_lt (hroom : batch.length + pkt.slice.len < maxBatchSize) :
    ¬ Overflows atomic batch writes pkt := by
  rintro ⟨totalLen, room, data, rest, -, -, hlen, hmade, hdata, hfull, -⟩
  rw [makeRoom_of_le (by omega)] at hmade
  cases hmade
  have hfull : maxBatchSize ≤ (batch ++ data).length := hfull
  rw [List.length_append, length_of_sub hdata] at hfull
  omega

section

variable (htotal : pkt.totalLength = .ok totalLen) (hpos : 0 < totalLen)
  (hlen : totalLen ≤ pkt.slice.len) (hdata : pkt.slice.sub 0 totalLen = .ok data)

include htotal hpos hlen hdata

theorem processPacket_of_lt (hroom : batch.length + totalLen < maxBatchSize) :
    processPacket atomic batch writes pkt = ⟨[.use, .use, .release], some (batch ++ data)⟩ := by
  have hshort : ¬ maxBatchSize ≤ (batch ++ data).length := by
    rw [List.length_append, length_of_sub hdata]
    omega
  rw [processPacket, htotal, Handling.use_ok_bind, if_neg (by omega),
    makeRoom_of_le (Nat.le_of_lt hroom), Handling.pure_bind, hdata]
  dsimp only [Handling.use_ok_bind, Handling.release_bind]
  rw [if_neg hshort]
  rfl

theorem overflows_of_eq {rest : List Written} (hroom : batch.length + totalLen = maxBatchSize)
    (hfailed : flushOutboundBatch atomic writes (batch ++ data) = .failed rest) : Overflows atomic
    batch writes pkt := by
  refine ⟨totalLen, (batch, writes), data, rest, htotal, hpos, hlen, ?_, hdata, ?_, hfailed⟩
  · rw [makeRoom_of_le (Nat.le_of_eq hroom)]
    rfl
  · rw [List.length_append, length_of_sub hdata, hroom]

end

end

def Overflowing (atomic : Bool) (w : Worker Bytes IPPacket) : Event Round (List Written) → Prop
  | .round _ => False
  | .item writes =>
    ∃ next ∈ w.pending.head?, Overflows atomic w.state writes next.1

theorem tidies_iff {atomic : Bool} {w : Worker Bytes IPPacket}
    {event : Event Round (List Written)} :
    (handleOutboundConn atomic).Tidies w event ↔ ¬ Overflowing atomic w event := by
  cases event with
  | round round => exact iff_of_true trivial id
  | item writes =>
    rw [Overflowing, not_exists]
    refine forall_congr' fun next => ?_
    rw [not_and]
    exact imp_congr_right fun _ => tidy_processPacket_iff

end Server

/-- The buffer of each packet is put back at most once and not read after that,
in the client's loops and in the server's loop for streams; in the server's loop
for connections exactly if no flush fails that a packet causes by filling the
batch. -/
theorem clean_outbound (sum64 : Bytes → UInt64) (ip : Bytes) (atomic : Bool) :
    (∀ table events last, Run (Client.processOutboundConn sum64 ip atomic).step (fun _ _ => True)
    (.start (table, [])) events last → Clean last.log) ∧ (∀ table events last, Run
    (Client.processOutboundStream sum64 ip).step (fun _ _ => True) (.start table) events last →
    Clean last.log) ∧ (∀ events last, Run Server.handleOutboundStream.step (fun _ _ => True)
    (.start ()) events last → Clean last.log) ∧ ∀ events last, Run
    (Server.handleOutboundConn atomic).step (fun _ _ => True) (.start []) events last →
    (Clean last.log ↔ Run (Server.handleOutboundConn atomic).step (fun w event => ¬
    Server.Overflowing atomic w event) (.start []) events last) := by
  refine ⟨fun table events last run => ?_, fun table events last run => ?_,
    fun events last run => ?_, fun events last run => ?_⟩
  · exact Loop.clean_of_tidy run (Client.tidy_sendPacket atomic)
  · exact Loop.clean_of_tidy run Client.tidy_writeToStream
  · exact Loop.clean_of_tidy run fun _ => Server.tidy_writeToStream
  · rw [Loop.clean_iff_tidies run]
    constructor
    · exact fun tidies => tidies.weaken fun _ _ => Server.tidies_iff.mp
    · exact fun run => run.weaken fun _ _ => Server.tidies_iff.mpr

def popped (pkts : List IPPacket) : Round := ⟨false, some pkts, false, false, [], none⟩

theorem clean_outbound_datagram : (∃ last, Run (Client.processOutboundConn Client.sampleSum []
    false).step (fun _ _ => True) (.start (fun _ => none, [])) [.round
    (popped [.v4 (Slice.ofBytes datagram4)]), .item []] last ∧ last.log.length = 4 ∧ Clean last.log)
    ∧ (∃ last, Run (Client.processOutboundStream Client.sampleSum []).step (fun _ _ => True)
    (.start fun _ => none) [.round ⟨false, some (.v4 (Slice.ofBytes datagram4))⟩, .item
    ⟨true, false⟩] last ∧ last.log.length = 6 ∧ Clean last.log) ∧ (∃ last, Run
    Server.handleOutboundStream.step (fun _ _ => True) (.start ())
    [.round (popped [.v4 (Slice.ofBytes datagram4)]), .item ⟨true, false⟩] last ∧ last.log.length =
    5 ∧ Clean last.log) ∧ ∃ last, Run (Server.handleOutboundConn false).step (fun _ _ => True)
    (.start []) [.round (popped [.v4 (Slice.ofBytes datagram4)]), .item []] last ∧ last.log.length =
    3 ∧ Clean last.log := by
  have hclean := clean_outbound Client.sampleSum [] false
  refine ⟨?_, ?_, ?_, ?_⟩
  · exact Run.exists_of_exec_imp (fun last => last.log.length = 4) (by decide +kernel)
      fun _ run hlog => ⟨hlog, hclean.1 _ _ _ run⟩
  · exact Run.exists_of_exec_imp (fun last => last.log.length = 6) (by decide +kernel)
      fun _ run hlog => ⟨hlog, hclean.2.1 _ _ _ run⟩
  · exact Run.exists_of_exec_imp (fun last => last.log.length = 5) (by decide +kernel)
      fun _ run hlog => ⟨hlog, hclean.2.2.1 _ _ run⟩
  · have run : Run (Server.handleOutboundConn false).step (fun w event => ¬ Server.Overflowing false
      w event) (.start []) [.round (popped [.v4 (Slice.ofBytes datagram4)]), .item []] _ := .next
      (.one id rfl) (by
        rintro ⟨next, hnext, hoverflows⟩
        cases hnext
        exact Server.not_overflows_of_lt (by decide) hoverflows) rfl
    have hrun := run.weaken fun _ _ _ => trivial
    exact ⟨_, hrun, by decide +kernel, (hclean.2.2.2 _ _ hrun).mpr run⟩

def stated (high low : UInt8) (padding : Nat) : IPPacket :=
  .v4 (Slice.ofBytes ([0x45, 0, high, low] ++ List.replicate padding 0))

theorem len_stated (high low : UInt8) (padding : Nat) :
    (stated high low padding).slice.len = 4 + padding := by
  simp only [stated, IPPacket.slice, Slice.ofBytes, List.length_append, List.length_replicate]
  rfl

theorem totalLength_stated (high low : UInt8) (padding : Nat) :
    (stated high low padding).totalLength = .ok (high.toNat * 256 + low.toNat) := rfl

theorem exists_not_clean : ∃ last, Run (Server.handleOutboundConn false).step (fun _ _ => True)
      (.start []) [.round (popped [stated 0x80 0 32764, stated 0x80 0 32764]), .item [], .item
      [⟨0, some .other⟩]] last ∧ ¬ Clean last.log := by
  generalize hhalf : stated 0x80 0 32764 = half
  have hlen : half.slice.len = 32768 := hhalf ▸ len_stated ..
  have htotal : half.totalLength = .ok 32768 := hhalf ▸ totalLength_stated ..
  obtain ⟨data, hdata⟩ : ∃ data, half.slice.sub 0 32768 = .ok data := by
    refine ⟨_, if_pos ⟨Nat.zero_le _, ?_⟩⟩
    exact hlen ▸ half.slice.len_le
  -- The first packet leaves room in the batch, the second one fills it.
  let filling : Worker Bytes IPPacket :=
    ⟨data, [(half, 1)], 2, [(0, .use), (0, .use), (0, .release)], true⟩
  have before : Run (Server.handleOutboundConn false).step (fun _ _ => True)
      (.start []) [.round (popped [half, half]), .item []] filling := by
    refine .next (.one trivial rfl) trivial ?_
    change some (Worker.finish _ 0 [(half, 1)]
      (Server.processPacket false [] [] half)) = some filling
    rw [Server.processPacket_of_lt htotal (by decide) (Nat.le_of_eq hlen.symm) hdata (by decide)]
    rfl
  have hfailed : flushOutboundBatch false [⟨0, some .other⟩] (data ++ data) = .failed [] := by
    have hne : data ≠ [] := by
      rw [← List.length_pos_iff, Server.length_of_sub hdata]
      decide
    have hpair : data ++ data ≠ [] := List.append_ne_nil_of_left_ne_nil hne _
    have hrange : ¬ ((0 : Int) < 0 ∨ ((data ++ data).length : Int) < 0) := by
      omega
    rw [flushOutboundBatch, if_neg (by decide), flushBytes, if_neg hpair, if_neg hrange, if_pos rfl]
  have hoverflows : Server.Overflows false data [⟨0, some .other⟩] half :=
    Server.overflows_of_eq htotal (by decide) (Nat.le_of_eq hlen.symm) hdata
      (by rw [Server.length_of_sub hdata]; rfl) hfailed
  refine ⟨_, .next before trivial rfl, ?_⟩
  rw [Loop.clean_of_taken (Loop.sound_of_run before) (.item rfl), Server.tidies_iff]
  rintro ⟨-, hcalm⟩
  exact hcalm ⟨(half, 1), rfl, hoverflows⟩

end Pig.Tunnel
