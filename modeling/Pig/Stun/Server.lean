import Pig.Lib.Modify
import Pig.Lib.Run
import Pig.Stun.Authenticated
import Pig.Stun.Receiving

namespace Pig.Stun

open Go

/-! The STUN server over TCP: a loop that accepts connections and reads the
request of each, a queue with limited room, and workers that answer. -/

/-- A connection with all that the client sends before it closes its end or
fails, and the buffer that its request is read into. -/
structure Client where
  remote : Addr
  buffer : Slice
  stream : Segments

inductive RequestError where
  | header (error : Segments.ReadError)
  | tooLong (length : UInt16)
  | body (error : Segments.ReadError)
  deriving DecidableEq, Repr

def readBody (readBuffer : Slice) (high : Nat) (conn : Segments) :
    Checked (Except RequestError Slice) := do
  let (readBuffer, n, _) ← readBuffer.readFull 20 high conn
  if n < high - 20 then return .error (.body (Segments.readError n))
  else
    let data ← readBuffer.between 0 (n + 20)
    return .ok data

/-- The accept loop up to the work item: the buffer up to the end of the
request, which is computed as a `uint16`. -/
def readRequest (readBuffer : Slice) (conn : Segments) : Checked (Except RequestError Slice) := do
  let (readBuffer, n, conn) ← readBuffer.readFull 0 20 conn
  if n < 20 then return .error (.header (Segments.readError n))
  else
    let field ← readBuffer.sub 2 4
    let msgLen := UInt16.ofNat field.toNatBE
    if UInt16.ofNat (readBuffer.len - 20) < msgLen then
      return .error (.tooLong msgLen)
    else readBody readBuffer (20 + msgLen).toNat conn

def Client.request (client : Client) : Checked (Except RequestError Slice) :=
  readRequest client.buffer client.stream

def serverOptions : BindingOptions where
  auth := none
  ice := none
  requireFingerprint := true

section

variable (algorithms : Algorithms)

/-- The response that is handed to WriteFn, unless an error is logged. -/
def processWorkItem (remote : Addr) (data : Slice) : Checked (Option Bytes) :=
  match decodeMessage data with
  | .error (.fault fault) => .error fault
  | .error (.error _) => .ok none
  | .ok message =>
    match processBindingRequest algorithms message remote none (some serverOptions) with
    | .error (.fault fault) => .error fault
    | .error (.error _) => .ok none
    | .ok response =>
      match response.serializeTo algorithms.crc32 with
      | .error (.fault fault) => .error fault
      | .error (.refused _) => .ok none
      | .ok (_, raw) => .ok (some raw)

end

inductive Fate where
  | pending
  | rejected (error : RequestError)
  | dropped
  | failed
  | answered
  deriving DecidableEq, Repr

structure Connection where
  client : Client
  fate : Fate
  closed : Bool

structure WorkItem where
  conn : Nat
  remote : Addr
  data : Slice

inductive Worker where
  | idle
  | busy (item : WorkItem)
  | gone

/-- Connections are numbered in the order in which they are accepted. -/
structure TCPServer where
  conns : List Connection
  accepting : Bool
  workChan : List WorkItem
  workers : Nat → Worker
  crashed : Bool

inductive ServerEvent where
  | accept (client : Client)
  | acceptError
  | take (worker : Nat)
  | process (worker : Nat)
  | exit (worker : Nat)

namespace TCPServer

def start : TCPServer where
  conns := []
  accepting := true
  workChan := []
  workers _ := .idle
  crashed := false

def accepted (s : TCPServer) (client : Client) (fate : Fate) : TCPServer :=
  { s with conns := s.conns ++ [⟨client, fate, false⟩] }

def submit (s : TCPServer) (numWorkers : Nat) (client : Client) (data : Slice) : TCPServer :=
  if s.workChan.length < numWorkers * 2 then
    { s.accepted client .pending with
      workChan := s.workChan ++ [⟨s.conns.length, client.remote, data⟩] }
  else s.accepted client .dropped

def settle (s : TCPServer) (conn : Nat) (fate : Fate) : TCPServer :=
  { s with conns := s.conns.modify conn fun c => { c with fate := fate } }

def writeFn (s : TCPServer) (conn : Nat) : TCPServer :=
  { s with
    conns := s.conns.modify conn fun c =>
      { c with fate := .answered, closed := true } }

def setWorker (s : TCPServer) (worker : Nat) (phase : Worker) : TCPServer :=
  { s with workers := Function.update s.workers worker phase }

section

variable (algorithms : Algorithms) (numWorkers : Nat)

/-- The loop accepts a connection after it has read the request of the one
before. No one else has the connection until then, so that it is one step. -/
def step (s : TCPServer) (event : ServerEvent) : Option TCPServer :=
  if s.crashed then none
  else
    match event with
    | .accept client =>
      if s.accepting then
        match client.request with
        | .error _ => some { s with crashed := true }
        | .ok (.error error) => some (s.accepted client (.rejected error))
        | .ok (.ok data) => some (s.submit numWorkers client data)
      else none
    | .acceptError => if s.accepting then some { s with accepting := false } else none
    | .take worker =>
      if worker < numWorkers then
        match s.workers worker, s.workChan with
        | .idle, item :: rest =>
          some { s.setWorker worker (.busy item) with workChan := rest }
        | _, _ => none
      else none
    | .process worker =>
      match s.workers worker with
      | .busy item =>
        match processWorkItem algorithms item.remote item.data with
        | .error _ => some { s with crashed := true }
        | .ok none => some ((s.settle item.conn .failed).setWorker worker .idle)
        | .ok (some _) => some ((s.writeFn item.conn).setWorker worker .idle)
      | _ => none
    | .exit worker =>
      match s.workers worker with
      | .idle => some (s.setWorker worker .gone)
      | _ => none

end

def Releases (s : TCPServer) : Prop := ∀ c ∈ s.conns, c.fate ≠ .pending → c.closed = true

end TCPServer

def Client.Handled (algorithms : Algorithms) (client : Client) (answer : Option Bytes) : Prop := ∃
  data, client.request = .ok (.ok data) ∧ processWorkItem algorithms client.remote data = .ok answer

variable {algorithms : Algorithms}

theorem Client.Handled.unique {client : Client}
    {answer other : Option Bytes} (handled : client.Handled algorithms answer)
    (hother : client.Handled algorithms other) : answer = other := by
  obtain ⟨data, hrequest, hanswer⟩ := handled
  obtain ⟨_, hsame, hother⟩ := hother
  cases hrequest.symm.trans hsame
  exact Except.ok.inj (hanswer.symm.trans hother)

def Connection.Consistent (algorithms : Algorithms) (c : Connection) : Prop :=
  match c.fate with
  | .pending | .dropped => c.closed = false
  | .rejected error => c.closed = false ∧ c.client.request = .ok (.error error)
  | .failed => c.closed = false ∧ c.client.Handled algorithms none
  | .answered => c.closed = true ∧ ∃ raw, c.client.Handled algorithms (some raw)

namespace TCPServer

def Submitted (s : TCPServer) (item : WorkItem) : Prop :=
  ∃ client, (s.conns.map Connection.client)[item.conn]? = some client ∧
    item.remote = client.remote ∧ client.request = .ok (.ok item.data)

structure Invariant (algorithms : Algorithms) (s : TCPServer) : Prop where
  consistent : ∀ c ∈ s.conns, c.Consistent algorithms
  queued : ∀ item ∈ s.workChan, s.Submitted item
  busy : ∀ worker item, s.workers worker = .busy item → s.Submitted item

variable {numWorkers : Nat} {s after : TCPServer}

theorem invariant_start : start.Invariant algorithms where
  consistent := nofun
  queued := nofun
  busy := nofun

section

variable (inv : s.Invariant algorithms)

include inv

theorem Invariant.accepted {client : Client} {fate : Fate}
    (hfate : Connection.Consistent algorithms ⟨client, fate, false⟩) :
    (s.accepted client fate).Invariant algorithms := by
  have hsubmitted : ∀ item, s.Submitted item → (s.accepted client fate).Submitted item := by
    rintro item ⟨found, hfound, hparts⟩
    refine ⟨found, ?_, hparts⟩
    obtain ⟨hlt, -⟩ := List.getElem?_eq_some_iff.mp hfound
    rw [TCPServer.accepted, List.map_append, List.getElem?_append_left hlt, hfound]
  refine ⟨fun c hc => ?_, fun item hitem => hsubmitted item (inv.queued item hitem),
    fun worker item hbusy => hsubmitted item (inv.busy worker item hbusy)⟩
  rcases List.mem_append.mp hc with hc | hc
  · exact inv.consistent c hc
  · cases List.mem_singleton.mp hc
    exact hfate

theorem Invariant.submit {client : Client} {data : Slice}
    (hrequest : client.request = .ok (.ok data)) :
    (s.submit numWorkers client data).Invariant algorithms := by
  rw [TCPServer.submit]
  split
  · have accepted : (s.accepted client .pending).Invariant algorithms := inv.accepted rfl
    refine ⟨accepted.consistent, fun item hitem => ?_, accepted.busy⟩
    rcases List.mem_append.mp hitem with hitem | hitem
    · exact accepted.queued item hitem
    · cases List.mem_singleton.mp hitem
      exact ⟨client, by simp [TCPServer.accepted], rfl, hrequest⟩
  · exact inv.accepted rfl

theorem Invariant.setWorker {worker : Nat} {phase : Worker}
    (hphase : ∀ item, phase = .busy item → s.Submitted item) :
    (s.setWorker worker phase).Invariant algorithms := by
  refine ⟨inv.consistent, inv.queued, fun other item hbusy => ?_⟩
  simp only [TCPServer.setWorker, Function.update_apply] at hbusy
  split at hbusy
  · exact hphase item hbusy
  · exact inv.busy other item hbusy

theorem Invariant.process {item : WorkItem}
    (submitted : s.Submitted item) {change : Connection → Connection}
    (hclient : ∀ c, (change c).client = c.client) (hchange : ∀ c ∈ s.conns, c.client.remote =
    item.remote → c.client.request = .ok (.ok item.data) → (change c).Consistent algorithms) :
    Invariant algorithms { s with conns := s.conns.modify item.conn change } := by
  have hsubmitted : ∀ other, s.Submitted other →
      Submitted { s with conns := s.conns.modify item.conn change } other := by
    intro other hother
    rwa [Submitted, map_modify hclient]
  refine ⟨forall_mem_modify inv.consistent fun c hc => ?_, fun other hother =>
    hsubmitted other (inv.queued other hother), fun worker other hbusy =>
    hsubmitted other (inv.busy worker other hbusy)⟩
  obtain ⟨client, hfound, hremote, hrequest⟩ := submitted
  rw [List.getElem?_map, hc] at hfound
  cases hfound
  exact hchange c (List.mem_of_getElem? hc) hremote.symm hrequest

theorem Invariant.step {event : ServerEvent}
    (hstep : s.step algorithms numWorkers event = some after) :
    after.Invariant algorithms := by
  revert hstep
  fun_cases TCPServer.step algorithms numWorkers s event <;> intro hstep <;> cases hstep
  · exact ⟨inv.consistent, inv.queued, inv.busy⟩
  · next hrequest => exact inv.accepted ⟨rfl, hrequest⟩
  · next hrequest => exact inv.submit hrequest
  · exact ⟨inv.consistent, inv.queued, inv.busy⟩
  · next worker _ item rest hqueue _ =>
    have hset : (s.setWorker worker (.busy item)).Invariant algorithms :=
      inv.setWorker fun _ hbusy =>
        Worker.busy.inj hbusy ▸ inv.queued item (hqueue ▸ List.mem_cons_self)
    exact ⟨hset.consistent, fun other hother =>
      inv.queued other (hqueue ▸ List.mem_cons_of_mem _ hother), hset.busy⟩
  · exact ⟨inv.consistent, inv.queued, inv.busy⟩
  · next item hbusy hanswer =>
    have settled : (s.settle item.conn .failed).Invariant algorithms := by
      refine inv.process (inv.busy _ _ hbusy) (fun _ => rfl) fun c hc hremote hrequest => ?_
      have handled : c.client.Handled algorithms none := ⟨item.data, hrequest, hremote ▸ hanswer⟩
      refine ⟨?_, handled⟩
      -- The same request cannot have been answered before.
      have hconsistent := inv.consistent c hc
      rw [Connection.Consistent] at hconsistent
      split at hconsistent
      · exact hconsistent
      · exact hconsistent
      · exact hconsistent.1
      · exact hconsistent.1
      · obtain ⟨-, raw, hraw⟩ := hconsistent
        cases handled.unique hraw
    exact settled.setWorker nofun
  · next item hbusy raw hanswer =>
    have settled : (s.writeFn item.conn).Invariant algorithms :=
      inv.process (inv.busy _ _ hbusy) (fun _ => rfl) fun c hc hremote hrequest =>
        ⟨rfl, raw, item.data, hrequest, hremote ▸ hanswer⟩
    exact settled.setWorker nofun
  · exact inv.setWorker nofun

end

end TCPServer

theorem Connection.Consistent.closed_iff {c : Connection}
    (consistent : c.Consistent algorithms) (settled : c.fate ≠ .pending) :
    c.closed = true ↔ (∃ raw, c.client.Handled algorithms (some raw)) ∧ c.fate ≠ .dropped := by
  rw [Consistent] at consistent
  cases hfate : c.fate with
  | pending => exact absurd hfate settled
  | dropped =>
    rw [hfate] at consistent
    simp [show c.closed = false from consistent]
  | rejected error =>
    rw [hfate] at consistent
    refine iff_of_false (by simp [consistent.1]) ?_
    rintro ⟨⟨raw, data, hrequest, -⟩, -⟩
    cases hrequest.symm.trans consistent.2
  | failed =>
    rw [hfate] at consistent
    refine iff_of_false (by simp [consistent.1]) ?_
    rintro ⟨⟨raw, handled⟩, -⟩
    cases consistent.2.unique handled
  | answered =>
    rw [hfate] at consistent
    exact iff_of_true consistent.1 ⟨consistent.2, by decide⟩

namespace TCPServer

variable {events : List ServerEvent}

/-- The server has closed the connections of all requests that were handled or
rejected exactly if each of them was read whole, made a response and found room
in the queue. -/
theorem releases_iff {algorithms : Algorithms} {numWorkers : Nat} {s : TCPServer}
    (run : Run (step algorithms numWorkers) (fun _ _ => True) start events s) :
    s.Releases ↔ ∀ c ∈ s.conns, c.fate ≠ .pending →
      (∃ raw, c.client.Handled algorithms (some raw)) ∧ c.fate ≠ .dropped := by
  have inv : s.Invariant algorithms := run.invariant (Invariant algorithms) invariant_start
    fun _ _ _ inv _ hstep => inv.step hstep
  constructor
  · intro releases c hc settled
    exact ((inv.consistent c hc).closed_iff settled).mp (releases c hc settled)
  · intro hanswered c hc settled
    exact ((inv.consistent c hc).closed_iff settled).mpr (hanswered c hc settled)

def sampleClient (msgType : UInt8) (count : Nat) : Client where
  remote := .tcp [198, 51, 100, 7] 40000
  buffer := .ofBytes (List.replicate 64 0)
  stream := [([0, msgType, 0, 0, 0x21, 0x12, 0xa4, 0x42] ++ sampleTxID.bytes).take count]

def summary (s : TCPServer) : List (Fate × Bool) := s.conns.map fun c => (c.fate, c.closed)

theorem releases_iff_answered : ∃ s, Run (step sampleAlgorithms 1) (fun _ _ => True) start
      [.accept (sampleClient 1 20), .take 0, .process 0] s ∧ s.summary = [(.answered, true)] ∧ ∀ c ∈
      s.conns, ∃ raw, c.client.Handled sampleAlgorithms (some raw) := by
  refine Run.exists_of_exec_imp (fun s => s.summary = [(.answered, true)]) (by decide +kernel)
    fun s run hsummary => ?_
  have hconns : ∀ c ∈ s.conns, c.fate = .answered ∧ c.closed = true := by
    intro c hc
    have hmem : (c.fate, c.closed) ∈ s.summary := List.mem_map_of_mem hc
    rw [hsummary, List.mem_singleton, Prod.mk.injEq] at hmem
    exact hmem
  refine ⟨hsummary, fun c hc => ?_⟩
  refine ((releases_iff run).mp (fun d hd _ => (hconns d hd).2) c hc ?_).1
  rw [(hconns c hc).1]
  decide

theorem exists_open {entries : List (Fate × Bool)}
    (hexec : (Run.exec (step sampleAlgorithms 1) (fun _ _ => True) start events).any
      (fun s => decide (s.summary = entries)) = true)
    (hopen : ∃ entry ∈ entries, entry.1 ≠ .pending ∧ entry.2 = false) :
    ∃ s, Run (step sampleAlgorithms 1) (fun _ _ => True) start events s ∧
      s.summary = entries ∧ ¬ s.Releases := by
  obtain ⟨s, run, rfl⟩ := Run.exists_of_exec _ _ _ _ (summary · = entries) hexec
  refine ⟨s, run, rfl, fun releases => ?_⟩
  obtain ⟨_, hentry, hfate, hclosed⟩ := hopen
  obtain ⟨c, hc, rfl⟩ := List.mem_map.mp hentry
  cases hclosed.symm.trans (releases c hc hfate)

/-- A client that closes its end, a request that finds the queue full, and a
message that is no binding request: none of the connections is closed. -/
theorem exists_not_releases : (∃ s, Run (step sampleAlgorithms 1) (fun _ _ => True) start
  [.accept (sampleClient 1 7)] s ∧ s.summary = [(.rejected (.header .unexpectedEOF), false)] ∧ ¬
  s.Releases) ∧ (∃ s, Run (step sampleAlgorithms 1) (fun _ _ => True) start
  [.accept (sampleClient 1 20), .accept (sampleClient 1 20), .accept (sampleClient 1 20)] s ∧
  s.summary = [(.pending, false), (.pending, false), (.dropped, false)] ∧ ¬ s.Releases) ∧ ∃ s, Run
  (step sampleAlgorithms 1) (fun _ _ => True) start [.accept (sampleClient 2 20), .take 0, .process
  0] s ∧ s.summary = [(.failed, false)] ∧ ¬ s.Releases := ⟨exists_open (by decide +kernel)
  (by decide), exists_open (by decide +kernel) (by decide), exists_open (by decide +kernel)
  (by decide)⟩

end TCPServer

end Pig.Stun
