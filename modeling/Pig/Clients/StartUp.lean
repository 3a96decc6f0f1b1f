import Pig.Lib.Run

namespace Pig.Clients

/-! The goroutines that are launched when a server starts, up to the choice of
an inbound queue for each client or stream. -/

inductive Platform where
  | linux
  | others
  deriving DecidableEq, Repr

inductive QueueFault where
  | divide
  | index
  deriving DecidableEq, Repr

def getInboundPktQueue (platform : Platform) (inbound : Nat) (nextQueueID : UInt64) :
    Except QueueFault Nat :=
  match platform with
  | .linux => if inbound = 0 then .error .divide else .ok (nextQueueID.toNat % inbound)
  | .others => if inbound = 0 then .error .index else .ok 0

structure StartUp where
  started : Bool
  inbound : Nat
  clients : Nat
  nextQueueID : UInt64
  reading : Bool
  fault : Option QueueFault
  deriving DecidableEq, Repr

inductive StartEvent where
  | start
  | appendQueue
  | acceptClient
  | handleInbound (client : Nat)
  | readFromAdapter
  deriving DecidableEq, Repr

namespace StartUp

def new : StartUp where
  started := false
  inbound := 0
  clients := 0
  nextQueueID := 0
  reading := false
  fault := none

def handleInbound (platform : Platform) (s : StartUp) : StartUp :=
  let s := { s with nextQueueID := s.nextQueueID + 1 }
  match getInboundPktQueue platform s.inbound s.nextQueueID with
  | .error fault => { s with fault := some fault }
  | .ok _ => s

/-- Once Start has launched them the goroutines run in any order. The adapter
has `queues` queues. -/
def step (platform : Platform) (queues : Nat) (s : StartUp) (event : StartEvent) : Option StartUp :=
  if s.fault.isSome then none
  else
    match event with
    | .start => if s.started then none else some { s with started := true }
    | .appendQueue =>
      if s.started ∧ s.inbound < queues then some { s with inbound := s.inbound + 1 } else none
    | .acceptClient => if s.started then some { s with clients := s.clients + 1 } else none
    | .handleInbound client =>
      if client < s.clients then some (s.handleInbound platform) else none
    | .readFromAdapter => if s.started then some { s with reading := true } else none

/-- No client or stream is handled before the first queue is there. -/
def Ordered (events : List StartEvent) : Prop :=
  ∀ client, ¬ Run.OccursAfter (.appendQueue ∉ ·) (.handleInbound client) events

structure Tracks (events : List StartEvent) (s : StartUp) : Prop where
  inbound_iff : s.inbound = 0 ↔ .appendQueue ∉ events
  fault_iff : s.fault = none ↔ Ordered events

variable {platform : Platform} {queues : Nat} {s after : StartUp} {events : List StartEvent}

theorem inbound_handleInbound : (s.handleInbound platform).inbound = s.inbound := by
  simp only [handleInbound]
  split <;> rfl

theorem fault_handleInbound (hnone : s.fault = none) :
    (s.handleInbound platform).fault = none ↔ s.inbound ≠ 0 := by
  simp only [handleInbound, getInboundPktQueue]
  cases platform <;> by_cases hzero : s.inbound = 0 <;> simp [hzero, hnone]

theorem ordered_append {event : StartEvent} : Ordered (events ++ [event]) ↔
    Ordered events ∧ ∀ client, event = .handleInbound client → .appendQueue ∈ events := by
  simp only [Ordered, Run.occursAfter_append_singleton, not_or, not_and, not_not, forall_and]

theorem Tracks.step (tracks : Tracks events s) {event : StartEvent}
    (hstep : s.step platform queues event = some after) : Tracks (events ++ [event]) after := by
  obtain ⟨hinbound, hfault⟩ := tracks
  unfold StartUp.step at hstep
  split at hstep
  · cases hstep
  · next hnone =>
    rw [Bool.not_eq_true, Option.isSome_eq_false_iff, Option.isNone_iff_eq_none] at hnone
    have hordered := hfault.mp hnone
    cases event with
    | handleInbound client =>
      dsimp only at hstep
      split at hstep
      · cases hstep
        refine ⟨?_, ?_⟩
        · rw [inbound_handleInbound, hinbound]
          simp
        · rw [fault_handleInbound hnone, Ne, hinbound, not_not, ordered_append]
          simp [hordered]
      · cases hstep
    | start | appendQueue | acceptClient | readFromAdapter =>
      dsimp only at hstep
      split at hstep
      all_goals cases hstep
      all_goals
        refine ⟨by simp [hinbound], ?_⟩
        rw [ordered_append]
        simp [hnone, hordered]

end StartUp

end Pig.Clients
