import Mathlib.Data.Set.Basic
import Pig.Lib.Run

namespace Pig.Clients

/-! The read buffers of a server that is not built for Linux. Of a slice only
its length counts. -/

inductive Place where
  | pool
  | reading
  | outbound
  | client
  | inbound
  deriving DecidableEq, Repr

inductive Version where
  | v4
  | v6
  | other
  deriving DecidableEq, Repr

structure Slices where
  held : List (Place × Nat)
  reads : List Nat
  deriving DecidableEq, Repr

/-- Slices are told apart by their position in the list. Get takes any slice
of the pool or makes a new one, and the pool may lose slices. -/
inductive SliceEvent where
  | readFromAdapter (source : Option Nat)
  | readError (index : Nat)
  | readPacket (index n : Nat) (version : Version) (room : Bool)
  | processOutbound (index : Nat) (accepted : Bool)
  | processPacket (index : Nat) (flushFails : Bool)
  | handleInbound (source : Option Nat) (room : Bool)
  | processInboundQueue (index : Nat)
  | collect (index : Nat)
  deriving DecidableEq, Repr

namespace Slices

def empty : Slices := ⟨[], []⟩

def take (s : Slices) (place : Place) (index : Nat) : Option (Nat × Slices) :=
  match s.held[index]? with
  | some (found, len) =>
    if found = place then some (len, { s with held := s.held.eraseIdx index }) else none
  | none => none

def put (s : Slices) (place : Place) (len : Nat) : Slices :=
  { s with held := s.held ++ [(place, len)] }

def get (s : Slices) (mtu : Nat) : Option Nat → Option (Nat × Slices)
  | none => some (mtu, s)
  | some index => s.take .pool index

/-- A packet of neither version is nil, and its slice is lost with it. -/
def readPacket (s : Slices) (len n : Nat) (version : Version) (room : Bool) : Option Slices :=
  if 0 < n ∧ n ≤ len then
    match version, room with
    | .v4, true => some (s.put .outbound n)
    | .other, true => some s
    | _, _ => some (s.put .pool len)
  else none

def step (mtu : Nat) (s : Slices) : SliceEvent → Option Slices
  | .readFromAdapter source => do
      let (len, s) ← s.get mtu source
      return { s.put .reading len with reads := s.reads ++ [len] }
  | .readError index => do
      let (len, s) ← s.take .reading index
      return s.put .pool len
  | .readPacket index n version room => do
      let (len, s) ← s.take .reading index
      s.readPacket len n version room
  | .processOutbound index accepted => do
      let (len, s) ← s.take .outbound index
      return s.put (if accepted then .client else .pool) len
  | .processPacket index flushFails => do
      -- The slice is put back twice if the batch is full and cannot be written.
      let (len, s) ← s.take .client index
      return if flushFails then (s.put .pool len).put .pool len else s.put .pool len
  | .handleInbound source room => do
      let (len, s) ← s.get mtu source
      return s.put (if room then .inbound else .pool) len
  | .processInboundQueue index => do
      let (len, s) ← s.take .inbound index
      return s.put .pool len
  | .collect index => do
      let (_, s) ← s.take .pool index
      return s

def ReadsFull (mtu : Nat) (s : Slices) : Prop := ∀ len ∈ s.reads, len = mtu

end Slices

def SliceEvent.Within (sizes : Set Nat) : SliceEvent → Prop
  | .readPacket _ n .v4 _ => n ∈ sizes
  | _ => True

namespace Slices

structure Full (mtu : Nat) (s : Slices) : Prop where
  held : ∀ slice ∈ s.held, slice.2 = mtu
  reads : s.ReadsFull mtu

variable {mtu : Nat} {s after : Slices} {len : Nat}

theorem Full.put (full : s.Full mtu) (place : Place) (hlen : len = mtu) :
    (s.put place len).Full mtu where
  held := by
    simp only [Slices.put, List.mem_append, List.mem_singleton]
    rintro slice (hslice | rfl)
    · exact full.held slice hslice
    · exact hlen
  reads := full.reads

theorem Full.take (full : s.Full mtu) {place : Place} {index : Nat}
    (htake : s.take place index = some (len, after)) : len = mtu ∧ after.Full mtu := by
  rw [Slices.take] at htake
  split at htake
  · next found other hfound =>
    simp only [Option.ite_none_right_eq_some, Option.some.injEq, Prod.mk.injEq] at htake
    obtain ⟨-, rfl, rfl⟩ := htake
    exact ⟨full.held _ (List.mem_of_getElem? hfound),
      fun slice hslice => full.held slice (List.mem_of_mem_eraseIdx hslice), full.reads⟩
  · cases htake

theorem Full.get (full : s.Full mtu) {source : Option Nat}
    (hget : s.get mtu source = some (len, after)) : len = mtu ∧ after.Full mtu := by
  cases source with
  | none =>
    cases hget
    exact ⟨rfl, full⟩
  | some index => exact full.take hget

theorem Full.step (full : s.Full mtu) {event : SliceEvent} (hsizes : event.Within {mtu})
    (hstep : s.step mtu event = some after) : after.Full mtu := by
  cases event with
  | readFromAdapter source =>
    obtain ⟨⟨len, taken⟩, hget, ⟨⟩⟩ := Option.bind_eq_some_iff.mp hstep
    obtain ⟨hlen, full⟩ := full.get hget
    refine ⟨(full.put .reading hlen).held, fun other hother => ?_⟩
    rcases List.mem_append.mp hother with hother | hother
    · exact full.reads other hother
    · exact (List.mem_singleton.mp hother).trans hlen
  | handleInbound source room =>
    obtain ⟨⟨len, taken⟩, hget, ⟨⟩⟩ := Option.bind_eq_some_iff.mp hstep
    obtain ⟨hlen, full⟩ := full.get hget
    exact full.put _ hlen
  | readPacket index n version room =>
    obtain ⟨⟨len, taken⟩, htake, hread⟩ := Option.bind_eq_some_iff.mp hstep
    obtain ⟨hlen, full⟩ := full.take htake
    dsimp only [Slices.readPacket] at hread
    split at hread
    · split at hread
      all_goals cases hread
      · exact full.put .outbound hsizes
      · exact full
      · exact full.put .pool hlen
    · cases hread
  | processPacket index flushFails =>
    obtain ⟨⟨len, taken⟩, htake, ⟨⟩⟩ := Option.bind_eq_some_iff.mp hstep
    obtain ⟨hlen, full⟩ := full.take htake
    have once := full.put .pool hlen
    split
    · exact once.put .pool hlen
    · exact once
  | readError index | processOutbound index | processInboundQueue index =>
    obtain ⟨⟨len, taken⟩, htake, ⟨⟩⟩ := Option.bind_eq_some_iff.mp hstep
    obtain ⟨hlen, full⟩ := full.take htake
    exact full.put _ hlen
  | collect index =>
    obtain ⟨⟨len, taken⟩, htake, ⟨⟩⟩ := Option.bind_eq_some_iff.mp hstep
    exact (full.take htake).2

def shortened (n : Nat) : List SliceEvent :=
  [.readFromAdapter none, .readPacket 0 n .v4 true, .processOutbound 0 false,
    .readFromAdapter (some 0)]

theorem run_shortened (sizes : Set Nat) {n : Nat} (hsize : n ∈ sizes) (hpos : 0 < n)
    (hle : n ≤ mtu) : Run (step mtu) (fun _ event => event.Within sizes) empty (shortened n)
      ⟨[(.reading, n)], [mtu, n]⟩ := by
  have hread : step mtu ⟨[(.reading, mtu)], [mtu]⟩ (.readPacket 0 n .v4 true) =
      some ⟨[(.outbound, n)], [mtu]⟩ := by
    simp [step, take, readPacket, put, hpos, hle]
  have first : Run (step mtu) (fun _ event => event.Within sizes) empty
      [.readFromAdapter none] ⟨[(.reading, mtu)], [mtu]⟩ := .one trivial rfl
  have second := first.next (show SliceEvent.Within sizes (.readPacket 0 n .v4 true) from hsize)
    hread
  have third := second.next (show SliceEvent.Within sizes (.processOutbound 0 false) from trivial)
    rfl
  exact third.next (show SliceEvent.Within sizes (.readFromAdapter (some 0)) from trivial) rfl

/-- All buffers that are passed to Read are full, whatever happens to the
packets, exactly if all IPv4 packets have the size of the MTU. -/
theorem readsFull_iff {sizes : Set Nat} (hsizes : ∀ n ∈ sizes, 0 < n ∧ n ≤ mtu) :
    (∀ events s, Run (step mtu) (fun _ event => event.Within sizes) empty events s →
      s.ReadsFull mtu) ↔ ∀ n ∈ sizes, n = mtu := by
  constructor
  · intro hfull n hn
    obtain ⟨hpos, hle⟩ := hsizes n hn
    exact hfull _ _ (run_shortened sizes hn hpos hle) n (by simp)
  · intro hmtu events s run
    have full : s.Full mtu := by
      refine run.invariant (Full mtu) ⟨nofun, nofun⟩ fun state event after full hwithin hstep =>
        full.step ?_ hstep
      cases event with
      | readPacket index n version room =>
        cases version with
        | v4 => exact hmtu n hwithin
        | v6 | other => trivial
      | _ => trivial
    exact full.reads

theorem readsFull_iff_full : ∃ s, Run (step 1500) (fun _ event => event.Within {1500}) empty
    (shortened 1500) s ∧ s.reads = [1500, 1500] ∧ s.ReadsFull 1500 := by
  have run := run_shortened {1500} rfl (by decide) (Nat.le_refl 1500)
  exact ⟨_, run, rfl, (readsFull_iff (by rintro n rfl; decide)).mpr (fun _ h => h) _ _ run⟩

/-- After a packet of 40 bytes the next one is read into 40 bytes. -/
theorem exists_not_readsFull : ∃ s, Run (step 1500) (fun _ event => event.Within {40}) empty
      (shortened 40) s ∧ s.reads = [1500, 40] ∧ ¬ s.ReadsFull 1500 :=
  ⟨_, run_shortened {40} rfl (by decide) (by decide), rfl,
    fun full => absurd (full 40 (by decide)) (by decide)⟩

end Slices

end Pig.Clients
