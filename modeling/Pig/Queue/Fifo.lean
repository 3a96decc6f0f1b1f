import Pig.Lib.Go
import Pig.Queue.Wred

namespace Pig.Queue

open Go

/-! Making queues. What is made by the language has a size that is not negative
and not over a limit, which depends on the size of the elements. -/

/-- The numbers of elements that a slice and a channel may have. The queue of
the default size can be made. -/
structure Runtime where
  sliceLimit : Nat
  chanLimit : Nat
  le_sliceLimit : 256 ≤ sliceLimit
  le_chanLimit : 256 ≤ chanLimit

def linuxRuntime : Runtime where
  sliceLimit := 2 ^ 44
  chanLimit := 2 ^ 44 - 6
  le_sliceLimit := by decide
  le_chanLimit := by decide

inductive Panic where
  | makeSlice
  | makeChan
  | wred (message : String)
  | nilAdapter
  deriving DecidableEq, Repr

section

variable {Item : Type} (runtime : Runtime)

def makeSlice (zero : Item) (size : Int) : Except Panic (List Item) :=
  if 0 ≤ size ∧ size ≤ runtime.sliceLimit then
    .ok (List.replicate size.toNat zero)
  else .error .makeSlice

structure Channel (Item : Type) where
  capacity : Nat
  buffer : List Item
  deriving DecidableEq, Repr

def makeChan (Item : Type) (size : Int) : Except Panic (Channel Item) :=
  if 0 ≤ size ∧ size ≤ runtime.chanLimit then
    .ok { capacity := size.toNat, buffer := [] }
  else .error .makeChan

structure FIFO (Item : Type) where
  queue : List Item
  length : Int
  elems : Int
  rCursor : Int
  wCursor : Int
  wred : Option WRED
  closed : Bool
  deriving DecidableEq, Repr

def newFIFO (zero : Item) (length : Int) : Except Panic (FIFO Item) := do
  let queue ← makeSlice runtime zero length
  .ok
    { queue := queue
      length := length
      elems := 0
      rCursor := 0
      wCursor := 0
      wred := none
      closed := false }

def FIFO.withWRED (pow : ℚ → ℚ) (f : FIFO Item)
    (factor dropProbability minThPercent maxThPercent : ℚ) :
    Except Panic (FIFO Item) := do
  let wred ← (newWRED pow f.length factor dropProbability minThPercent maxThPercent).mapError .wred
  .ok { f with wred := some wred }

variable {runtime}

theorem exists_makeChan_iff (Item : Type) {size : Int} :
    (∃ channel, makeChan runtime Item size = .ok channel) ↔
      0 ≤ size ∧ size ≤ runtime.chanLimit := by
  by_cases h : 0 ≤ size ∧ size ≤ runtime.chanLimit <;> simp [makeChan, h]

variable {zero : Item}

theorem exists_newFIFO_iff {length : Int} :
    (∃ f, newFIFO runtime zero length = .ok f) ↔ 0 ≤ length ∧ length ≤ runtime.sliceLimit := by
  by_cases h : 0 ≤ length ∧ length ≤ runtime.sliceLimit <;> simp [newFIFO, makeSlice, h]

theorem length_newFIFO {length : Int} {f : FIFO Item}
    (hf : newFIFO runtime zero length = .ok f) : f.length = length := by
  obtain ⟨queue, -, hf⟩ := bind_eq_ok.1 hf
  cases hf
  rfl

theorem exists_withWRED_iff {pow : ℚ → ℚ} {f : FIFO Item}
    {factor dropProbability minThPercent maxThPercent : ℚ} :
    (∃ managed, f.withWRED pow factor dropProbability minThPercent maxThPercent = .ok managed) ↔
      Acceptable f.length factor dropProbability maxThPercent := by
  rw [← exists_newWRED_iff pow minThPercent]
  constructor
  · rintro ⟨managed, hmanaged⟩
    obtain ⟨wred, hwred, -⟩ := bind_eq_ok.1 hmanaged
    exact ⟨wred, mapError_ok_iff.1 hwred⟩
  · rintro ⟨wred, hwred⟩
    exact ⟨_, bind_eq_ok.2 ⟨wred, mapError_ok_iff.2 hwred, rfl⟩⟩

end

end Pig.Queue
