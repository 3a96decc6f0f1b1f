import Pig.Lib.Go

namespace Pig.Network

open Go

/-! The internet checksum as both packet types compute it: 16-bit words added
up in a wrapping `uint32`, folded twice and complemented. -/

def word (p : Slice) (position : Nat) : Checked Nat := do
  let low ← p.get (position + 1)
  let high ← p.get position
  return high.toNat * 256 + low.toNat

def wordAt (p : Slice) (position : Nat) : Nat :=
  (p.byte position).toNat * 256 + (p.byte (position + 1)).toNat

/-- The loop `sum += uint32(p[i]) << 8; sum += uint32(p[i+1])` over `count`
words from `start` on. -/
def sumWords (p : Slice) (start : Nat) : (count : Nat) → UInt32 → Checked UInt32
  | 0, sum => return sum
  | count + 1, sum => do
      let high ← p.get start
      let low ← p.get (start + 1)
      sumWords p (start + 2) count (sum + high.toUInt32 <<< 8 + low.toUInt32)

def sumTransport (p : Slice) (offset : Nat) (length : Int) (sum : UInt32) : Checked UInt32 := do
  let sum ← sumWords p offset (length / 2).toNat sum
  if length.tmod 2 = 1 then
    let last ← p.get (offset + length.toNat - 1)
    return sum + last.toUInt32 <<< 8
  else return sum

def foldSum (sum : UInt32) : UInt16 :=
  let sum := (sum >>> 16) + (sum &&& 0xffff)
  ~~~ (sum + (sum >>> 16)).toUInt16

def storeChecksum (p : Slice) (position : Nat) (checksum : UInt16) : Checked Slice := do
  let p ← p.set position (checksum >>> 8).toUInt8
  p.set (position + 1) checksum.toUInt8

def resum (p : Slice) (position : Nat) (checksum : Slice → Checked UInt16) : Checked Slice := do
  let p ← p.set position 0
  let p ← p.set (position + 1) 0
  let found ← checksum p
  storeChecksum p position found

def WordPlaces (position index : Nat) : Prop := index = position ∨ index = position + 1

variable {p : Slice} {position : Nat}

theorem word_bind_eq_ok {Result : Type} {next : Nat → Checked Result} {result : Result} :
    (word p position >>= next) = .ok result ↔
      position + 1 < p.len ∧ next (wordAt p position) = .ok result := by
  simp only [word, bind_assoc, p.get_bind_eq_ok, pure_bind]
  constructor
  · rintro ⟨hlow, -, hnext⟩
    exact ⟨hlow, hnext⟩
  · rintro ⟨hlow, hnext⟩
    exact ⟨hlow, Nat.lt_of_succ_lt hlow, hnext⟩

theorem word_eq (hlen : position + 1 < p.len) :
    word p position = .ok (wordAt p position) := by
  have hhigh : p.get position = .ok (p.byte position) := if_pos (Nat.lt_of_succ_lt hlen)
  have hlow : p.get (position + 1) = .ok (p.byte (position + 1)) := if_pos hlen
  rw [word, hlow, ok_bind, hhigh]
  rfl

theorem succeeds_word_bind {Result : Type} {next : Nat → Checked Result} :
    Succeeds (word p position >>= next) ↔
      position + 1 < p.len ∧ Succeeds (next (wordAt p position)) := by
  simp only [Succeeds, word_bind_eq_ok, exists_and_left]

theorem succeeds_sumWords (p : Slice) (start count : Nat) (sum : UInt32) :
    Succeeds (sumWords p start count sum) ↔ count = 0 ∨ start + 2 * count ≤ p.len := by
  induction count generalizing start sum with
  | zero => simp [sumWords]
  | succ count ih =>
    simp only [sumWords, p.succeeds_get_bind, ih]
    omega

theorem succeeds_sumTransport (p : Slice) (offset : Nat) (length : Int) (sum : UInt32) :
    Succeeds (sumTransport p offset length sum) ↔ length ≤ 0 ∨ offset + length.toNat ≤ p.len := by
  have hodd : length.tmod 2 = 1 ↔ 0 < length ∧ length % 2 = 1 := by
    rw [Int.tmod_eq_emod]
    split <;> omega
  rw [sumTransport, succeeds_bind_of_iff (c := length.tmod 2 = 1 →
    offset + length.toNat - 1 < p.len), succeeds_sumWords, hodd]
  · omega
  · split
    · rename_i hlast
      simp only [p.succeeds_get_bind, succeeds_pure, hlast, and_true, forall_const]
    · rename_i hlast
      simp [hlast]

theorem changedAt_storeChecksum {after : Slice} {checksum : UInt16}
    (hstore : storeChecksum p position checksum = .ok after) :
    p.ChangedAt (WordPlaces position) after := by
  simp only [storeChecksum, p.set_bind_eq_ok, Slice.set_eq_ok_iff] at hstore
  obtain ⟨-, -, rfl⟩ := hstore
  exact (Slice.ChangedAt.put p _ (.inl rfl)).trans (Slice.ChangedAt.put _ _ (.inr rfl))

theorem succeeds_storeChecksum (p : Slice) (position : Nat) (checksum : UInt16) :
    Succeeds (storeChecksum p position checksum) ↔ position + 1 < p.len := by
  simp only [storeChecksum, p.succeeds_set_bind, Slice.succeeds_set, Slice.len_put]
  omega

def cleared (p : Slice) (position : Nat) : Slice := (p.put position 0).put (position + 1) 0

@[simp] theorem len_cleared (p : Slice) (position : Nat) : (cleared p position).len = p.len := rfl

theorem changedAt_cleared (p : Slice) (position : Nat) :
    p.ChangedAt (WordPlaces position) (cleared p position) :=
  (Slice.ChangedAt.put p _ (.inl rfl)).trans (Slice.ChangedAt.put _ _ (.inr rfl))

variable {checksum : Slice → Checked UInt16}

theorem changedAt_resum {after : Slice} (hresum : resum p position checksum = .ok after) :
    p.ChangedAt (WordPlaces position) after := by
  rw [resum, p.set_bind_eq_ok, Slice.set_bind_eq_ok, bind_eq_ok] at hresum
  obtain ⟨-, -, found, -, hstore⟩ := hresum
  exact (changedAt_cleared p position).trans (changedAt_storeChecksum hstore)

theorem succeeds_resum :
    Succeeds (resum p position checksum) ↔
      position + 1 < p.len ∧ Succeeds (checksum (cleared p position)) := by
  rw [resum, p.succeeds_set_bind, Slice.succeeds_set_bind,
    succeeds_bind_of_iff (c := position + 1 < p.len)]
  · constructor
    · rintro ⟨-, hposition, hchecksum, -⟩
      exact ⟨hposition, hchecksum⟩
    · rintro ⟨hposition, hchecksum⟩
      exact ⟨Nat.lt_of_succ_lt hposition, hposition, hchecksum, hposition⟩
  · intro found
    rw [succeeds_storeChecksum]
    rfl

end Pig.Network
