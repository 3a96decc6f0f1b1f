import Pig.Lib.Go

namespace Pig

abbrev Segments := List Bytes

namespace Segments

/-- The bytes that are read one segment after the other until there are `size`
of them or the stream has ended, and what is left of the stream. -/
def readFull : (size : Nat) → Segments → Bytes × Segments
  | 0, stream => ([], stream)
  | _ + 1, [] => ([], [])
  | size + 1, segment :: rest =>
    if segment.length ≤ size + 1 then
      let (more, after) := readFull (size + 1 - segment.length) rest
      (segment ++ more, after)
    else (segment.take (size + 1), segment.drop (size + 1) :: rest)

inductive ReadError where
  | eof
  | unexpectedEOF
  deriving DecidableEq, Repr

def readError (found : Nat) : ReadError :=
  if found = 0 then .eof else .unexpectedEOF

theorem readFull_eq (size : Nat) (stream : Segments) :
    (stream.readFull size).1 = stream.flatten.take size ∧
      (stream.readFull size).2.flatten = stream.flatten.drop size := by
  induction stream generalizing size with
  | nil => cases size <;> exact ⟨rfl, rfl⟩
  | cons segment rest ih =>
    cases size with
    | zero => exact ⟨rfl, rfl⟩
    | succ size =>
      rw [readFull, List.flatten_cons]
      split
      · next hle =>
          obtain ⟨hfirst, hrest⟩ := ih (size + 1 - segment.length)
          rw [List.take_append, List.drop_append,
            List.take_of_length_le hle, List.drop_of_length_le hle]
          exact ⟨congrArg (segment ++ ·) hfirst, hrest⟩
      · next hlt =>
          rw [List.take_append_of_le_length (by omega), List.drop_append_of_le_length (by omega)]
          exact ⟨rfl, rfl⟩

theorem flatten_readFull (size : Nat) (stream : Segments) :
    (stream.readFull size).2.flatten = stream.flatten.drop size :=
  (readFull_eq size stream).2

end Segments

namespace Go.Slice

def readFull (slice : Slice) (low high : Nat) (stream : Segments) :
    Checked (Slice × Nat × Segments) := do
  let (found, rest) := stream.readFull (high - low)
  return (← slice.copyTo low high found, found.length, rest)

theorem readFull_of_le (slice : Slice) {low high : Nat} (stream : Segments)
    (hle : low ≤ high) (hhigh : high ≤ slice.cap) :
    slice.readFull low high stream = .ok (slice.write low (stream.flatten.take (high - low)), min
        (high - low) stream.flatten.length, (stream.readFull (high - low)).2) := by
  have hcopy : slice.copyTo low high (stream.flatten.take (high - low)) =
      .ok (slice.write low (stream.flatten.take (high - low))) := by
    rw [copyTo, if_pos ⟨hle, hhigh⟩, List.take_take, Nat.min_self]
  simp only [readFull, (Segments.readFull_eq _ stream).1, hcopy, List.length_take]
  rfl

theorem readFull_of_gt (slice : Slice) {low high : Nat} (stream : Segments) (hgt : high < low) :
    slice.readFull low high stream = .error .sliceBounds := by
  simp only [readFull, copyTo, if_neg (fun h : low ≤ high ∧ high ≤ slice.cap =>
    absurd h.1 (Nat.not_le.2 hgt))]
  rfl

end Go.Slice

end Pig
