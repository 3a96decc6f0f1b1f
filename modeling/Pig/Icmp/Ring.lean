import Mathlib.Algebra.Group.Int.Defs
import Pig.Icmp.Conn
import Pig.Lib.Circular

namespace Pig.Icmp

open Circular

/-! The byte buffer behind a connection: an array used in a circle, with two
counters that never stop growing and overflow together. -/

structure RingBuffer where
  data : Bytes
  size : Nat
  readPos : UInt64
  writePos : UInt64
  /-- The zero time is no deadline. -/
  readDeadline : Option Nat
  closed : Bool
  size_pos : 0 < size
  size_lt : size < 2 ^ 63
  length_data : data.length = size
  deriving DecidableEq, Repr

def isDeadlineExceeded (deadline : Option Nat) (now : Nat) : Bool :=
  match deadline with
  | none => false
  | some deadline => deadline < now

namespace RingBuffer

theorem newBuffer_size (size : Int) (hint : size < 2 ^ 63) :
    0 < (if size ≤ 0 then 64 * 1024 else size.toNat) ∧
      (if size ≤ 0 then 64 * 1024 else size.toNat) < 2 ^ 63 := by
  split
  · decide
  · omega

def newBuffer (size : Int) (hint : size < 2 ^ 63) : RingBuffer where
  data := List.replicate (if size ≤ 0 then 64 * 1024 else size.toNat) 0
  size := if size ≤ 0 then 64 * 1024 else size.toNat
  readPos := 0
  writePos := 0
  readDeadline := none
  closed := false
  size_pos := (newBuffer_size size hint).1
  size_lt := (newBuffer_size size hint).2
  length_data := List.length_replicate

variable (b : RingBuffer)

def index (pos : UInt64) : Nat := (pos % UInt64.ofNat b.size).toNat

def calculateUsed : Nat :=
  if b.writePos = b.readPos then 0
  else if b.writePos > b.readPos then
    let diff := b.writePos - b.readPos
    if diff ≤ UInt64.ofNat b.size then diff.toNat else b.size
  else
    -- The write counter has overflowed and the read counter has not.
    let used := b.index b.writePos + (b.size - b.index b.readPos)
    if used > b.size then b.size else used

def copyIn (source : Bytes) : Bytes :=
  let idx := b.index b.writePos
  let remaining := b.size - idx
  if remaining ≥ source.length then splice b.data idx source
  else
    splice (splice b.data idx (source.take remaining)) 0 (source.drop remaining)

def copyOut (available : Nat) : Bytes :=
  let idx := b.index b.readPos
  let remaining := b.size - idx
  if remaining ≥ available then b.data.window idx available
  else b.data.drop idx ++ b.data.take (available - remaining)

theorem toNat_size : (UInt64.ofNat b.size).toNat = b.size := by
  have := b.size_lt
  exact Nat.mod_eq_of_lt (by omega)

theorem index_eq (pos : UInt64) : b.index pos = pos.toNat % b.size := by
  rw [index, UInt64.toNat_mod, toNat_size]

theorem index_lt (pos : UInt64) : b.index pos < b.size := by
  rw [index_eq]
  exact Nat.mod_lt _ b.size_pos

variable {b}

theorem length_copyIn {source : Bytes} (h : source.length ≤ b.size) :
    (b.copyIn source).length = b.size := by
  have hidx := b.index_lt b.writePos
  have hdata := b.length_data
  unfold copyIn
  dsimp only
  split
  · rw [length_splice (by omega), hdata]
  · have hfirst : (splice b.data (b.index b.writePos)
        (source.take (b.size - b.index b.writePos))).length = b.size := by
      rw [length_splice (by rw [List.length_take]; omega), hdata]
    rw [length_splice (by rw [hfirst, List.length_drop]; omega), hfirst]

variable (b)

def store (source : Bytes) (h : source.length ≤ b.size) : RingBuffer :=
  { b with
    data := b.copyIn source
    writePos := b.writePos + UInt64.ofNat source.length
    length_data := length_copyIn h }

def advance (available : Nat) : RingBuffer :=
  { b with readPos := b.readPos + UInt64.ofNat available }

/-- `Write` of data; nothing while it waits for room. -/
def write (data : Bytes) : Option (Except String (Nat × RingBuffer)) :=
  if data.isEmpty then some (.ok (0, b))
  else if b.closed then some (.error "buffer closed")
  else
    let used := b.calculateUsed
    let available := b.size - used
    if used ≥ b.size ∨ available < data.length then none
    else
      let writeLen := if data.length > available then available
        else data.length
      have hfits : (data.take writeLen).length ≤ b.size := by
        have : writeLen ≤ b.size - b.calculateUsed := by
          dsimp only [writeLen, available, used]
          split <;> omega
        rw [List.length_take]
        omega
      some (.ok (writeLen, b.store (data.take writeLen) hfits))

/-- `Read` into a slice of `count` bytes; nothing while it waits for data. -/
def read (now count : Nat) : Option (Except String (Bytes × RingBuffer)) :=
  if count = 0 then some (.ok ([], b))
  else if b.closed then some (.error "buffer closed")
  else if isDeadlineExceeded b.readDeadline now then
    some (.error "read deadline exceeded")
  else if b.writePos = b.readPos then none
  else
    let available := if b.calculateUsed > count then count
      else b.calculateUsed
    some (.ok (b.copyOut available, b.advance available))

def close : RingBuffer := { b with closed := true, readPos := 0, writePos := 0 }

def between : Nat := (b.writePos - b.readPos).toNat

def stored : Bytes := (b.data.rotate b.readPos.toNat).take b.between

/-- The counters keep their residues when they overflow, and are no further
apart than the array is long. -/
structure Sound : Prop where
  size_dvd : b.size ∣ 2 ^ 64
  between_le : b.between ≤ b.size

theorem between_eq : b.between = (2 ^ 64 - b.readPos.toNat + b.writePos.toNat) % 2 ^ 64 :=
  UInt64.toNat_sub ..

variable {b}

theorem between_eq_zero (h : b.writePos = b.readPos) : b.between = 0 := by
  have hread := b.readPos.toNat_lt
  rw [between_eq, h]
  omega

namespace Sound

theorem length_stored (sound : b.Sound) : b.stored.length = b.between := by
  rw [stored, List.length_take, List.length_rotate, b.length_data]
  exact Nat.min_eq_left sound.between_le

theorem stored_eq_nil_iff (sound : b.Sound) : b.stored = [] ↔ b.writePos = b.readPos := by
  have hread := b.readPos.toNat_lt
  have hwrite := b.writePos.toNat_lt
  rw [← List.length_eq_zero_iff, sound.length_stored, between_eq, ← UInt64.toNat_inj]
  omega

theorem index_writePos (sound : b.Sound) :
    b.index b.writePos = (b.readPos.toNat + b.between) % b.size := by
  have hread := b.readPos.toNat_lt
  have hwrite := b.writePos.toNat_lt
  have hpos : b.writePos.toNat = (b.readPos.toNat + b.between) % 2 ^ 64 := by
    rw [between_eq]
    omega
  rw [index_eq, hpos, Nat.mod_mod_of_dvd _ sound.size_dvd]

theorem size_sub_index (sound : b.Sound) (hnear : 2 ^ 64 - b.readPos.toNat ≤ b.size) :
    b.size - b.index b.readPos = 2 ^ 64 - b.readPos.toNat := by
  have hread := b.readPos.toNat_lt
  obtain ⟨rounds, hrounds⟩ := sound.size_dvd
  obtain ⟨before, rfl⟩ : ∃ before, rounds = before + 1 := by
    refine ⟨rounds - 1, (Nat.sub_add_cancel ?_).symm⟩
    refine Nat.pos_of_ne_zero ?_
    rintro rfl
    simp at hrounds
  have hpos : b.readPos.toNat = b.size * before + (b.size - (2 ^ 64 - b.readPos.toNat)) := by
    rw [Nat.mul_succ] at hrounds
    omega
  have hidx : b.index b.readPos = b.size - (2 ^ 64 - b.readPos.toNat) := by
    rw [index_eq]
    conv_lhs => rw [hpos]
    rw [Nat.mul_add_mod]
    exact Nat.mod_eq_of_lt (by omega)
  omega

theorem calculateUsed_eq (sound : b.Sound) : b.calculateUsed = b.between := by
  have hread := b.readPos.toNat_lt
  have hle := sound.between_le
  have hbetween := b.between_eq
  unfold calculateUsed
  split
  · next heq =>
      rw [heq] at hbetween
      omega
  · next hne =>
      split
      · next hlt =>
          have hdiff : b.writePos - b.readPos ≤ UInt64.ofNat b.size := by
            rw [UInt64.le_iff_toNat_le, toNat_size]
            exact hle
          rw [if_pos hdiff]
          rfl
      · next hnot =>
          -- The bytes up to the overflow, and those after it.
          have hover : b.writePos.toNat < b.readPos.toNat := by
            have hnot' : ¬ b.readPos.toNat < b.writePos.toNat := hnot
            have hne' : b.writePos.toNat ≠ b.readPos.toNat :=
              fun h => hne (UInt64.toNat_inj.mp h)
            omega
          have hwriteIdx : b.index b.writePos = b.writePos.toNat := by
            rw [index_eq]
            exact Nat.mod_eq_of_lt (by omega)
          have hreadIdx : b.size - b.index b.readPos = 2 ^ 64 - b.readPos.toNat :=
            sound.size_sub_index (by omega)
          rw [hwriteIdx, hreadIdx, if_neg (by omega)]
          omega

theorem copyOut_eq (sound : b.Sound) {available : Nat} (h : available ≤ b.between) :
    b.copyOut available = b.stored.take available := by
  have hidx := b.index_lt b.readPos
  have hdata := b.length_data
  have hle := sound.between_le
  have hturn : b.data.rotate b.readPos.toNat = b.data.rotate (b.index b.readPos) := by
    rw [index_eq, ← hdata, List.rotate_mod]
  rw [stored, List.take_take, Nat.min_eq_left h, hturn]
  unfold copyOut
  dsimp only
  split
  · rw [take_rotate (by omega)]
    rfl
  · rw [take_rotate_over (by omega) (by omega) (by omega), hdata]

theorem rotate_copyIn (b : RingBuffer) {source : Bytes} (h : source.length ≤ b.size) :
    (b.copyIn source).rotate (b.index b.writePos) =
      source ++ (b.data.rotate (b.index b.writePos)).drop source.length := by
  have hidx := b.index_lt b.writePos
  have hdata := b.length_data
  unfold copyIn
  dsimp only
  split
  · exact rotate_splice (by omega)
  · rw [← hdata]
    exact rotate_splice_splice (by omega) (by omega) (by omega)

section

variable {source : Bytes} {hfits : source.length ≤ b.size}

theorem between_store (h : b.between + source.length ≤ b.size) :
    (b.store source hfits).between = b.between + source.length := by
  have hsize := b.size_lt
  have hsource : (UInt64.ofNat source.length).toNat = source.length := by
    exact Nat.mod_eq_of_lt (by omega)
  have hafter : (b.store source hfits).between = (2 ^ 64 - b.readPos.toNat +
        (b.writePos.toNat + source.length) % 2 ^ 64) % 2 ^ 64 := by
    change (2 ^ 64 - b.readPos.toNat + (b.writePos + UInt64.ofNat source.length).toNat) % 2 ^ 64 = _
    rw [UInt64.toNat_add, hsource]
  have hbetween := b.between_eq
  omega

theorem stored_store (sound : b.Sound) (h : b.between + source.length ≤ b.size) :
    (b.store source hfits).stored = b.stored ++ source := by
  have hdata := b.length_data
  have hturn (cells : Bytes) (hcells : cells.length = b.size) : cells.rotate
      (b.readPos.toNat + b.between) = cells.rotate (b.index b.writePos) := by
    rw [sound.index_writePos, ← hcells, List.rotate_mod]
  rw [stored, between_store h, stored]
  refine take_rotate_append (by omega) ?_
  change (b.copyIn source).rotate (b.readPos.toNat + b.between) =
    source ++ (b.data.rotate (b.readPos.toNat + b.between)).drop _
  rw [hturn _ (length_copyIn hfits), hturn _ hdata]
  exact rotate_copyIn b hfits

theorem store (sound : b.Sound) (h : b.between + source.length ≤ b.size) :
    (b.store source hfits).Sound where
  size_dvd := sound.size_dvd
  between_le := by
    rw [between_store h]
    exact h

end

section

variable {available : Nat}

theorem between_advance (sound : b.Sound) (h : available ≤ b.between) :
    (b.advance available).between = b.between - available := by
  have hread := b.readPos.toNat_lt
  have hsize := b.size_lt
  have hle := sound.between_le
  have havailable : (UInt64.ofNat available).toNat = available := by
    exact Nat.mod_eq_of_lt (by omega)
  have hafter : (b.advance available).between = (2 ^ 64 - (b.readPos.toNat + available) % 2 ^ 64 +
        b.writePos.toNat) % 2 ^ 64 := by
    change (2 ^ 64 - (b.readPos + UInt64.ofNat available).toNat + b.writePos.toNat) % 2 ^ 64 = _
    rw [UInt64.toNat_add, havailable]
  have hbetween := b.between_eq
  omega

theorem stored_advance (sound : b.Sound) (h : available ≤ b.between) :
    (b.advance available).stored = b.stored.drop available := by
  have hdata := b.length_data
  have hle := sound.between_le
  have hpos : (b.advance available).readPos.toNat = (b.readPos.toNat + available) % 2 ^ 64 := by
    change (b.readPos + UInt64.ofNat available).toNat = _
    rw [UInt64.toNat_add, UInt64.toNat_ofNat', Nat.add_mod_mod]
  rw [stored, stored, between_advance sound h, hpos, drop_take_rotate h (by omega)]
  congr 1
  change b.data.rotate _ = _
  rw [← List.rotate_mod, hdata, Nat.mod_mod_of_dvd _ sound.size_dvd, ← hdata, List.rotate_mod]

theorem advance (sound : b.Sound) (h : available ≤ b.between) : (b.advance available).Sound where
  size_dvd := sound.size_dvd
  between_le := by
    have hle := sound.between_le
    rw [between_advance sound h]
    change _ ≤ b.size
    omega

end

theorem write_eq (sound : b.Sound) (hopen : b.closed = false) (data : Bytes) :
    (b.between + data.length ≤ b.size ∧ ∃ after, after.Sound ∧ after.closed = false ∧ after.size =
      b.size ∧ after.readDeadline = b.readDeadline ∧ after.stored = b.stored ++ data ∧ b.write data
      = some (.ok (data.length, after))) ∨ b.size < b.between + data.length ∧ b.write data = none :=
      by
  have hle := sound.between_le
  unfold write
  split
  · next hempty =>
      obtain rfl := List.isEmpty_iff.mp hempty
      exact .inl ⟨hle, b, sound, hopen, rfl, rfl, (List.append_nil _).symm, rfl⟩
  · next hempty =>
      have hdata : 0 < data.length :=
        List.length_pos_iff.mpr fun h => hempty (List.isEmpty_iff.mpr h)
      have hused := sound.calculateUsed_eq
      rw [if_neg (by simp [hopen])]
      dsimp only
      split
      · next hwaits => exact .inr ⟨by omega, rfl⟩
      · next hroom =>
          have hfits : b.between + data.length ≤ b.size := by omega
          refine .inl ⟨hfits, b.store data (by omega), sound.store hfits,
            hopen, rfl, rfl, sound.stored_store hfits, ?_⟩
          have hlen : (if data.length > b.size - b.calculateUsed then
              b.size - b.calculateUsed else data.length) = data.length :=
            if_neg (by omega)
          simp only [hlen, List.take_length]

theorem read_eq (sound : b.Sound) (hopen : b.closed = false) {now count : Nat} (hcount : count ≠ 0)
    (htime : isDeadlineExceeded b.readDeadline now = false) :
    (b.stored = [] ∧ b.read now count = none) ∨ b.stored ≠ [] ∧ ∃ after, after.Sound ∧ after.closed
      = false ∧ after.size = b.size ∧ after.readDeadline = b.readDeadline ∧ after.stored =
      b.stored.drop count ∧ b.read now count = some (.ok (b.stored.take count, after)) := by
  have hlength := sound.length_stored
  unfold read
  rw [if_neg hcount, if_neg (by simp [hopen]), if_neg (by simp [htime])]
  split
  · next heq => exact .inl ⟨sound.stored_eq_nil_iff.mpr heq, rfl⟩
  · next hne =>
      have hstored := mt sound.stored_eq_nil_iff.mp hne
      have havailable : (if b.calculateUsed > count then count
          else b.calculateUsed) = min count b.between := by
        rw [sound.calculateUsed_eq]
        split <;> omega
      have hmin : min count b.between ≤ b.between := Nat.min_le_right ..
      refine .inr ⟨hstored, _, sound.advance hmin, hopen, rfl, rfl, ?_, ?_⟩
      · rw [sound.stored_advance hmin, ← hlength]
        by_cases hmore : count ≤ b.stored.length
        · rw [Nat.min_eq_left hmore]
        · rw [Nat.min_eq_right (by omega), List.drop_length, List.drop_of_length_le (by omega)]
      · dsimp only
        rw [havailable, sound.copyOut_eq hmin, ← hlength, ← List.take_eq_take_min]

end Sound

end RingBuffer

inductive Call where
  | write (data : Bytes)
  | read (now count : Nat)
  deriving DecidableEq, Repr

inductive Reply where
  | wrote (count : Nat)
  | got (bytes : Bytes)
  | failed (error : String)
  deriving DecidableEq, Repr

def RingBuffer.call (b : RingBuffer) : Call → Option (Reply × RingBuffer)
  | .write data => (b.write data).map fun
      | .ok (count, after) => (.wrote count, after)
      | .error error => (.failed error, b)
  | .read now count => (b.read now count).map fun
      | .ok (bytes, after) => (.got bytes, after)
      | .error error => (.failed error, b)

structure ByteQueue where
  capacity : Nat
  readDeadline : Option Nat
  bytes : Bytes
  deriving DecidableEq, Repr

def ByteQueue.call (q : ByteQueue) : Call → Option (Reply × ByteQueue)
  | .write data =>
    if q.bytes.length + data.length ≤ q.capacity then
      some (.wrote data.length, { q with bytes := q.bytes ++ data })
    else none
  | .read now count =>
    if count = 0 then some (.got [], q)
    else if isDeadlineExceeded q.readDeadline now then
      some (.failed "read deadline exceeded", q)
    else if q.bytes = [] then none
    else some (.got (q.bytes.take count), { q with bytes := q.bytes.drop count })

def replies {State : Type} (call : State → Call → Option (Reply × State)) :
    State → List Call → Option (List Reply × State)
  | state, [] => some ([], state)
  | state, next :: rest => do
      let (reply, middle) ← call state next
      let (others, last) ← replies call middle rest
      return (reply :: others, last)

namespace RingBuffer

variable {b : RingBuffer}

def queue (b : RingBuffer) : ByteQueue where
  capacity := b.size
  readDeadline := b.readDeadline
  bytes := b.stored

theorem Sound.call (sound : b.Sound) (hopen : b.closed = false) (next : Call) :
    (b.call next = none ∧ b.queue.call next = none) ∨
      ∃ reply after, after.Sound ∧ after.closed = false ∧ b.call next = some (reply, after) ∧
        b.queue.call next = some (reply, after.queue) := by
  cases next with
  | write data =>
    have hlength := sound.length_stored
    obtain ⟨hfits, after, soundAfter, hclosed, hsize, hdeadline, hstored,
      hwrite⟩ | ⟨hover, hwrite⟩ := sound.write_eq hopen data
    · refine .inr ⟨.wrote data.length, after, soundAfter, hclosed, ?_, ?_⟩
      · rw [RingBuffer.call, hwrite]
        rfl
      · rw [ByteQueue.call, if_pos (by simp only [queue]; omega)]
        simp only [queue, hsize, hdeadline, hstored]
    · refine .inl ⟨?_, ?_⟩
      · rw [RingBuffer.call, hwrite]
        rfl
      · rw [ByteQueue.call, if_neg (by simp only [queue]; omega)]
  | read now count =>
    by_cases hcount : count = 0
    · exact .inr ⟨.got [], b, sound, hopen, by
        simp [RingBuffer.call, read, hcount], by
        simp [ByteQueue.call, hcount]⟩
    by_cases htime : isDeadlineExceeded b.readDeadline now
    · exact .inr ⟨.failed "read deadline exceeded", b, sound, hopen, by
        simp [RingBuffer.call, read, hcount, hopen, htime], by
        simp [ByteQueue.call, queue, hcount, htime]⟩
    · have htime := (Bool.not_eq_true _).mp htime
      obtain ⟨hstored, hread⟩ | ⟨hstored, after, soundAfter, hclosed, hsize, hdeadline, hafter,
        hread⟩ := sound.read_eq hopen hcount htime
      · refine .inl ⟨?_, ?_⟩
        · rw [RingBuffer.call, hread]
          rfl
        · simp [ByteQueue.call, queue, hcount, htime, hstored]
      · refine .inr ⟨.got (b.stored.take count), after, soundAfter, hclosed, ?_, ?_⟩
        · rw [RingBuffer.call, hread]
          rfl
        · simp [ByteQueue.call, queue, hcount, htime, hstored, hsize, hdeadline, hafter]

theorem Sound.replies (sound : b.Sound) (hopen : b.closed = false) (calls : List Call) :
    (Icmp.replies RingBuffer.call b calls = none ∧ Icmp.replies ByteQueue.call b.queue calls = none)
      ∨ ∃ all after, after.Sound ∧ Icmp.replies RingBuffer.call b calls = some (all, after) ∧
      Icmp.replies ByteQueue.call b.queue calls = some (all, after.queue) := by
  induction calls generalizing b with
  | nil => exact .inr ⟨[], b, sound, rfl, rfl⟩
  | cons next rest ih =>
    obtain ⟨hring, hqueue⟩ | ⟨reply, middle, soundMiddle, hclosed, hring,
      hqueue⟩ := sound.call hopen next
    · exact .inl ⟨by simp [Icmp.replies, hring],
        by simp [Icmp.replies, hqueue]⟩
    · obtain ⟨hringRest, hqueueRest⟩ | ⟨all, after, soundAfter, hringRest,
        hqueueRest⟩ := ih soundMiddle hclosed
      · exact .inl ⟨by simp [Icmp.replies, hring, hringRest],
          by simp [Icmp.replies, hqueue, hqueueRest]⟩
      · exact .inr ⟨reply :: all, after, soundAfter,
          by simp [Icmp.replies, hring, hringRest],
          by simp [Icmp.replies, hqueue, hqueueRest]⟩

/-- An open buffer answers calls like the queue of the bytes between its
counters, and waits where the queue would, wherever the counters stand. -/
theorem replies_eq_queue (b : RingBuffer) (hdvd : b.size ∣ 2 ^ 64) (hopen : b.closed = false)
    (hbetween : (b.writePos - b.readPos).toNat ≤ b.size) (calls : List Call) :
    (Icmp.replies RingBuffer.call b calls).map (fun (all, after) => (all, after.queue)) =
      Icmp.replies ByteQueue.call b.queue calls ∧
    ∀ all after, Icmp.replies RingBuffer.call b calls = some (all, after) →
      after.calculateUsed = after.queue.bytes.length := by
  have sound : b.Sound := ⟨hdvd, hbetween⟩
  obtain ⟨hring, hqueue⟩ | ⟨all, after, soundAfter, hring, hqueue⟩ := sound.replies hopen calls
  · rw [hring, hqueue]
    refine ⟨rfl, ?_⟩
    rintro all after ⟨⟩
  · rw [hring, hqueue]
    refine ⟨rfl, ?_⟩
    rintro all' after' ⟨⟩
    exact soundAfter.calculateUsed_eq.trans soundAfter.length_stored.symm

def overflowing : RingBuffer where
  data := [0, 1, 2, 3, 4, 5, 6, 7]
  size := 8
  readPos := 18446744073709551613
  writePos := 18446744073709551615
  readDeadline := none
  closed := false
  size_pos := by decide
  size_lt := by decide
  length_data := rfl

theorem replies_eq_queue_overflowing : (Icmp.replies RingBuffer.call overflowing
      [.write [10, 11, 12, 13], .read 0 5, .write [14], .read 0 9]).map
      (fun (all, after) => (all, after.queue)) = some ([.wrote 4, .got [5, 6, 10, 11, 12], .wrote 1,
      .got [13, 14]], ⟨8, none, []⟩) := by
  rw [(replies_eq_queue overflowing (by decide) rfl (by decide) _).1]
  decide +kernel

structure Shows (b : RingBuffer) (buffer : Buffer) : Prop where
  sound : b.Sound
  closed_eq : b.closed = buffer.closed
  readPos_le : buffer.readPos ≤ buffer.bytes.length
  stored_eq : b.closed = false → b.stored = buffer.bytes.drop buffer.readPos

theorem shows_newBuffer {size : Int} (hint : size < 2 ^ 63)
    (hdvd : (newBuffer size hint).size ∣ 2 ^ 64) :
    (newBuffer size hint).Shows {} where
  sound := ⟨hdvd, by
    rw [between_eq_zero rfl]
    exact Nat.zero_le _⟩
  closed_eq := rfl
  readPos_le := Nat.le_refl 0
  stored_eq := by
    intro _
    rw [stored, between_eq_zero rfl]
    rfl

namespace Shows

variable {buffer : Buffer}

theorem close (shows : b.Shows buffer) : b.close.Shows buffer.close where
  sound := ⟨shows.sound.size_dvd, by
    rw [between_eq_zero rfl]
    exact Nat.zero_le _⟩
  closed_eq := rfl
  readPos_le := shows.readPos_le
  stored_eq := by
    intro hopen
    cases hopen

theorem write (shows : b.Shows buffer) (data : Bytes) {outcome : Except String (Nat × RingBuffer)}
    (hwrite : b.write data = some outcome) :
    (∃ error, outcome = .error error ∧ buffer.write data = .error error) ∨ ∃ after seen, outcome =
      .ok (data.length, after) ∧ buffer.write data = .ok seen ∧ after.Shows seen := by
  by_cases hclosed : b.closed
  · have hseen := shows.closed_eq.symm.trans hclosed
    rw [RingBuffer.write, if_pos hclosed] at hwrite
    split at hwrite
    · next hempty =>
        cases hwrite
        refine .inr ⟨b, buffer, ?_, if_pos hempty, shows⟩
        rw [List.isEmpty_iff.mp hempty]
        rfl
    · next hempty =>
        cases hwrite
        exact .inl ⟨_, rfl, by simp [Buffer.write, hempty, hseen]⟩
  · have hopen := (Bool.not_eq_true _).mp hclosed
    have hseen := shows.closed_eq.symm.trans hopen
    obtain ⟨-, after, sound, hafter, -, -, hstored, heq⟩ | ⟨-, hnone⟩ :=
      shows.sound.write_eq hopen data
    · cases hwrite.symm.trans heq
      refine .inr ⟨after, { buffer with bytes := buffer.bytes ++ data }, rfl,
        ?_, sound, hafter.trans hseen.symm, ?_, ?_⟩
      · unfold Buffer.write
        split
        · next hempty => simp [List.isEmpty_iff.mp hempty]
        · simp [hseen]
      · have hle := shows.readPos_le
        simp only [List.length_append]
        omega
      · intro _
        rw [hstored, shows.stored_eq hopen]
        exact (List.drop_append_of_le_length shows.readPos_le).symm
    · cases hwrite.symm.trans hnone

theorem read (shows : b.Shows buffer) {now count : Nat}
    (htime : isDeadlineExceeded b.readDeadline now = false) :
    (b.read now count = none ∧ buffer.read count = none) ∨
      (∃ error, b.read now count = some (.error error) ∧ buffer.read count = some (.error error)) ∨
      ∃ bytes after seen, b.read now count = some (.ok (bytes, after)) ∧
        buffer.read count = some (.ok (bytes, seen)) ∧ after.Shows seen := by
  by_cases hcount : count = 0
  · exact .inr (.inr ⟨[], b, buffer, by simp [RingBuffer.read, hcount],
      by simp [Buffer.read, hcount], shows⟩)
  by_cases hclosed : b.closed
  · have hseen := shows.closed_eq.symm.trans hclosed
    exact .inr (.inl ⟨"buffer closed",
      by simp [RingBuffer.read, hcount, hclosed],
      by simp [Buffer.read, hcount, hseen]⟩)
  · have hopen := (Bool.not_eq_true _).mp hclosed
    have hseen := shows.closed_eq.symm.trans hopen
    have hstored := shows.stored_eq hopen
    have hle := shows.readPos_le
    obtain ⟨hnil, hnone⟩ | ⟨hne, after, sound, hafter, -, -, hdrop, hread⟩ :=
      shows.sound.read_eq hopen hcount htime
    · refine .inl ⟨hnone, ?_⟩
      rw [hstored, List.drop_eq_nil_iff] at hnil
      have hall : buffer.readPos = buffer.bytes.length := by omega
      simp [Buffer.read, hcount, hseen, hall]
    · rw [hstored, Ne, List.drop_eq_nil_iff] at hne
      have hmore : buffer.readPos ≠ buffer.bytes.length := by omega
      refine .inr (.inr ⟨b.stored.take count, after, buffer.advance
        (min (buffer.bytes.length - buffer.readPos) count), hread, ?_, sound,
        hafter.trans hseen.symm, ?_, ?_⟩)
      · unfold Buffer.read
        rw [if_neg hcount, if_neg (by simp [hseen]), if_neg hmore, hstored]
        simp only [Buffer.next, Bytes.window, ← List.length_drop,
          Nat.min_comm _ count, ← List.take_eq_take_min]
      · simp only [Buffer.advance]
        omega
      · intro _
        rw [hdrop, hstored, List.drop_drop]
        simp only [Buffer.advance]
        by_cases hshort : count ≤ buffer.bytes.length - buffer.readPos
        · rw [Nat.min_eq_right hshort]
        · rw [List.drop_of_length_le (by omega), List.drop_of_length_le (by omega)]

end Shows

end RingBuffer

end Pig.Icmp
