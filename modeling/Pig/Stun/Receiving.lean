import Pig.Lib.Segments
import Pig.Stun.Message

namespace Pig.Stun

open Go

/-! Receiving messages from a stream: the header first, and then as many bytes
as the header states. -/

inductive ReceiveError where
  | read (error : Segments.ReadError)
  | parseMessage
  deriving DecidableEq, Repr

def parseReceived (data : Slice) : Checked (Except ReceiveError Message) :=
  match decodeMessage data with
  | .ok message => .ok (.ok message)
  | .error (.error _) => .ok (.error .parseMessage)
  | .error (.fault fault) => .error fault

def receiveBody (rawMessage : Slice) (high : Nat) (conn : Segments) :
    Checked (Except ReceiveError Message × Segments) := do
  let (rawMessage, n, conn) ← rawMessage.readFull 20 high conn
  if n < high - 20 then
    return (.error (.read (Segments.readError n)), conn)
  else
    let data ← rawMessage.between 0 high
    return (← parseReceived data, conn)

def newBuffer : Slice := .ofBytes (List.replicate 1024 0)

theorem len_newBuffer : newBuffer.len = 1024 := List.length_replicate

theorem cap_newBuffer : newBuffer.cap = 1024 := List.length_replicate

section

/-! The capacity that `append` allocates behind a slice of the given length. -/

variable (spare : Nat → Nat)

theorem length_appendZeros_le (front : Bytes) (count : Nat) :
    front.length + count ≤ (front ++ List.replicate
      (count + spare (front.length + count)) (0 : UInt8)).length := by
  rw [List.length_append, List.length_replicate]
  omega

/-- The call `append(front, make([]byte, count)...)`, for which there is no
room behind the front. -/
def appendZeros (front : Bytes) (count : Nat) : Slice :=
  ⟨_, _, length_appendZeros_le spare front count⟩

/-- The end of the message is computed as a `uint16`. -/
def receiveMessageFromConn (conn : Segments) :
    Checked (Except ReceiveError Message × Segments) := do
  let (rawMessage, n, conn) ← newBuffer.readFull 0 20 conn
  if n < 20 then
    return (.error (.read (Segments.readError n)), conn)
  else
    let field ← rawMessage.sub 2 4
    let msgLen := UInt16.ofNat field.toNatBE
    let high := (20 + msgLen).toNat
    if UInt16.ofNat (rawMessage.len - 20) < msgLen then
      let front ← rawMessage.sub 0 20
      receiveBody (appendZeros spare front msgLen.toNat) high conn
    else receiveBody rawMessage high conn

end

def statedLength (bytes : Bytes) : Nat := (bytes.window 2 2).toNatBE

section

variable {conn : Segments} {raw : Slice} {front old : Bytes} {count : Nat}

theorem receiveBody_of_short (hcap : 20 + count ≤ raw.cap) (hshort : conn.flatten.length < count) :
    receiveBody raw (20 + count) conn = .ok (.error (.read (Segments.readError
      conn.flatten.length)), (conn.readFull count).2) := by
  rw [receiveBody, raw.readFull_of_le conn (by omega) hcap, ok_bind]
  dsimp only
  rw [Nat.add_sub_cancel_left, Nat.min_eq_right (by omega), if_pos hshort]
  rfl

theorem receiveBody_of_le (hraw : raw.array = front ++ old) (hfront : front.length = 20)
    (hold : count ≤ old.length) (hle : count ≤ conn.flatten.length) :
    ∃ data : Slice, data.array = front ++ conn.flatten.take count ++ old.drop count ∧ data.len = 20
        + count ∧ receiveBody raw (20 + count) conn = (parseReceived data).map
        (·, (conn.readFull count).2) := by
  have hcap : raw.cap = 20 + old.length := by
    rw [Slice.cap, hraw, List.length_append, hfront]
  have hlength : (conn.flatten.take count).length = count := by
    rw [List.length_take]
    omega
  have harray : (raw.write 20 (conn.flatten.take count)).array =
      front ++ conn.flatten.take count ++ old.drop count := by
    rw [raw.array_write (by omega), hraw, hlength, List.take_left' hfront, List.drop_append,
      List.drop_of_length_le (by omega), hfront, Nat.add_sub_cancel_left, List.nil_append]
  have hroom : 20 + count ≤ (raw.write 20 (conn.flatten.take count)).cap := by
    rw [Slice.cap, harray, List.length_append, List.length_append, hlength, hfront]
    omega
  obtain ⟨data, hdata, hsame, hlen⟩ := Slice.between_zero _ hroom
  refine ⟨data, hsame.trans harray, hlen, ?_⟩
  rw [receiveBody, raw.readFull_of_le conn (by omega) (by omega), ok_bind]
  dsimp only
  rw [Nat.add_sub_cancel_left, Nat.min_eq_left hle, if_neg (Nat.lt_irrefl count), hdata, ok_bind]
  cases parseReceived data <;> rfl

end

section

variable (spare : Nat → Nat)

def bodyRoom (count : Nat) : Nat :=
  if count ≤ 1004 then 1004 else count + spare (20 + count)

theorem le_bodyRoom (count : Nat) : count ≤ bodyRoom spare count := by
  rw [bodyRoom]
  split <;> omega

variable {conn : Segments}

theorem statedLength_lt (bytes : Bytes) : statedLength bytes < 65536 := by
  have hlt := Bytes.toNatBE_lt (bytes.window 2 2)
  have hlength : (bytes.window 2 2).length ≤ 2 := by
    simp only [Bytes.window, List.length_take]
    omega
  have hpow := Nat.pow_le_pow_right (by decide : 0 < 256) hlength
  rw [statedLength]
  omega

theorem receiveMessageFromConn_of_short (hshort : conn.flatten.length < 20) :
    receiveMessageFromConn spare conn = .ok (.error (.read (Segments.readError
      conn.flatten.length)), (conn.readFull 20).2) := by
  rw [receiveMessageFromConn, newBuffer.readFull_of_le conn (by decide)
    (by rw [cap_newBuffer]; decide), ok_bind]
  dsimp only
  rw [Nat.sub_zero, Nat.min_eq_right (by omega), if_pos hshort]
  rfl

theorem receiveMessageFromConn_eq (hlen : 20 ≤ conn.flatten.length) : ∃ raw : Slice, raw.array =
      conn.flatten.take 20 ++ List.replicate (bodyRoom spare (statedLength conn.flatten)) 0 ∧
      receiveMessageFromConn spare conn = receiveBody raw ((20 + statedLength conn.flatten) % 65536)
      (conn.readFull 20).2 := by
  have hfront : (conn.flatten.take 20).length = 20 := by
    rw [List.length_take]
    omega
  obtain ⟨raw, hraw⟩ : ∃ raw, raw = newBuffer.write 0 (conn.flatten.take 20) := ⟨_, rfl⟩
  have harray : raw.array = conn.flatten.take 20 ++ List.replicate 1004 0 := by
    rw [hraw, newBuffer.array_write (by rw [hfront, cap_newBuffer]; decide),
      hfront, newBuffer, Slice.ofBytes, List.drop_replicate]
    rfl
  have hrawLen : raw.len = 1024 := by
    rw [hraw]
    exact len_newBuffer
  have hcap : raw.cap = 1024 := by
    rw [Slice.cap, harray, List.length_append, hfront, List.length_replicate]
  have hfield : raw.sub 2 4 = .ok (Bytes.window conn.flatten 2 2) := by
    rw [Slice.sub, if_pos ⟨by decide, by omega⟩, harray, Bytes.window_append_left _ _ _ _
      (by omega), Bytes.window_take _ (by decide)]
  have hsub : raw.sub 0 20 = .ok (conn.flatten.take 20) := by
    rw [Slice.sub, if_pos ⟨by decide, by omega⟩, harray, Bytes.window,
      List.drop_zero, List.take_left' hfront]
  have hstated : (UInt16.ofNat (statedLength conn.flatten)).toNat = statedLength conn.flatten :=
    Nat.mod_eq_of_lt (statedLength_lt _)
  have hhigh : (20 + UInt16.ofNat (statedLength conn.flatten)).toNat =
      (20 + statedLength conn.flatten) % 65536 := by
    rw [UInt16.toNat_add, hstated]
    rfl
  have hlong : UInt16.ofNat (1024 - 20) < UInt16.ofNat (statedLength conn.flatten) ↔
      1004 < statedLength conn.flatten := by
    rw [UInt16.lt_iff_toNat_lt, hstated]
    rfl
  rw [receiveMessageFromConn, newBuffer.readFull_of_le conn (by decide)
    (by rw [cap_newBuffer]; decide), ok_bind]
  dsimp only
  rw [Nat.sub_zero, Nat.min_eq_left hlen, if_neg (by decide), ← hraw, hfield,
    ok_bind, hrawLen, hsub, ok_bind, ← statedLength, hstated, hhigh]
  by_cases hroom : statedLength conn.flatten ≤ 1004
  · refine ⟨raw, ?_, if_neg (hlong.not.mpr (by omega))⟩
    rw [bodyRoom, if_pos hroom, harray]
  · refine ⟨appendZeros spare (conn.flatten.take 20)
      (statedLength conn.flatten), ?_, if_pos (hlong.mpr (by omega))⟩
    rw [bodyRoom, if_neg hroom]
    exact congrArg (fun length => _ ++ List.replicate (_ + spare (length + _)) 0) hfront

theorem receiveMessageFromConn_of_wrapped (hlen : 20 ≤ conn.flatten.length)
    (hwrapped : 65516 ≤ statedLength conn.flatten) :
    receiveMessageFromConn spare conn = .error .sliceBounds := by
  have hlt := statedLength_lt conn.flatten
  obtain ⟨raw, -, hreceive⟩ := receiveMessageFromConn_eq spare hlen
  rw [hreceive, receiveBody, raw.readFull_of_gt _ (by omega)]
  rfl

theorem receiveMessageFromConn_of_partial (hlen : 20 ≤ conn.flatten.length)
    (hfield : statedLength conn.flatten < 65516)
    (hshort : conn.flatten.length < 20 + statedLength conn.flatten) :
    ∃ error rest, receiveMessageFromConn spare conn = .ok (.error error, rest) := by
  obtain ⟨raw, hraw, hreceive⟩ := receiveMessageFromConn_eq spare hlen
  rw [hreceive, Nat.mod_eq_of_lt (by omega), receiveBody_of_short]
  · exact ⟨_, _, rfl⟩
  · have hroom := le_bodyRoom spare (statedLength conn.flatten)
    rw [Slice.cap, hraw, List.length_append, List.length_take, List.length_replicate]
    omega
  · rw [Segments.flatten_readFull, List.length_drop]
    omega

theorem length_received_le (frame : Bytes) (more : Nat) :
    frame.length ≤ (frame ++ List.replicate more (0 : UInt8)).length := by
  rw [List.length_append]
  exact Nat.le_add_right _ _

def received (frame : Bytes) : Slice := ⟨_, _, length_received_le frame
    (bodyRoom spare (frame.length - 20) - (frame.length - 20))⟩

theorem receiveMessageFromConn_of_whole (hfield : statedLength conn.flatten < 65516)
    (hwhole : 20 + statedLength conn.flatten ≤ conn.flatten.length) :
    ∃ rest, rest.flatten = conn.flatten.drop (20 + statedLength conn.flatten) ∧
      receiveMessageFromConn spare conn = (parseReceived (received spare
      (conn.flatten.take (20 + statedLength conn.flatten)))).map (·, rest) := by
  have hlen : 20 ≤ conn.flatten.length := by omega
  have hroom : statedLength conn.flatten ≤ (List.replicate
      (bodyRoom spare (statedLength conn.flatten)) (0 : UInt8)).length := by
    rw [List.length_replicate]
    exact le_bodyRoom spare _
  have hrest : (conn.readFull 20).2.flatten = conn.flatten.drop 20 := conn.flatten_readFull 20
  have hbody : statedLength conn.flatten ≤ (conn.readFull 20).2.flatten.length := by
    rw [hrest, List.length_drop]
    omega
  obtain ⟨raw, hraw, hreceive⟩ := receiveMessageFromConn_eq spare hlen
  obtain ⟨data, harray, hdata, hreceiveBody⟩ := receiveBody_of_le hraw
    (by rw [List.length_take]; omega) hroom hbody
  refine ⟨((conn.readFull 20).2.readFull (statedLength conn.flatten)).2, ?_, hreceive.trans ?_⟩
  · rw [Segments.flatten_readFull, hrest, List.drop_drop]
  · have hframe : (conn.flatten.take (20 + statedLength conn.flatten)).length =
        20 + statedLength conn.flatten := by
      rw [List.length_take]
      omega
    have heq : data = received spare (conn.flatten.take (20 + statedLength conn.flatten)) := by
      rw [hrest, List.drop_replicate, ← List.take_add] at harray
      obtain ⟨array, len, hle⟩ := data
      subst harray hdata
      simp only [received, hframe, Nat.add_sub_cancel_left]
    rw [Nat.mod_eq_of_lt (by omega), hreceiveBody, heq]

/-- A call returns, and if the whole message has arrived it leaves the stream
at the message after it and returns what DecodeMessage makes of its bytes. -/
def ReceivesExactly (conn : Segments) : Prop := ∃ outcome rest, receiveMessageFromConn spare conn =
  .ok (outcome, rest) ∧ (20 + statedLength conn.flatten ≤ conn.flatten.length → rest.flatten =
  conn.flatten.drop (20 + statedLength conn.flatten) ∧ ∀ msg, decodeMessage
  (received spare (conn.flatten.take (20 + statedLength conn.flatten))) = .ok msg → outcome = .ok
  msg)

/-- A message is received as it should be exactly if the end of it does not
wrap around, and DecodeMessage does not panic on it. -/
theorem receivesExactly_iff (conn : Segments) : ReceivesExactly spare conn ↔
      (20 ≤ conn.flatten.length → statedLength conn.flatten < 65516 ∧
          (20 + statedLength conn.flatten ≤ conn.flatten.length →
            ∀ fault, decodeMessage (received spare (conn.flatten.take
              (20 + statedLength conn.flatten))) ≠ .error (.fault fault))) := by
  by_cases hshort : conn.flatten.length < 20
  · refine iff_of_true ⟨_, _, receiveMessageFromConn_of_short spare hshort,
      fun h => ?_⟩ fun h => ?_
    · omega
    · omega
  have hlen : 20 ≤ conn.flatten.length := by omega
  by_cases hfits : statedLength conn.flatten < 65516
  · by_cases hwhole : 20 + statedLength conn.flatten ≤ conn.flatten.length
    · obtain ⟨rest, hrest, hreceive⟩ := receiveMessageFromConn_of_whole spare hfits hwhole
      rw [ReceivesExactly, hreceive, parseReceived]
      cases decodeMessage (received spare (conn.flatten.take (20 + statedLength conn.flatten))) with
      | ok msg =>
        refine iff_of_true ⟨.ok msg, rest, rfl, fun _ => ⟨hrest, ?_⟩⟩
          fun _ => ⟨hfits, fun _ _ => nofun⟩
        rintro _ ⟨⟩
        rfl
      | error failure =>
        cases failure with
        | error =>
          exact iff_of_true ⟨.error .parseMessage, rest, rfl, fun _ => ⟨hrest, nofun⟩⟩
            fun _ => ⟨hfits, fun _ _ => nofun⟩
        | fault fault =>
          refine iff_of_false ?_ fun hsafe => (hsafe hlen).2 hwhole fault rfl
          rintro ⟨_, _, ⟨⟩, -⟩
    · obtain ⟨error, rest, hreceive⟩ :=
        receiveMessageFromConn_of_partial spare hlen hfits (by omega)
      exact iff_of_true ⟨_, rest, hreceive, fun h => absurd h hwhole⟩
        fun _ => ⟨hfits, fun h => absurd h hwhole⟩
  · have hreceive := receiveMessageFromConn_of_wrapped spare hlen (Nat.le_of_not_lt hfits)
    refine iff_of_false ?_ fun h => hfits (h hlen).1
    rintro ⟨outcome, rest, hreturns, -⟩
    cases hreceive.symm.trans hreturns

end

/-- The header of a message that states 65516 bytes of attributes. -/
def longHeader : Bytes := [0x00, 0x01, 0xff, 0xec, 0x21, 0x12, 0xa4, 0x42] ++ List.replicate 12 0

/-- An error response of 28 bytes whose ERROR-CODE attribute states 2000. -/
def longReason : Bytes := [0x01, 0x11, 0x00, 0x08, 0x21, 0x12, 0xa4, 0x42] ++ List.replicate 12 0 ++
    [0x00, 0x09, 0x07, 0xd0, 0x00, 0x00, 0x04, 0x01]

def noSpare (_ : Nat) : Nat := 0

theorem not_receivesExactly : (statedLength longHeader = 65516 ∧
      receiveMessageFromConn noSpare [longHeader] = .error .sliceBounds ∧
      ¬ ReceivesExactly noSpare [longHeader]) ∧
    receiveMessageFromConn noSpare [longReason] = .error .sliceBounds ∧
      ¬ ReceivesExactly noSpare [longReason] := by
  have hlong : receiveMessageFromConn noSpare [longHeader] = .error .sliceBounds :=
    receiveMessageFromConn_of_wrapped noSpare (by decide) (by decide)
  have hreason : receiveMessageFromConn noSpare [longReason] = .error .sliceBounds := by
    obtain ⟨rest, -, hreceive⟩ := @receiveMessageFromConn_of_whole noSpare
      [longReason] (by decide) (by decide)
    have hfault : parseReceived (received noSpare longReason) = .error .sliceBounds := by
      decide +kernel
    rw [hreceive]
    change (parseReceived (received noSpare longReason)).map _ = _
    rw [hfault]
    rfl
  refine ⟨⟨by decide, hlong, ?_⟩, hreason, ?_⟩
  · rintro ⟨outcome, rest, hreturns, -⟩
    cases hlong.symm.trans hreturns
  · rintro ⟨outcome, rest, hreturns, -⟩
    cases hreason.symm.trans hreturns

end Pig.Stun
