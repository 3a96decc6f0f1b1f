import Pig.Lib.Bytes

namespace Pig.Auth

/-! The token that a client sends first, with its length before it, and the
single read that the server takes it from. -/

/-- What a stream has still to deliver. A read returns bytes of one segment. -/
abbrev Stream := List Bytes

/-- A read into a slice of so many bytes; nothing at the end of the stream. -/
def Stream.read (size : Nat) : Stream → Option (Bytes × Stream)
  | [] => none
  | segment :: rest =>
    if segment.length ≤ size then some (segment, rest)
    else some (segment.take size, segment.drop size :: rest)

def sendToken (token : Bytes) : Bytes :=
  let tokenLen := token.length
  [UInt8.ofNat (tokenLen >>> 8), UInt8.ofNat tokenLen] ++ token

def bufferSize : Nat := 1 <<< 11

def readToken (r : Stream) : Except String Bytes × Stream :=
  match r.read bufferSize with
  | none => (.error "failed to read token length: EOF", r)
  | some (buf, rest) =>
    let n := buf.length
    if n < 2 then
      (.error ("failed to read token length: short read " ++ toString n),
        rest)
    else
      let tokenLen := (buf.getD 0 0).toNat <<< 8 ||| (buf.getD 1 0).toNat
      if tokenLen > n - 2 then
        (.error ("failed to read token: short read " ++ toString n), rest)
      else (.ok (buf.window 2 tokenLen), rest)

/-- The token is read, and the bytes after it are still unread. -/
def ReadsExactly (r : Stream) (token trailing : Bytes) : Prop :=
  (readToken r).1 = .ok token ∧ (readToken r).2.flatten = trailing

instance (r : Stream) (token trailing : Bytes) : Decidable (ReadsExactly r token trailing) :=
  inferInstanceAs (Decidable (_ ∧ _))

theorem length_sendToken (token : Bytes) : (sendToken token).length = 2 + token.length := by
  simp only [sendToken, List.length_append, List.length_cons, List.length_nil]

theorem Stream.read_cons (size : Nat) (segment : Bytes) (rest : Stream) :
    ∃ after : Stream, Stream.read size (segment :: rest) = some (segment.take size, after) ∧
      after.flatten = (segment :: rest).flatten.drop (min segment.length size) := by
  rw [Stream.read]
  split
  · next hle =>
      exact ⟨rest, by rw [List.take_of_length_le hle], by
        rw [Nat.min_eq_left hle, List.flatten_cons, List.drop_left]⟩
  · next hlt =>
      refine ⟨_, rfl, ?_⟩
      rw [Nat.min_eq_right (by omega), List.flatten_cons, List.flatten_cons,
        List.drop_append_of_le_length (by omega)]

theorem readToken_rest (segment : Bytes) (rest : Stream) : (readToken (segment :: rest)).2.flatten =
      (segment :: rest).flatten.drop (min segment.length bufferSize) := by
  obtain ⟨after, hread, hafter⟩ := Stream.read_cons bufferSize segment rest
  rw [← hafter, readToken, hread]
  dsimp only
  split
  · rfl
  · split <;> rfl

theorem tokenLen_sendToken {token : Bytes} (h : token.length ≤ 65535) :
    ((sendToken token).getD 0 0).toNat <<< 8 |||
      ((sendToken token).getD 1 0).toNat = token.length := by
  have hhigh : ((sendToken token).getD 0 0).toNat = token.length / 256 := by
    simp only [sendToken, List.cons_append, List.getD_cons_zero]
    rw [UInt8.toNat_ofNat', Nat.shiftRight_eq_div_pow]
    omega
  have hlow : ((sendToken token).getD 1 0).toNat = token.length % 256 := by
    exact UInt8.toNat_ofNat'
  rw [hhigh, hlow, ← Nat.shiftLeft_add_eq_or_of_lt (by omega), Nat.shiftLeft_eq]
  omega

theorem readToken_frame {segment token : Bytes} {rest : Stream} (htoken : token.length ≤ 65535)
    (hread : segment.take bufferSize = sendToken token) :
    (readToken (segment :: rest)).1 = .ok token := by
  obtain ⟨after, heq, -⟩ := Stream.read_cons bufferSize segment rest
  have hlength := length_sendToken token
  rw [readToken, heq, hread]
  dsimp only
  rw [if_neg (by omega), tokenLen_sendToken htoken, if_neg (by omega), Bytes.window]
  simp [sendToken]

/-- ReadToken returns the token and leaves the rest exactly if the first read
of the stream returns the bytes of the frame and no more. -/
theorem readsExactly_iff {token trailing : Bytes} {segments : Stream}
    (htoken : token.length ≤ 65535) (hstream : segments.flatten = sendToken token ++ trailing) :
    ReadsExactly segments token trailing ↔ ∃ first rest, segments = first :: rest ∧
        min first.length bufferSize = 2 + token.length := by
  have hlength := length_sendToken token
  cases segments with
  | nil =>
    have h := congrArg List.length hstream
    simp only [List.flatten_nil, List.length_nil, List.length_append] at h
    omega
  | cons first rest =>
    have hrest := readToken_rest first rest
    rw [hstream] at hrest
    constructor
    · rintro ⟨-, htrailing⟩
      refine ⟨first, rest, rfl, ?_⟩
      have h := congrArg List.length (hrest.symm.trans htrailing)
      have hle := congrArg List.length hstream
      simp only [List.length_drop, List.length_append, List.flatten_cons, hlength] at h hle
      omega
    · rintro ⟨_, _, ⟨rfl, rfl⟩, hfirst⟩
      have htake : first.take bufferSize = sendToken token := by
        have h := congrArg (List.take (min first.length bufferSize)) hstream
        rw [List.flatten_cons, List.take_append_of_le_length (Nat.min_le_left ..), hfirst, ←
          hlength, List.take_left, hlength, ← hfirst, Nat.min_comm, ← List.take_eq_take_min] at h
        exact h
      refine ⟨readToken_frame htoken htake, ?_⟩
      rw [hrest, hfirst, ← hlength, List.drop_left]

theorem readsExactly_iff_alone : ReadsExactly [sendToken [7, 8, 9], [0x45]] [7, 8, 9] [0x45] :=
  (readsExactly_iff (by decide) (by decide)).mpr ⟨_, _, rfl, by decide⟩

/-- A packet that arrives with the token is lost to the tunnel, and a token that
arrives in two pieces is refused. -/
theorem not_readsExactly : (∃ segments : Stream, segments.flatten = sendToken [7, 8, 9] ++ [0x45] ∧
    readToken segments = (.ok [7, 8, 9], []) ∧ ¬ ReadsExactly segments [7, 8, 9] [0x45]) ∧ ∃
    segments : Stream, segments.flatten = sendToken [7, 8, 9] ∧ readToken segments =
        (.error "failed to read token: short read 4", [[9]]) ∧
      ¬ ReadsExactly segments [7, 8, 9] [] :=
  ⟨⟨[sendToken [7, 8, 9] ++ [0x45]], by decide, by decide, by decide⟩,
    [[0, 3, 7, 8], [9]], by decide, by decide, by decide⟩

end Pig.Auth
