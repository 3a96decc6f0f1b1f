import Pig.Lib.Bytes
import Pig.Lib.Run

namespace Pig

/-! A reader that cuts frames out of a byte stream. Chunks are read into a
buffer of fixed capacity, and frames are extracted from its front until one is
still incomplete. -/

namespace Reassembly

inductive Input where
  | read (chunk : Bytes)
  | extract

def Input.chunk : Input → Bytes
  | .read chunk => chunk
  | .extract => []

def received (inputs : List Input) : Bytes := inputs.flatMap Input.chunk

structure Reader (State : Type) where
  state : State
  pending : Bytes
  reading : Bool

section

variable {State Fault : Type} (capacity : Nat)
  (cut : State → Bytes → Except Fault (Option (State × Bytes)))

/-- One extraction: `none` waits for more data, and otherwise what remains of
the buffer is returned. -/
def Reader.extract (reader : Reader State) : Except Fault (Reader State) :=
  match cut reader.state reader.pending with
  | .error fault => .error fault
  | .ok none => .ok { reader with reading := true }
  | .ok (some (state, pending)) => .ok { reader with state, pending }

def step : Except Fault (Reader State) → Input → Option (Except Fault (Reader State))
  | .ok reader, .read chunk =>
    if reader.reading ∧ reader.pending.length + chunk.length ≤ capacity then
      some (.ok { reader with
        pending := reader.pending ++ chunk
        reading := false })
    else none
  | .ok reader, .extract =>
    if reader.reading then none else some (reader.extract cut)
  | .error _, _ => none

def start (state : State) : Except Fault (Reader State) := .ok ⟨state, [], true⟩

/-- An extraction fails no check and either consumes something or waits for a
read for which there is room. -/
inductive Progresses (state : State) (pending : Bytes) : Prop
  | waits (hcut : cut state pending = .ok none) (hroom : pending.length < capacity)
  | consumes {after : State} {rest : Bytes} (hcut : cut state pending = .ok (some (after, rest)))
      (hless : rest.length < pending.length)

variable {state : State}

variable {pending : Bytes}

theorem progresses_of_error {fault : Fault} (hcut : cut state pending = .error fault) :
    ¬ Progresses capacity cut state pending := by
  rintro (⟨hfound, -⟩ | ⟨hfound, -⟩) <;> cases hcut.symm.trans hfound

theorem progresses_of_none (hcut : cut state pending = .ok none) :
    Progresses capacity cut state pending ↔ pending.length < capacity := by
  refine ⟨?_, .waits hcut⟩
  rintro (⟨-, hroom⟩ | ⟨hfound, -⟩)
  · exact hroom
  · cases hcut.symm.trans hfound

theorem progresses_of_some {after : State} {rest : Bytes}
    (hcut : cut state pending = .ok (some (after, rest))) :
    Progresses capacity cut state pending ↔ rest.length < pending.length := by
  refine ⟨?_, .consumes hcut⟩
  rintro (⟨hfound, -⟩ | ⟨hfound, hless⟩)
  · cases hcut.symm.trans hfound
  · cases hcut.symm.trans hfound
    exact hless

variable {capacity cut} {first : State} {frames : List Bytes} {inputs : List Input}
  {last : Except Fault (Reader State)}

theorem step_cases {state after : Except Fault (Reader State)} {input : Input}
    (taken : step capacity cut state input = some after) :
    ∃ reader, state = .ok reader ∧ ((∃ chunk, input = .read chunk ∧ after = .ok
      { reader with pending := reader.pending ++ chunk, reading := false }) ∨
      (input = .extract ∧ reader.reading = false ∧ reader.extract cut = after)) := by
  revert taken
  fun_cases step capacity cut state input <;> intro taken <;> cases taken
  · exact ⟨_, rfl, .inl ⟨_, rfl, rfl⟩⟩
  · exact ⟨_, rfl, .inr ⟨rfl, (Bool.not_eq_true _).mp ‹_›, rfl⟩⟩

theorem ok_of_progresses (run : Run (step capacity cut) (fun state input => input = .extract →
    ∀ reader, state = .ok reader → Progresses capacity cut reader.state reader.pending)
    (start first) inputs last) :
    ∃ reader, last = .ok reader := by
  apply run.invariant fun state => ∃ reader, state = .ok reader
  · exact ⟨_, rfl⟩
  · rintro state input after - hprogress taken
    obtain ⟨reader, rfl, ⟨chunk, rfl, rfl⟩ | ⟨rfl, -, rfl⟩⟩ := step_cases taken
    · exact ⟨_, rfl⟩
    · rw [Reader.extract]
      split
      · rename_i hcut
        exact absurd (hprogress rfl reader rfl) (progresses_of_error _ _ hcut)
      · exact ⟨_, rfl⟩
      · exact ⟨_, rfl⟩

theorem run_read {allowed : Except Fault (Reader State) → Input → Prop} {chunk : Bytes}
    (hallowed : allowed (start first) (.read chunk))
    (hroom : chunk.length ≤ capacity) :
    Run (step capacity cut) allowed (start first) [.read chunk] (.ok ⟨first, chunk, false⟩) :=
  .one hallowed (by simp [step, start, hroom])

variable (cut) in
structure Recognises (deliver : State → Bytes → State) (frame : Bytes) :
    Prop where
  nonempty : 0 < frame.length
  complete : ∀ state rest, cut state (frame ++ rest) = .ok (some (deliver state frame, rest))
  incomplete : ∀ state part, part <+: frame → part.length < frame.length → cut state part = .ok none

variable (cut) in
/-- Frames that are recognised as long as every extraction finds the buffer
handled, with what is delivered as a relation. -/
structure RecognisesIf (handled : State → Bytes → Prop)
    (delivered : List Bytes → State → Prop) (frame : Bytes) : Prop where
  nonempty : 0 < frame.length
  complete : ∀ done state rest, delivered done state → handled state (frame ++ rest) → ∃ after, cut
    state (frame ++ rest) = .ok (some (after, rest)) ∧ delivered (done ++ [frame]) after
  incomplete : ∀ state part, handled state part → part <+: frame →
    part.length < frame.length → cut state part = .ok none

def HandledAt (handled : State → Bytes → Prop) (state : Except Fault (Reader State)) (input : Input)
  : Prop := input = .extract → ∀ reader, state = .ok reader → handled reader.state reader.pending

variable {handled : State → Bytes → Prop}

/-- What holds of the state at first, and is kept by every extraction that finds
the buffer handled, holds of it in every run. -/
theorem state_of_handled_run {property : State → Prop}
    (run : Run (step capacity cut) (HandledAt handled) (start first) inputs last)
    (hfirst : property first) (hcut : ∀ state pending after rest, property state → handled state
    pending → cut state pending = .ok (some (after, rest)) → property after) :
    ∀ reader, last = .ok reader → property reader.state := by
  apply run.invariant fun state =>
    ∀ reader, state = .ok reader → property reader.state
  · rintro _ ⟨⟩
    exact hfirst
  · intro state input after hstate hhandled taken next hnext
    obtain ⟨reader, rfl, ⟨chunk, rfl, rfl⟩ | ⟨rfl, -, rfl⟩⟩ := step_cases taken
    · cases hnext
      exact hstate reader rfl
    · have hbuffer := hhandled rfl reader rfl
      rw [Reader.extract] at hnext
      split at hnext
      · cases hnext
      · cases hnext
        exact hstate reader rfl
      · rename_i hfound
        cases hnext
        exact hcut _ _ _ _ (hstate reader rfl) hbuffer hfound

/-- The frames `done` were delivered, and the buffer holds the beginning of the
others; where it waits, their first one is incomplete. -/
structure FramedIf (delivered : List Bytes → State → Prop) (seen : Bytes)
    (done todo : List Bytes) (reader : Reader State) : Prop where
  state_delivered : delivered done reader.state
  seen_eq : seen = done.flatten ++ reader.pending
  waiting : reader.reading = true → ∀ frame ∈ todo.head?, reader.pending.length < frame.length

structure Framed (deliver : State → Bytes → State) (first : State)
    (seen : Bytes) (done todo : List Bytes) (reader : Reader State) : Prop where
  state_eq : reader.state = done.foldl deliver first
  seen_eq : seen = done.flatten ++ reader.pending
  waiting : reader.reading = true → ∀ frame ∈ todo.head?, reader.pending.length < frame.length

variable {deliver : State → Bytes → State} {seen : Bytes} {done todo : List Bytes}
  {reader : Reader State}

theorem Recognises.recognisesIf {frame : Bytes}
    (recognises : Recognises cut deliver frame) (first : State) :
    RecognisesIf cut (fun _ _ => True)
      (fun done state => state = done.foldl deliver first) frame where
  nonempty := recognises.nonempty
  complete := by
    rintro done _ rest rfl -
    exact ⟨_, recognises.complete _ rest, by simp⟩
  incomplete := fun state part _ => recognises.incomplete state part

variable {delivered : List Bytes → State → Prop}

theorem FramedIf.pending_isPrefix
    (framed : FramedIf delivered seen done todo reader) (hseen : seen <+: (done ++ todo).flatten) :
    reader.pending <+: todo.flatten := by
  rw [framed.seen_eq, List.flatten_append] at hseen
  exact (List.prefix_append_right_inj _).mp hseen

theorem framed_iff : Framed deliver first seen done todo reader ↔
    FramedIf (fun done state => state = done.foldl deliver first) seen done todo reader :=
  ⟨fun h => ⟨h.1, h.2, h.3⟩, fun h => ⟨h.1, h.2, h.3⟩⟩

theorem Reader.extract_of_none (hcut : cut reader.state reader.pending = .ok none) :
    reader.extract cut = .ok { reader with reading := true } := by
  simp only [Reader.extract, hcut]

theorem Reader.extract_of_some {rest : Bytes}
    (hcut : cut reader.state reader.pending = .ok (some (state, rest))) :
    reader.extract cut = .ok { reader with state, pending := rest } := by
  simp only [Reader.extract, hcut]

/-- One extraction delivers the next frame, or waits because it is
incomplete. -/
theorem FramedIf.extract
    (framed : FramedIf delivered seen done todo reader) (hreading : reader.reading = false)
    (hhandled : handled reader.state reader.pending) (hseen : seen <+: (done ++ todo).flatten)
    (hempty : ∀ state, cut state [] = .ok none) (hframes : ∀ frame ∈ todo, RecognisesIf cut handled
    delivered frame) :
    (∃ frame rest after, todo = frame :: rest ∧ reader.extract cut = .ok after ∧
      FramedIf delivered seen (done ++ [frame]) rest after) ∨
    (reader.extract cut = .ok { reader with reading := true } ∧
      FramedIf delivered seen done todo { reader with reading := true }) := by
  have hpending := framed.pending_isPrefix hseen
  cases todo with
  | nil =>
    have hnil : reader.pending = [] := List.prefix_nil.mp hpending
    refine .inr ⟨Reader.extract_of_none (hnil ▸ hempty _), ?_⟩
    exact ⟨framed.state_delivered, framed.seen_eq, by simp⟩
  | cons frame rest =>
    have hframe := hframes frame List.mem_cons_self
    by_cases hlength : reader.pending.length < frame.length
    · have hshort : reader.pending <+: frame :=
        List.prefix_of_prefix_length_le hpending (List.prefix_append ..) (Nat.le_of_lt hlength)
      refine .inr ⟨Reader.extract_of_none (hframe.incomplete _ _ hhandled hshort hlength), ?_⟩
      exact ⟨framed.state_delivered, framed.seen_eq, by simpa using hlength⟩
    · obtain ⟨tail, htail⟩ : frame <+: reader.pending :=
        List.prefix_of_prefix_length_le (List.prefix_append ..) hpending (by omega)
      obtain ⟨after, hcut, hdelivered⟩ := hframe.complete done reader.state
        tail framed.state_delivered (htail ▸ hhandled)
      rw [htail] at hcut
      refine .inl ⟨frame, rest, _, rfl, Reader.extract_of_some hcut,
        hdelivered, ?_, by simp [hreading]⟩
      rw [framed.seen_eq, ← htail]
      simp

/-- Whatever part of the stream was read, and however it was cut, the frames in
it were delivered, if every extraction found the buffer handled. -/
theorem framed_of_handled_run
    (run : Run (step capacity cut) (HandledAt handled) (start first) inputs last)
    (hseen : received inputs <+: frames.flatten) (hfirst : delivered [] first)
    (hempty : ∀ state, cut state [] = .ok none) (hframes : ∀ frame ∈ frames, RecognisesIf cut
    handled delivered frame) :
    ∃ reader done todo, last = .ok reader ∧ frames = done ++ todo ∧
      FramedIf delivered (received inputs) done todo reader := by
  induction run with
  | start =>
    refine ⟨⟨_, [], true⟩, [], frames, rfl, rfl, hfirst, rfl, ?_⟩
    intro _ frame hframe
    exact (hframes frame (List.mem_of_head? hframe)).nonempty
  | @next middle last inputs input _ permitted taken ih =>
    have hreceived : received (inputs ++ [input]) = received inputs ++ input.chunk := by
      simp [received]
    rw [hreceived] at hseen ⊢
    have hearlier : received inputs <+: frames.flatten := (List.prefix_append ..).trans hseen
    obtain ⟨reader, done, todo, rfl, rfl, framed⟩ := ih hearlier
    obtain ⟨_, ⟨⟩, ⟨chunk, rfl, rfl⟩ | ⟨rfl, hreading, rfl⟩⟩ := step_cases taken
    · refine ⟨_, done, todo, rfl, rfl, framed.state_delivered, ?_, by simp⟩
      rw [framed.seen_eq, List.append_assoc]
      rfl
    · rw [show Input.extract.chunk = [] from rfl, List.append_nil]
      obtain ⟨frame, rest, after, rfl, hextract, hframed⟩ | ⟨hextract, hframed⟩ :=
        framed.extract hreading (permitted rfl reader rfl) hearlier hempty
          fun frame hframe => hframes frame (List.mem_append_right done hframe)
      · exact ⟨after, done ++ [frame], rest, hextract, by simp, hframed⟩
      · exact ⟨_, done, todo, hextract, rfl, hframed⟩

section

variable (framed : Framed deliver first (done ++ todo).flatten done todo reader)

include framed

theorem Framed.pending_eq :
    reader.pending = todo.flatten := by
  have hseen := framed.seen_eq
  rw [List.flatten_append] at hseen
  exact (List.append_cancel_left hseen).symm

theorem Framed.finished (hreading : reader.reading = true) :
    reader = ⟨(done ++ todo).foldl deliver first, [], true⟩ := by
  have hpending := framed.pending_eq
  cases todo with
  | nil =>
    obtain ⟨state, pending, reading⟩ := reader
    cases hreading
    cases hpending
    rw [List.append_nil]
    exact congrArg (Reader.mk · [] true) framed.state_eq
  | cons frame rest =>
    have hshort := framed.waiting hreading frame rfl
    rw [hpending, List.flatten_cons, List.length_append] at hshort
    omega

end

/-- Once the whole stream was read, the extraction comes to an end with every
frame delivered and nothing left over. -/
theorem Framed.finishes {done todo : List Bytes} {reader : Reader State}
    (framed : Framed deliver first (done ++ todo).flatten done todo reader)
    (hempty : ∀ state, cut state [] = .ok none)
    (hframes : ∀ frame ∈ todo, Recognises cut deliver frame) :
    ∃ more, received more = [] ∧ Run (step capacity cut) (fun _ _ => True) (.ok reader) more
        (.ok ⟨(done ++ todo).foldl deliver first, [], true⟩) := by
  cases hreading : reader.reading with
  | true =>
    refine ⟨[], rfl, ?_⟩
    rw [← framed.finished hreading]
    exact .start _
  | false =>
    have hstep : step capacity cut (.ok reader) .extract = some (reader.extract cut) := by
      simp [step, hreading]
    obtain ⟨frame, rest, after, rfl, hextract, hframed⟩ | ⟨hextract, hframed⟩ :=
      (framed_iff.mp framed).extract hreading trivial List.prefix_rfl hempty
        fun frame hframe => (hframes frame hframe).recognisesIf first
    · rw [List.append_cons] at hframed ⊢
      obtain ⟨more, hmore, run⟩ := Framed.finishes (framed_iff.mpr hframed) hempty
        fun frame hframe => hframes frame (List.mem_cons_of_mem _ hframe)
      rw [hextract] at hstep
      exact ⟨.extract :: more, hmore, (Run.one trivial hstep).append run⟩
    · rw [hextract, (framed_iff.mpr hframed).finished rfl] at hstep
      exact ⟨[.extract], rfl, .one trivial hstep⟩
-- Every extraction takes one frame off the list of those still to come.
termination_by todo.length

section

variable (hempty : ∀ state, cut state [] = .ok none)
  (hframes : ∀ frame ∈ frames, Recognises cut deliver frame)
  (run : Run (step capacity cut) (fun _ _ => True) (start first) inputs last)

include hempty hframes run

theorem framed_of_run (hseen : received inputs <+: frames.flatten) :
    ∃ reader done todo, last = .ok reader ∧ frames = done ++ todo ∧
      Framed deliver first (received inputs) done todo reader := by
  have hrun : Run (step capacity cut) (HandledAt fun _ _ => True) (start first) inputs last :=
    run.weaken fun _ _ _ _ _ _ => trivial
  obtain ⟨reader, done, todo, hlast, hsplit, framed⟩ :=
    framed_of_handled_run hrun hseen (by rfl) hempty fun frame hframe =>
      (hframes frame hframe).recognisesIf first
  exact ⟨reader, done, todo, hlast, hsplit, framed_iff.mpr framed⟩

theorem room_of_run (hseen : received inputs <+: frames.flatten) (hroom : 0 < capacity)
    (hfit : ∀ frame ∈ frames, frame.length ≤ capacity) :
    ∃ reader, last = .ok reader ∧ (reader.reading = true → reader.pending.length < capacity) := by
  obtain ⟨reader, done, todo, rfl, rfl, framed⟩ := framed_of_run hempty hframes run hseen
  refine ⟨reader, rfl, fun hreading => ?_⟩
  cases todo with
  | nil =>
    have hnil : reader.pending = [] :=
      List.prefix_nil.mp ((framed_iff.mp framed).pending_isPrefix hseen)
    rw [hnil]
    exact hroom
  | cons frame rest =>
    have hshort := framed.waiting hreading frame rfl
    have hlength := hfit frame (by simp)
    omega

theorem delivers (hreceived : received inputs = frames.flatten) :
    ∃ more, received more = [] ∧ Run (step capacity cut) (fun _ _ => True) last more
        (.ok ⟨frames.foldl deliver first, [], true⟩) := by
  obtain ⟨reader, done, todo, rfl, rfl, framed⟩ :=
    framed_of_run hempty hframes run (hreceived ▸ List.prefix_rfl)
  rw [hreceived] at framed
  exact framed.finishes hempty fun frame hframe =>
    hframes frame (List.mem_append_right done hframe)

end

end

end Reassembly

end Pig
