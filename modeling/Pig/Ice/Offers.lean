import Pig.Lib.Run

namespace Pig.Ice

/-! The channel of the offers that a broker delivers. The handler of the
messages sends on it, the loop over the offers receives from it, and a goroutine
of its own closes it when the context is done or the connection is lost. -/

inductive HandlerPhase where
  | rejected
  | decoded
  | sending
  | received
  deriving DecidableEq, Repr

inductive CloserPhase where
  | subscribing
  | waiting
  | leaving
  | closed
  deriving DecidableEq, Repr

inductive ReceiverPhase where
  | selecting
  | processing
  | finished
  deriving DecidableEq, Repr

structure Offers where
  handlers : List HandlerPhase
  closer : CloserPhase
  receiver : ReceiverPhase
  cancelled : Bool
  connLost : Bool
  panicked : Bool
  deriving DecidableEq, Repr

inductive OfferEvent where
  /-- The broker delivers a message, which is a valid offer or not. -/
  | deliver (valid : Bool)
  | send (call : Nat)
  | receive (call : Nat)
  | processed
  | subscribed (ok : Bool)
  | cancel
  | loseConn
  /-- The goroutine calls Unsubscribe, whose token it does not wait for. -/
  | unsubscribe
  | noticeLoss
  | close
  | stop
  | seeClosed
  deriving DecidableEq, Repr

namespace Offers

def start : Offers where
  handlers := []
  closer := .subscribing
  receiver := .selecting
  cancelled := false
  connLost := false
  panicked := false

def step (s : Offers) (event : OfferEvent) : Option Offers :=
  if s.panicked then none
  else match event with
  | .deliver valid =>
    some { s with
      handlers := s.handlers ++ [if valid then .decoded else .rejected] }
  | .send call =>
    if s.handlers[call]? = some .decoded then
      if s.closer = .closed then some { s with panicked := true }
      else some { s with handlers := s.handlers.set call .sending }
    else none
  | .receive call =>
    if s.handlers[call]? = some .sending ∧ s.receiver = .selecting then
      some { s with
        handlers := s.handlers.set call .received
        receiver := .processing }
    else none
  | .processed =>
    if s.receiver = .processing then some { s with receiver := .selecting }
    else none
  | .subscribed ok =>
    if s.closer = .subscribing then
      some { s with closer := if ok then .waiting else .leaving }
    else none
  | .cancel => some { s with cancelled := true }
  | .loseConn => some { s with connLost := true }
  | .unsubscribe =>
    if s.closer = .waiting ∧ s.cancelled then
      some { s with closer := .leaving }
    else none
  | .noticeLoss =>
    if s.closer = .waiting ∧ s.connLost then
      some { s with closer := .leaving }
    else none
  | .close =>
    if s.closer = .leaving then
      -- Whoever is in a send is woken by the close and panics.
      some { s with
        closer := .closed
        panicked := s.handlers.contains .sending }
    else none
  | .stop =>
    if s.receiver = .selecting ∧ s.cancelled then
      some { s with receiver := .finished }
    else none
  | .seeClosed =>
    if s.receiver = .selecting ∧ s.closer = .closed then
      some { s with receiver := .finished }
    else none

/-- What a step can be. Those that touch neither a call of the handler nor the
channel are one case. -/
inductive Taken (s : Offers) : OfferEvent → Offers → Prop
  | deliver {valid : Bool} : Taken s (.deliver valid) { s with
      handlers := s.handlers ++ [if valid then .decoded else .rejected] }
  | send {call : Nat} (hcall : s.handlers[call]? = some .decoded) (hopen : s.closer ≠ .closed) :
      Taken s (.send call) { s with handlers := s.handlers.set call .sending }
  | sendClosed {call : Nat} (hcall : s.handlers[call]? = some .decoded)
      (hclosed : s.closer = .closed) :
      Taken s (.send call) { s with panicked := true }
  | receive {call : Nat} (hcall : s.handlers[call]? = some .sending) :
      Taken s (.receive call) { s with
        handlers := s.handlers.set call .received
        receiver := .processing }
  | close (hleaving : s.closer = .leaving) : Taken s .close { s with
        closer := .closed
        panicked := s.handlers.contains .sending }
  | other {event : OfferEvent} {after : Offers}
      (hevent : event ≠ .close ∧ ∀ call, event ≠ .send call ∧ event ≠ .receive call)
      (hhandlers : after.handlers = s.handlers)
      (hcloser : after.closer = .closed ↔ s.closer = .closed)
      (hpanicked : after.panicked = s.panicked) : Taken s event after

variable {event : OfferEvent}

theorem taken_of_step {s after : Offers} (h : s.step event = some after) :
    s.panicked = false ∧ Taken s event after := by
  revert h
  fun_cases step s event <;> intro h <;> cases h
  all_goals refine ⟨(Bool.not_eq_true _).mp ‹_›, ?_⟩
  · exact .deliver
  · exact .sendClosed ‹_› ‹_›
  · exact .send ‹_› ‹_›
  · next hcall => exact .receive hcall.1
  · exact .other (by simp) rfl .rfl rfl
  · next ok hcloser =>
    refine .other (by simp) rfl ?_ rfl
    cases ok <;> simp [hcloser]
  · exact .other (by simp) rfl .rfl rfl
  · exact .other (by simp) rfl .rfl rfl
  · next hcloser => exact .other (by simp) rfl (by simp [hcloser.1]) rfl
  · next hcloser => exact .other (by simp) rfl (by simp [hcloser.1]) rfl
  · exact .close ‹_›
  · exact .other (by simp) rfl .rfl rfl
  · exact .other (by simp) rfl .rfl rfl

structure Traced (events : List OfferEvent) (s : Offers) : Prop where
  closed_iff : s.closer = .closed ↔ .close ∈ events
  sent_iff : ∀ call, .send call ∈ events ↔
    s.handlers[call]? = some .sending ∨ s.handlers[call]? = some .received
  received_iff : ∀ call, .receive call ∈ events ↔ s.handlers[call]? = some .received

theorem traced_start : Traced [] start where
  closed_iff := by simp [start]
  sent_iff := by simp [start]
  received_iff := by simp [start]

theorem getElem?_set_call {handlers : List HandlerPhase} {call : Nat} {old new : HandlerPhase}
    (hcall : handlers[call]? = some old) (other : Nat) :
    (handlers.set call new)[other]? =
      if call = other then some new else handlers[other]? := by
  obtain ⟨hlt, -⟩ := List.getElem?_eq_some_iff.mp hcall
  rw [List.getElem?_set, if_pos hlt]

variable {events : List OfferEvent}

theorem Traced.step {s after : Offers}
    (traced : Traced events s) (taken : Taken s event after) (hsafe : after.panicked = false) :
    Traced (events ++ [event]) after := by
  obtain ⟨hclosed, hsent, hreceived⟩ := traced
  cases taken with
  | @deliver valid =>
    have hnew (call : Nat) {phase : HandlerPhase} (hphase : phase = .sending ∨ phase = .received) :
        (s.handlers ++ [if valid then .decoded else .rejected])[call]? =
          some phase ↔ s.handlers[call]? = some phase := by
      rw [List.getElem?_append]
      split
      · rfl
      · next hlong =>
          rw [List.getElem?_eq_none (by omega : s.handlers.length ≤ call)]
          cases valid <;> rcases hphase with rfl | rfl <;> simp [List.getElem?_singleton]
    refine ⟨by simpa using hclosed, fun call => ?_, fun call => ?_⟩
    · simpa [hnew] using hsent call
    · simpa [hnew] using hreceived call
  | @send call hcall hopen =>
    refine ⟨by simpa using hclosed, fun other => ?_, fun other => ?_⟩
    · rw [getElem?_set_call hcall]
      by_cases heq : call = other
      · simp [heq]
      · simpa [heq, Ne.symm heq] using hsent other
    · rw [getElem?_set_call hcall]
      by_cases heq : call = other
      · subst heq
        simpa [hcall] using hreceived call
      · simpa [heq] using hreceived other
  | sendClosed hcall hshut => cases hsafe
  | @receive call hcall =>
    refine ⟨by simpa using hclosed, fun other => ?_, fun other => ?_⟩
    · rw [getElem?_set_call hcall]
      by_cases heq : call = other
      · subst heq
        simpa [hcall] using hsent call
      · simpa [heq] using hsent other
    · rw [getElem?_set_call hcall]
      by_cases heq : call = other
      · simp [heq]
      · simpa [heq, Ne.symm heq] using hreceived other
  | close hleaving =>
    exact ⟨by simp, by simpa using hsent, by simpa using hreceived⟩
  | other hevent hhandlers hcloser hpanicked =>
    refine ⟨?_, fun call => ?_, fun call => ?_⟩
    · simpa [hcloser, hevent.1.symm] using hclosed
    · simpa [hhandlers, (hevent.2 call).1.symm] using hsent call
    · simpa [hhandlers, (hevent.2 call).2.symm] using hreceived call

def Pending (events : List OfferEvent) : Prop :=
  ∃ call, .send call ∈ events ∧ .receive call ∉ events

theorem Traced.pending_iff {s : Offers} (traced : Traced events s) :
    s.handlers.contains .sending ↔ Pending events := by
  rw [List.contains_iff_mem, List.mem_iff_getElem?]
  refine exists_congr fun call => ?_
  rw [traced.sent_iff, traced.received_iff]
  constructor
  · intro hcall
    simp [hcall]
  · rintro ⟨hcall | hcall, hnot⟩
    · exact hcall
    · exact absurd hcall hnot

/-- The channel is closed while a call is in its send, or a call comes to its
send when the channel is closed. -/
def Collides (events : List OfferEvent) : Prop := Run.OccursAfter Pending .close events ∨
    ∃ call, Run.OccursAfter (.close ∈ ·) (.send call) events

theorem Traced.panicked_iff {s after : Offers}
    (traced : Traced events s) (hsafe : s.panicked = false) (taken : Taken s event after) :
    after.panicked ↔ event = .close ∧ Pending events ∨
      ∃ call, event = .send call ∧ .close ∈ events := by
  cases taken with
  | deliver | receive hcall => simp [hsafe]
  | send hcall hopen =>
    rw [Ne, traced.closed_iff] at hopen
    simp [hsafe, hopen]
  | sendClosed hcall hclosed =>
    simpa using traced.closed_iff.mp hclosed
  | close hleaving => simpa using traced.pending_iff
  | other hevent hhandlers hcloser hpanicked =>
    simp [hpanicked, hsafe, hevent.1, fun call => (hevent.2 call).1]

theorem collides_append_singleton :
    Collides (events ++ [event]) ↔ Collides events ∨ event = .close ∧ Pending events ∨
        ∃ call, event = .send call ∧ .close ∈ events := by
  simp only [Collides, Run.occursAfter_append_singleton, exists_or]
  tauto

theorem run_spec {last : Offers} (run : Run step (fun _ _ => True) start events last) :
    (last.panicked ↔ Collides events) ∧ (last.panicked = false → Traced events last) := by
  induction run with
  | start =>
    refine ⟨iff_of_false (by simp [Offers.start]) ?_, fun _ => traced_start⟩
    rintro (h | ⟨call, h⟩) <;> exact Run.not_occursAfter_nil h
  | next _ _ htaken ih =>
    obtain ⟨hsafe, taken⟩ := taken_of_step htaken
    obtain ⟨hcollides, htraced⟩ := ih
    have traced := htraced hsafe
    have hnot := mt hcollides.mpr (by simp [hsafe])
    refine ⟨?_, fun hafter => traced.step taken hafter⟩
    rw [collides_append_singleton, traced.panicked_iff hsafe taken]
    exact (or_iff_right hnot).symm

end Offers

end Pig.Ice
