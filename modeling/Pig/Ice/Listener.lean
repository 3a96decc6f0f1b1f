import Mathlib.Logic.Function.Basic
import Pig.Lib.Run

namespace Pig.Ice

/-! The listener that joins child listeners. Every child has a goroutine that
waits for its connection in a channel of its own and offers it to the callers of
Accept, and one that calls Accept of the child and fills that channel. -/

inductive AcceptorPhase where
  | accepting
  | accepted
  | failed
  | sent
  | finished (ok : Bool)
  deriving DecidableEq, Repr

/-- The goroutine of processChildListener. When it offers the connection it has
read the accept channel of the listener, which may have been nil. -/
inductive ChildPhase where
  | selecting
  | received
  | offering (live : Bool)
  | refused
  | draining
  | drained
  | delivered (call : Nat)
  | finished
  deriving DecidableEq, Repr

structure Child where
  acceptor : AcceptorPhase
  phase : ChildPhase
  /-- The channel of the child holds the connection. -/
  buffered : Bool
  closed : Bool
  deriving DecidableEq, Repr

inductive ClosePhase where
  | opened
  | flagged
  | cancelled
  | shut
  | cleared
  deriving DecidableEq, Repr

inductive CallPhase where
  | ready
  | entered
  | waiting (live : Bool)
  | returned (child : Nat)
  | failed
  deriving DecidableEq, Repr

structure Listener where
  children : Nat → Option Child
  calls : Nat → CallPhase
  closing : ClosePhase
  /-- A value was sent on the closed accept channel. -/
  panicked : Bool

inductive ChildEvent where
  | acceptReturns (ok : Bool)
  | sendConn
  | closeChan
  | timeout
  | cancelled
  | receive
  | evaluate
  | giveUp
  | closeConn
  | drain
  deriving DecidableEq, Repr

inductive ListenerEvent where
  | load (child : Nat)
  | child (child : Nat) (event : ChildEvent)
  | send (child call : Nat)
  | accept (call : Nat)
  | evaluate (call : Nat)
  | fail (call : Nat)
  | setClosed
  | cancel
  | closeAcceptChan
  | clearAcceptChan
  deriving DecidableEq, Repr

namespace AcceptorPhase

def hasAccepted : AcceptorPhase → Bool
  | .accepted => true
  | .sent => true
  | .finished ok => ok
  | _ => false

def hasSent : AcceptorPhase → Bool
  | .sent => true
  | .finished ok => ok
  | _ => false

def hasClosed : AcceptorPhase → Bool
  | .finished _ => true
  | _ => false

end AcceptorPhase

namespace ClosePhase

def isDone : ClosePhase → Bool
  | .cancelled => true
  | .shut => true
  | .cleared => true
  | _ => false

def isShut : ClosePhase → Bool
  | .shut => true
  | .cleared => true
  | _ => false

end ClosePhase

namespace Child

def start : Child where
  acceptor := .accepting
  phase := .selecting
  buffered := false
  closed := false

def step (closing : ClosePhase) (c : Child) : ChildEvent → Option Child
  | .acceptReturns ok =>
    match c.acceptor with
    | .accepting =>
      some { c with acceptor := if ok then .accepted else .failed }
    | _ => none
  | .sendConn =>
    match c.acceptor with
    | .accepted => some { c with acceptor := .sent, buffered := true }
    | _ => none
  | .closeChan =>
    match c.acceptor with
    | .sent => some { c with acceptor := .finished true }
    | .failed => some { c with acceptor := .finished false }
    | _ => none
  | .timeout =>
    match c.phase with
    | .selecting => some { c with phase := .draining }
    | _ => none
  | .cancelled =>
    match c.phase with
    | .selecting =>
      if closing.isDone then some { c with phase := .draining } else none
    | _ => none
  | .receive =>
    match c.phase with
    | .selecting =>
      if c.buffered then
        some { c with phase := .received, buffered := false }
      else if c.acceptor.hasClosed then some { c with phase := .draining }
      else none
    | _ => none
  | .evaluate =>
    match c.phase with
    | .received =>
      some { c with phase := .offering (closing != .cleared) }
    | _ => none
  | .giveUp =>
    match c.phase with
    | .offering _ =>
      if closing.isDone then some { c with phase := .refused } else none
    | _ => none
  | .closeConn =>
    match c.phase with
    | .refused => some { c with phase := .draining, closed := true }
    | .drained => some { c with phase := .finished, closed := true }
    | _ => none
  | .drain =>
    match c.phase with
    | .draining =>
      if c.buffered then
        some { c with phase := .drained, buffered := false }
      else some { c with phase := .finished }
    | _ => none

inductive Taken (closing : ClosePhase) (c : Child) :
    ChildEvent → Child → Prop
  | acceptReturns {ok : Bool} (hacceptor : c.acceptor = .accepting) :
      Taken closing c (.acceptReturns ok) { c with acceptor := if ok then .accepted else .failed }
  | sendConn (hacceptor : c.acceptor = .accepted) : Taken closing c .sendConn
        { c with acceptor := .sent, buffered := true }
  | closeSent (hacceptor : c.acceptor = .sent) :
      Taken closing c .closeChan { c with acceptor := .finished true }
  | closeFailed (hacceptor : c.acceptor = .failed) :
      Taken closing c .closeChan { c with acceptor := .finished false }
  | timeout (hphase : c.phase = .selecting) : Taken closing c .timeout { c with phase := .draining }
  | cancelled (hphase : c.phase = .selecting) (hdone : closing.isDone = true) :
      Taken closing c .cancelled { c with phase := .draining }
  | receive (hphase : c.phase = .selecting) (hbuffered : c.buffered = true) :
      Taken closing c .receive { c with phase := .received, buffered := false }
  | receiveClosed (hphase : c.phase = .selecting) (hbuffered : c.buffered = false)
      (hclosed : c.acceptor.hasClosed = true) :
      Taken closing c .receive { c with phase := .draining }
  | evaluate (hphase : c.phase = .received) : Taken closing c .evaluate
        { c with phase := .offering (closing != .cleared) }
  | giveUp {live : Bool} (hphase : c.phase = .offering live) (hdone : closing.isDone = true) :
      Taken closing c .giveUp { c with phase := .refused }
  | closeRefused (hphase : c.phase = .refused) :
      Taken closing c .closeConn { c with phase := .draining, closed := true }
  | closeDrained (hphase : c.phase = .drained) :
      Taken closing c .closeConn { c with phase := .finished, closed := true }
  | drain (hphase : c.phase = .draining) (hbuffered : c.buffered = true) :
      Taken closing c .drain { c with phase := .drained, buffered := false }
  | drainNothing (hphase : c.phase = .draining) (hbuffered : c.buffered = false) :
      Taken closing c .drain { c with phase := .finished }

theorem taken_of_step {closing : ClosePhase} {c d : Child}
    {event : ChildEvent} (h : c.step closing event = some d) :
    Taken closing c event d := by
  revert h
  fun_cases step closing c event <;> intro h <;> cases h
  · exact .acceptReturns ‹_›
  · exact .sendConn ‹_›
  · exact .closeSent ‹_›
  · exact .closeFailed ‹_›
  · exact .timeout ‹_›
  · exact .cancelled ‹_› ‹_›
  · exact .receive ‹_› ‹_›
  · exact .receiveClosed ‹_› ((Bool.not_eq_true _).mp ‹_›) ‹_›
  · exact .evaluate ‹_›
  · exact .giveUp ‹_› ‹_›
  · exact .closeRefused ‹_›
  · exact .closeDrained ‹_›
  · exact .drain ‹_› ‹_›
  · exact .drainNothing ‹_› ((Bool.not_eq_true _).mp ‹_›)

end Child

namespace ChildPhase

def holds : ChildPhase → Bool
  | .received => true
  | .offering _ => true
  | .refused => true
  | .drained => true
  | .delivered _ => true
  | _ => false

end ChildPhase

namespace Child

def Placed (c : Child) : Prop := c.buffered.toNat + c.phase.holds.toNat + c.closed.toNat =
    c.acceptor.hasSent.toNat

section

variable {closing : ClosePhase} {c d : Child} {event : ChildEvent}

theorem hasAccepted_step (taken : Taken closing c event d) : d.acceptor.hasAccepted = true ↔
      c.acceptor.hasAccepted = true ∨ event = .acceptReturns true := by
  cases taken with
  | @acceptReturns ok hacceptor =>
    cases ok <;> simp [hacceptor, AcceptorPhase.hasAccepted]
  | sendConn hacceptor | closeSent hacceptor | closeFailed hacceptor =>
    simp [hacceptor, AcceptorPhase.hasAccepted]
  | _ => simp

theorem hasSent_step (taken : Taken closing c event d) : d.acceptor.hasSent = true ↔
      c.acceptor.hasSent = true ∨ event = .sendConn := by
  cases taken with
  | @acceptReturns ok hacceptor =>
    cases ok <;> simp [hacceptor, AcceptorPhase.hasSent]
  | sendConn hacceptor | closeSent hacceptor | closeFailed hacceptor =>
    simp [hacceptor, AcceptorPhase.hasSent]
  | _ => simp

theorem Placed.step (placed : Placed c) (taken : Taken closing c event d) : Placed d := by
  unfold Placed at placed ⊢
  cases taken with
  | @acceptReturns ok hacceptor =>
    rw [hacceptor] at placed
    cases ok <;> exact placed
  | sendConn hacceptor =>
    rw [hacceptor] at placed
    change _ + c.phase.holds.toNat + c.closed.toNat = 0 at placed
    change 1 + c.phase.holds.toNat + c.closed.toNat = 1
    omega
  | closeSent hacceptor | closeFailed hacceptor =>
    rw [hacceptor] at placed
    exact placed
  | timeout hphase | cancelled hphase | receiveClosed hphase
  | evaluate hphase | giveUp hphase | drainNothing hphase =>
    rw [hphase] at placed
    exact placed
  | receive hphase hbuffered | drain hphase hbuffered =>
    rw [hphase, hbuffered] at placed
    exact placed
  | closeRefused hphase | closeDrained hphase =>
    rw [hphase] at placed
    have hone := c.acceptor.hasSent.toNat_le
    change c.buffered.toNat + 1 + c.closed.toNat = c.acceptor.hasSent.toNat at placed
    change c.buffered.toNat + 0 + 1 = c.acceptor.hasSent.toNat
    omega

def LeftOpen (c : Child) : Prop := c.phase = .finished ∧ c.closed = false

theorem leftOpen_step (placed : Placed c) (taken : Taken closing c event d) :
    LeftOpen d ↔ LeftOpen c ∨ event = .drain ∧ c.acceptor.hasSent = false := by
  unfold LeftOpen
  unfold Placed at placed
  cases taken with
  | drain hphase hbuffered =>
    rw [hphase, hbuffered] at placed
    cases hsent : c.acceptor.hasSent with
    | false =>
      rw [hsent] at placed
      simp at placed
    | true => simp [hphase]
  | drainNothing hphase hbuffered =>
    rw [hphase, hbuffered] at placed
    cases hsent : c.acceptor.hasSent <;> cases hclosed : c.closed <;>
      simp [hsent, hclosed, ChildPhase.holds, hphase] at placed ⊢
  | _ => simp [*]

end

end Child

namespace Listener

def start : Listener where
  children _ := none
  calls _ := .ready
  closing := .opened
  panicked := false

def setChild (l : Listener) (i : Nat) (c : Child) : Listener :=
  { l with children := Function.update l.children i (some c) }

def setCall (l : Listener) (call : Nat) (phase : CallPhase) : Listener :=
  { l with calls := Function.update l.calls call phase }

def deliver (l : Listener) (i : Nat) (c : Child) (call : Nat) : Listener :=
  (l.setChild i { c with phase := .delivered call }).setCall call (.returned i)

def step (l : Listener) (event : ListenerEvent) : Option Listener :=
  if l.panicked then none
  else
    match event with
    | .load i =>
      if l.closing ≠ .opened then some l
      else
        match l.children i with
        | none => some (l.setChild i .start)
        | some _ => none
    | .child i event =>
      match l.children i with
      | none => none
      | some c => (c.step l.closing event).map (l.setChild i)
    | .send i call =>
      match l.children i with
      | none => none
      | some c =>
        if c.phase = .offering true then
          if l.closing.isShut then some { l with panicked := true }
          -- Those that waited when the context was cancelled were woken by
          -- it, and nobody waits afterwards.
          else if l.closing.isDone then none
          else if l.calls call = .waiting true then
            some (l.deliver i c call)
          else none
        else none
    | .accept call =>
      if l.calls call = .ready then
        if l.closing ≠ .opened then some (l.setCall call .failed)
        else some (l.setCall call .entered)
      else none
    | .evaluate call =>
      if l.calls call = .entered then
        some (l.setCall call (.waiting (l.closing != .cleared)))
      else none
    | .fail call =>
      match l.calls call with
      | .waiting _ =>
        if l.closing.isDone then some (l.setCall call .failed) else none
      | _ => none
    | .setClosed =>
      match l.closing with
      | .opened => some { l with closing := .flagged }
      | _ => none
    | .cancel =>
      match l.closing with
      | .flagged => some { l with closing := .cancelled }
      | _ => none
    | .closeAcceptChan =>
      match l.closing with
      | .cancelled => some { l with closing := .shut }
      | _ => none
    | .clearAcceptChan =>
      match l.closing with
      | .shut => some { l with closing := .cleared }
      | _ => none

inductive Taken (l : Listener) : ListenerEvent → Listener → Prop
  | refuseLoad {i : Nat} (hclosing : l.closing ≠ .opened) : Taken l (.load i) l
  | load {i : Nat} (hchild : l.children i = none) : Taken l (.load i) (l.setChild i .start)
  | child {i : Nat} {c d : Child} {event : ChildEvent} (hchild : l.children i = some c)
      (taken : Child.Taken l.closing c event d) :
      Taken l (.child i event) (l.setChild i d)
  | sendClosed {i call : Nat} {c : Child} (hchild : l.children i = some c)
      (hphase : c.phase = .offering true)
      (hshut : l.closing.isShut = true) :
      Taken l (.send i call) { l with panicked := true }
  | deliver {i call : Nat} {c : Child} (hchild : l.children i = some c)
      (hphase : c.phase = .offering true)
      (hshut : l.closing.isShut = false)
      (hcall : l.calls call = .waiting true) :
      Taken l (.send i call) (l.deliver i c call)
  | refuseAccept {call : Nat} (hcall : l.calls call = .ready) :
      Taken l (.accept call) (l.setCall call .failed)
  | accept {call : Nat} (hcall : l.calls call = .ready) :
      Taken l (.accept call) (l.setCall call .entered)
  | evaluate {call : Nat} {live : Bool} (hcall : l.calls call = .entered) :
      Taken l (.evaluate call) (l.setCall call (.waiting live))
  | fail {call : Nat} {live : Bool} (hcall : l.calls call = .waiting live) :
      Taken l (.fail call) (l.setCall call .failed)
  | setClosed (hclosing : l.closing = .opened) : Taken l .setClosed { l with closing := .flagged }
  | cancel (hclosing : l.closing = .flagged) : Taken l .cancel { l with closing := .cancelled }
  | closeAcceptChan (hclosing : l.closing = .cancelled) :
      Taken l .closeAcceptChan { l with closing := .shut }
  | clearAcceptChan (hclosing : l.closing = .shut) :
      Taken l .clearAcceptChan { l with closing := .cleared }

theorem taken_of_step {l m : Listener} {event : ListenerEvent}
    (h : l.step event = some m) : l.panicked = false ∧ Taken l event m := by
  revert h
  fun_cases step l event <;> intro h <;> try cases h
  all_goals refine ⟨(Bool.not_eq_true _).mp ‹_›, ?_⟩
  · exact .refuseLoad ‹_›
  · exact .load ‹_›
  · obtain ⟨d, hstep, rfl⟩ := Option.map_eq_some_iff.mp h
    exact .child ‹_› (Child.taken_of_step hstep)
  · exact .sendClosed ‹_› ‹_› ‹_›
  · exact .deliver ‹_› ‹_› ((Bool.not_eq_true _).mp ‹_›) ‹_›
  · exact .refuseAccept ‹_›
  · exact .accept ‹_›
  · exact .evaluate ‹_›
  · exact .fail ‹_›
  · exact .setClosed ‹_›
  · exact .cancel ‹_›
  · exact .closeAcceptChan ‹_›
  · exact .clearAcceptChan ‹_›

def DrainsEarly (events : List ListenerEvent) (i : Nat) : Prop :=
  Run.OccursAfter (.child i .sendConn ∉ ·) (.child i .drain) events

structure Tracked (events : List ListenerEvent) (i : Nat) (c : Child) :
    Prop where
  accepted : .child i (.acceptReturns true) ∈ events ↔ c.acceptor.hasAccepted = true
  sent : .child i .sendConn ∈ events ↔ c.acceptor.hasSent = true
  placed : c.Placed
  early : DrainsEarly events i ↔ c.LeftOpen

section

variable {events : List ListenerEvent} {i : Nat} {c d : Child}

theorem mem_append_child {event latest : ChildEvent} :
    ListenerEvent.child i event ∈ events ++ [.child i latest] ↔
      ListenerEvent.child i event ∈ events ∨ latest = event := by
  simp [eq_comm]

theorem Tracked.step {closing : ClosePhase} {event : ChildEvent}
    (tracked : Tracked events i c) (taken : Child.Taken closing c event d) :
    Tracked (events ++ [.child i event]) i d where
  accepted := by
    rw [mem_append_child, tracked.accepted, Child.hasAccepted_step taken]
  sent := by
    rw [mem_append_child, tracked.sent, Child.hasSent_step taken]
  placed := tracked.placed.step taken
  early := by
    have hdrain : ListenerEvent.child i event = .child i .drain ↔ event = .drain := by simp
    have hsent : ListenerEvent.child i .sendConn ∉ events ↔ c.acceptor.hasSent = false := by
      rw [tracked.sent, Bool.not_eq_true]
    rw [Child.leftOpen_step tracked.placed taken, ← tracked.early, ← hsent, ← hdrain]
    exact Run.occursAfter_append_singleton

theorem Tracked.other {latest : ListenerEvent} (tracked : Tracked events i c)
    (hother : ∀ event, latest ≠ .child i event) :
    Tracked (events ++ [latest]) i c where
  accepted := by
    rw [List.mem_append, List.mem_singleton, tracked.accepted, or_iff_left (Ne.symm (hother _))]
  sent := by
    rw [List.mem_append, List.mem_singleton, tracked.sent, or_iff_left (Ne.symm (hother _))]
  placed := tracked.placed
  early := by
    rw [← tracked.early]
    refine Run.occursAfter_append_singleton.trans (or_iff_left ?_)
    exact fun h => hother _ h.1

theorem Tracked.deliver {live : Bool} {call : Nat}
    (tracked : Tracked events i c) (hphase : c.phase = .offering live) :
    Tracked events i { c with phase := .delivered call } where
  accepted := tracked.accepted
  sent := tracked.sent
  placed := by
    have hplaced := tracked.placed
    unfold Child.Placed at hplaced ⊢
    rw [hphase] at hplaced
    exact hplaced
  early := by
    rw [tracked.early]
    simp [Child.LeftOpen, hphase]

theorem tracked_start (h : ∀ event, .child i event ∉ events) : Tracked events i .start where
  accepted := by simp [h, Child.start, AcceptorPhase.hasAccepted]
  sent := by simp [h, Child.start, AcceptorPhase.hasSent]
  placed := rfl
  early := by
    refine iff_of_false ?_ (by simp [Child.LeftOpen, Child.start])
    rintro ⟨before, after, rfl, -⟩
    exact h .drain (by simp)

end

section

variable {l m : Listener} {i j call : Nat} {c : Child} {phase : CallPhase}

theorem children_setChild_self : (l.setChild i c).children i = some c := Function.update_self ..

theorem children_setChild_of_ne (h : j ≠ i) : (l.setChild i c).children j = l.children j :=
  Function.update_of_ne h _ _

theorem calls_setCall_self : (l.setCall call phase).calls call = phase := Function.update_self ..

theorem calls_setCall_of_ne {other : Nat} (h : other ≠ call) :
    (l.setCall call phase).calls other = l.calls other :=
  Function.update_of_ne h _ _

end

def OffersLate (events : List ListenerEvent) : Prop :=
  ∃ i call, Run.OccursAfter (.closeAcceptChan ∈ ·) (.send i call) events

structure Traced (events : List ListenerEvent) (l : Listener) : Prop where
  unloaded : ∀ i, l.children i = none → ∀ event, .child i event ∉ events
  tracked : ∀ i c, l.children i = some c → Tracked events i c
  returned : ∀ i call, l.calls call = .returned i ↔
    ∃ c, l.children i = some c ∧ c.phase = .delivered call
  shut : .closeAcceptChan ∈ events ↔ l.closing.isShut = true
  panicked : OffersLate events ↔ l.panicked = true

section

variable {events : List ListenerEvent} {l m : Listener} {event : ListenerEvent}

theorem children_step (taken : Taken l event m) (i : Nat) :
    (m.children i = l.children i ∧ ∀ own, event ≠ .child i own) ∨
    (l.children i = none ∧ m.children i = some .start ∧ ∀ own, event ≠ .child i own) ∨
    (∃ c d own, l.children i = some c ∧ m.children i = some d ∧
      event = .child i own ∧ Child.Taken l.closing c own d) ∨
    (∃ c call, l.children i = some c ∧ c.phase = .offering true ∧
      m.children i = some { c with phase := .delivered call } ∧
      m.calls call = .returned i ∧ ∀ own, event ≠ .child i own) := by
  cases taken with
  | @load j hchild =>
    by_cases hsame : i = j
    · subst hsame
      exact .inr (.inl ⟨hchild, children_setChild_self, by simp⟩)
    · exact .inl ⟨children_setChild_of_ne hsame, by simp⟩
  | @child j c d own hchild taken =>
    by_cases hsame : i = j
    · subst hsame
      exact .inr (.inr (.inl ⟨c, d, own, hchild, children_setChild_self, rfl, taken⟩))
    · exact .inl ⟨children_setChild_of_ne hsame, by simp [Ne.symm hsame]⟩
  | @deliver j call c hchild hphase hshut hcall =>
    by_cases hsame : i = j
    · subst hsame
      exact .inr (.inr (.inr ⟨c, call, hchild, hphase,
        children_setChild_self, calls_setCall_self, by simp⟩))
    · exact .inl ⟨children_setChild_of_ne hsame, by simp⟩
  | _ => exact .inl ⟨rfl, by simp⟩

section

variable (traced : Traced events l)

include traced

theorem unloaded_step (taken : Taken l event m)
    (i : Nat) (hnone : m.children i = none) (own : ChildEvent) :
    .child i own ∉ events ++ [event] := by
  rcases children_step taken i with ⟨hkept, hother⟩ | ⟨-, hloaded, -⟩ |
    ⟨c, d, -, -, hloaded, -⟩ | ⟨c, call, -, -, hloaded, -⟩
  · rw [List.mem_append, List.mem_singleton, not_or]
    exact ⟨traced.unloaded i (hkept ▸ hnone) own, Ne.symm (hother own)⟩
  all_goals
    cases hnone.symm.trans hloaded

theorem tracked_step (taken : Taken l event m)
    (i : Nat) (c : Child) (hchild : m.children i = some c) :
    Tracked (events ++ [event]) i c := by
  rcases children_step taken i with ⟨hkept, hother⟩ | ⟨hnone, hloaded, hother⟩ |
    ⟨before, after, own, hbefore, hafter, rfl, step⟩ |
    ⟨before, call, hbefore, hphase, hafter, -, hother⟩
  · exact (traced.tracked i c (hkept ▸ hchild)).other hother
  · cases hloaded.symm.trans hchild
    exact (tracked_start (traced.unloaded i hnone)).other hother
  · cases hafter.symm.trans hchild
    exact (traced.tracked i before hbefore).step step
  · cases hafter.symm.trans hchild
    exact ((traced.tracked i before hbefore).deliver hphase).other hother

theorem returned_setCall {call : Nat} {phase : CallPhase} (hbefore : ∀ i, l.calls call ≠ .returned
    i) (hafter : ∀ i, phase ≠ .returned i) (i other : Nat) :
    (l.setCall call phase).calls other = .returned i ↔
      ∃ c, l.children i = some c ∧ c.phase = .delivered other := by
  rw [← traced.returned i other]
  by_cases hsame : other = call
  · subst hsame
    rw [calls_setCall_self]
    exact iff_of_false (hafter i) (hbefore i)
  · rw [calls_setCall_of_ne hsame]

theorem returned_setChild {j : Nat} {d : Child} (hsame : ∀ call, d.phase = .delivered call ↔ ∃ c,
    l.children j = some c ∧ c.phase = .delivered call) (i call : Nat) :
    l.calls call = .returned i ↔ ∃ c, (l.setChild j d).children i = some c ∧
        c.phase = .delivered call := by
  rw [traced.returned i call]
  by_cases hij : i = j
  · subst hij
    rw [← hsame call, children_setChild_self]
    simp
  · rw [children_setChild_of_ne hij]

theorem returned_deliver {j delivering : Nat} {c : Child}
    (hchild : l.children j = some c) (hphase : c.phase = .offering true)
    (hcall : l.calls delivering = .waiting true) (i call : Nat) :
    (l.deliver j c delivering).calls call = .returned i ↔ ∃ d, (l.deliver j c delivering).children i
      = some d ∧ d.phase = .delivered call := by
  have hchildren : (l.deliver j c delivering).children =
      (l.setChild j { c with phase := .delivered delivering }).children := rfl
  rw [hchildren]
  by_cases hij : i = j
  · subst hij
    rw [children_setChild_self]
    by_cases hsame : call = delivering
    · subst hsame
      exact iff_of_true calls_setCall_self ⟨_, rfl, rfl⟩
    · rw [deliver, calls_setCall_of_ne hsame]
      refine iff_of_false (fun hreturned => ?_) ?_
      · -- The child had not delivered before.
        obtain ⟨before, hbefore, hdelivered⟩ := (traced.returned i call).mp hreturned
        cases hchild.symm.trans hbefore
        cases hphase.symm.trans hdelivered
      · rintro ⟨after, hafter, hdelivered⟩
        cases hafter
        cases hdelivered
        exact hsame rfl
  · rw [children_setChild_of_ne hij, ← traced.returned i call]
    by_cases hsame : call = delivering
    · subst hsame
      rw [deliver, calls_setCall_self, hcall]
      simp [Ne.symm hij]
    · rw [deliver, calls_setCall_of_ne hsame]
      rfl

theorem returned_step (taken : Taken l event m) (i call : Nat) :
    m.calls call = .returned i ↔ ∃ c, m.children i = some c ∧ c.phase = .delivered call := by
  cases taken with
  | load hchild =>
    refine returned_setChild traced (fun call => ?_) i call
    simp [hchild, Child.start]
  | child hchild taken =>
    refine returned_setChild traced (fun call => ?_) i call
    rw [hchild]
    cases taken <;> simp [*]
  | deliver hchild hphase hshut hcall =>
    exact returned_deliver traced hchild hphase hcall i call
  | refuseAccept hcall | accept hcall | evaluate hcall | fail hcall =>
    exact returned_setCall traced (by simp [hcall]) (by simp) i call
  | _ => exact traced.returned i call

theorem shut_step (taken : Taken l event m) :
    .closeAcceptChan ∈ events ++ [event] ↔ m.closing.isShut = true := by
  rw [List.mem_append, List.mem_singleton, traced.shut]
  cases taken with
  | setClosed hclosing | cancel hclosing | clearAcceptChan hclosing =>
    simp [hclosing, ClosePhase.isShut]
  | closeAcceptChan hclosing => simp [ClosePhase.isShut]
  | _ => simp [deliver, setCall, setChild]

end

theorem offersLate_append : OffersLate (events ++ [event]) ↔ OffersLate events ∨ .closeAcceptChan ∈
    events ∧ ∃ i call, event = .send i call := by
  constructor
  · rintro ⟨i, call, hlate⟩
    rcases Run.occursAfter_append_singleton.mp hlate with
      hlate | ⟨hevent, hclosed⟩
    · exact .inl ⟨i, call, hlate⟩
    · exact .inr ⟨hclosed, i, call, hevent⟩
  · rintro (⟨i, call, hlate⟩ | ⟨hclosed, i, call, hevent⟩)
    · exact ⟨i, call, Run.occursAfter_append_singleton.mpr (.inl hlate)⟩
    · exact ⟨i, call, Run.occursAfter_append_singleton.mpr (.inr ⟨hevent, hclosed⟩)⟩

theorem panicked_step (traced : Traced events l) (taken : Taken l event m) :
    OffersLate (events ++ [event]) ↔ m.panicked = true := by
  rw [offersLate_append, traced.panicked, traced.shut]
  cases taken with
  | sendClosed hchild hphase hshut => simp [hshut]
  | deliver hchild hphase hshut hcall =>
    simp [hshut, deliver, setCall, setChild]
  | _ => simp [setCall, setChild]

theorem Traced.step (traced : Traced events l) (taken : Taken l event m) :
    Traced (events ++ [event]) m where
  unloaded := unloaded_step traced taken
  tracked := tracked_step traced taken
  returned := returned_step traced taken
  shut := shut_step traced taken
  panicked := panicked_step traced taken

theorem traced_start : Traced [] start where
  unloaded := by simp
  tracked := by simp [start]
  returned := by simp [start]
  shut := by simp [start, ClosePhase.isShut]
  panicked := by
    simp [OffersLate, Run.not_occursAfter_nil, start]

theorem traced_of_run (run : Run step (fun _ _ => True) start events l) : Traced events l := by
  induction run with
  | start => exact traced_start
  | next before permitted hstep ih => exact ih.step (taken_of_step hstep).2

end

def Finished (l : Listener) : Prop := ∀ i c, l.children i = some c →
    (c.phase = .finished ∨ ∃ call, c.phase = .delivered call) ∧ ∃ ok, c.acceptor = .finished ok

def Owned (l : Listener) (i : Nat) (c : Child) : Prop := (c.closed = false ∧ ∃ call, l.calls call =
  .returned i ∧ ∀ other, l.calls other = .returned i → other = call) ∨
  (c.closed = true ∧ ∀ call, l.calls call ≠ .returned i)

/-- Nothing was sent on the closed accept channel, and every connection that a
child accepted is owned. -/
structure Accounted (l : Listener) : Prop where
  running : l.panicked = false
  owned : ∀ i c, l.children i = some c → c.acceptor.hasAccepted = true → l.Owned i c

/-- No connection is offered on the accept channel after it is closed, and no
child's channel is drained before its connection is sent. -/
structure Orderly (events : List ListenerEvent) : Prop where
  offered : ¬ OffersLate events
  drained : ∀ i, .child i (.acceptReturns true) ∈ events → ¬ DrainsEarly events i

variable {events : List ListenerEvent}

theorem owned_iff {l : Listener} (traced : Traced events l)
    (hfinished : l.Finished) {i : Nat} {c : Child} (hchild : l.children i = some c)
    (haccepted : c.acceptor.hasAccepted = true) :
    l.Owned i c ↔ ¬ c.LeftOpen := by
  obtain ⟨hphase, ok, hacceptor⟩ := hfinished i c hchild
  have hplaced := (traced.tracked i c hchild).placed
  unfold Child.Placed at hplaced
  rw [hacceptor] at haccepted hplaced
  subst haccepted
  have hone : c.buffered.toNat + c.phase.holds.toNat + c.closed.toNat = 1 := hplaced
  have hreturned : ∀ call, l.calls call = .returned i ↔ c.phase = .delivered call := by
    intro call
    rw [traced.returned i call, hchild]
    simp
  unfold Owned Child.LeftOpen
  rcases hphase with hphase | ⟨call, hphase⟩
  · simp [hreturned, hphase]
  · rw [hphase] at hone
    have hclosed : c.closed = false := by
      cases hclosed : c.closed with
      | false => rfl
      | true =>
        rw [hclosed] at hone
        change c.buffered.toNat + 1 + 1 = 1 at hone
        omega
    refine iff_of_true (.inl ⟨hclosed, call, (hreturned call).mpr hphase, ?_⟩) (by simp [hphase])
    intro other hother
    have hsame := (hreturned other).mp hother
    cases hphase.symm.trans hsame
    rfl

theorem not_loaded_of_run {l : Listener} (run : Run step (fun _ _ => True) start events l) {i : Nat}
    (h : .load i ∉ events) : l.children i = none := by
  induction run with
  | start => rfl
  | @next middle last earlier event before permitted hstep ih =>
    rw [List.mem_append, List.mem_singleton, not_or] at h
    have hnone := ih h.1
    cases (taken_of_step hstep).2 with
    | @load j hchild =>
      refine (children_setChild_of_ne ?_).trans hnone
      rintro rfl
      exact h.2 rfl
    | child hchild | deliver hchild =>
      refine (children_setChild_of_ne ?_).trans hnone
      rintro rfl
      cases hnone.symm.trans hchild
    | _ => exact hnone

/-- The child has accepted, and has not sent the connection when the goroutine
that timed out finds the channel empty. -/
def lateConnection : List ListenerEvent := [.load 0, .child 0 .timeout, .child 0
  (.acceptReturns true), .child 0 .drain, .child 0 .sendConn, .child 0 .closeChan]

/-- A child has the accept channel in hand when Close closes it. -/
def lateOffer : List ListenerEvent := [.load 0, .child 0 (.acceptReturns true), .child 0 .sendConn,
    .child 0 .receive, .child 0 .evaluate, .setClosed, .cancel, .closeAcceptChan, .send 0 0]

def twoConnections : List ListenerEvent := [.load 0, .load 1, .accept 0, .evaluate 0, .child 0
    (.acceptReturns true), .child 0 .sendConn, .child 0 .closeChan, .child 0 .receive, .child 0
    .evaluate, .send 0 0, .child 1 .timeout, .child 1 (.acceptReturns true), .child 1 .sendConn,
    .child 1 .closeChan, .child 1 .drain, .child 1 .closeConn, .setClosed, .cancel,
    .closeAcceptChan, .clearAcceptChan]

end Listener

end Pig.Ice
