import Mathlib.Logic.Function.Basic
import Pig.Lib.Run

namespace Pig.Stun

/-! The nomination of a controlled agent: the requests that set it and the call
that waits for it, one step at a time. -/

inductive HandlerPhase where
  | ready
  | flagged
  | loaded (ch : Nat)
  | finished
  deriving DecidableEq, Repr

inductive WaiterPhase where
  | idle
  | published (ch : Nat)
  | waiting (ch : Nat)
  | leaving (ch : Nat)
  deriving DecidableEq, Repr

structure Nomination where
  nominated : Bool
  sigNominated : Option Nat
  made : Nat
  closed : Nat → Bool
  waiter : WaiterPhase
  handlers : Nat → HandlerPhase
  panicked : Bool

inductive NominationEvent where
  | setNominated (request : Nat)
  | loadSignal (request : Nat)
  | closeChannel (request : Nat)
  | call
  | checkNominated
  | wake
  | cancel
  | clear
  deriving DecidableEq, Repr

namespace Nomination

def start : Nomination where
  nominated := false
  sigNominated := none
  made := 0
  closed _ := false
  waiter := .idle
  handlers _ := .ready
  panicked := false

def advance (a : Nomination) (request : Nat) (phase : HandlerPhase) : Nomination :=
  { a with handlers := Function.update a.handlers request phase }

def step (a : Nomination) (event : NominationEvent) : Option Nomination :=
  if a.panicked then none
  else
    match event with
    | .setNominated request =>
      match a.handlers request with
      | .ready => some { a.advance request .flagged with nominated := true }
      | _ => none
    | .loadSignal request =>
      match a.handlers request with
      | .flagged =>
        match a.sigNominated with
        | none => some (a.advance request .finished)
        | some ch => some (a.advance request (.loaded ch))
      | _ => none
    | .closeChannel request =>
      match a.handlers request with
      | .loaded ch =>
        if a.closed ch then some { a with panicked := true }
        else some { a.advance request .finished with
          closed := Function.update a.closed ch true }
      | _ => none
    | .call =>
      match a.sigNominated with
      | none => some { a with
          sigNominated := some a.made
          waiter := .published a.made
          made := a.made + 1 }
      -- The channel of another call is there: this one fails.
      | some _ => some a
    | .checkNominated =>
      match a.waiter with
      | .published ch =>
        if a.nominated then some { a with waiter := .leaving ch }
        else some { a with waiter := .waiting ch }
      | _ => none
    | .wake =>
      match a.waiter with
      | .waiting ch =>
        if a.closed ch then some { a with waiter := .leaving ch } else none
      | _ => none
    | .cancel =>
      match a.waiter with
      | .waiting ch => some { a with waiter := .leaving ch }
      | _ => none
    | .clear =>
      match a.waiter with
      | .leaving _ => some { a with sigNominated := none, waiter := .idle }
      | _ => none

inductive Taken (a : Nomination) : NominationEvent → Nomination → Prop
  | setNominated {request : Nat} (hphase : a.handlers request = .ready) :
      Taken a (.setNominated request) { a.advance request .flagged with nominated := true }
  | loadNothing {request : Nat} (hphase : a.handlers request = .flagged)
      (hsignal : a.sigNominated = none) :
      Taken a (.loadSignal request) (a.advance request .finished)
  | loadSignal {request ch : Nat} (hphase : a.handlers request = .flagged)
      (hsignal : a.sigNominated = some ch) :
      Taken a (.loadSignal request) (a.advance request (.loaded ch))
  | closeChannel {request ch : Nat} (hphase : a.handlers request = .loaded ch)
      (hopen : a.closed ch = false) :
      Taken a (.closeChannel request)
        { a.advance request .finished with
          closed := Function.update a.closed ch true }
  | closeAgain {request ch : Nat} (hphase : a.handlers request = .loaded ch)
      (hclosed : a.closed ch = true) :
      Taken a (.closeChannel request) { a with panicked := true }
  | publish (hsignal : a.sigNominated = none) :
      Taken a .call { a with
        sigNominated := some a.made
        waiter := .published a.made
        made := a.made + 1 }
  | refuse {ch : Nat} (hsignal : a.sigNominated = some ch) : Taken a .call a
  | sawNominated {ch : Nat} (hwaiter : a.waiter = .published ch) (hnominated : a.nominated = true) :
      Taken a .checkNominated { a with waiter := .leaving ch }
  | sawNothing {ch : Nat} (hwaiter : a.waiter = .published ch) (hnominated : a.nominated = false) :
      Taken a .checkNominated { a with waiter := .waiting ch }
  | wake {ch : Nat} (hwaiter : a.waiter = .waiting ch) (hclosed : a.closed ch = true) :
      Taken a .wake { a with waiter := .leaving ch }
  | cancel {ch : Nat} (hwaiter : a.waiter = .waiting ch) :
      Taken a .cancel { a with waiter := .leaving ch }
  | clear {ch : Nat} (hwaiter : a.waiter = .leaving ch) :
      Taken a .clear { a with sigNominated := none, waiter := .idle }

theorem taken_of_step {a b : Nomination} {event : NominationEvent}
    (h : a.step event = some b) : a.panicked = false ∧ Taken a event b := by
  revert h
  fun_cases step a event <;> intro h <;> cases h
  all_goals refine ⟨(Bool.not_eq_true _).mp ‹_›, ?_⟩
  · exact .setNominated ‹_›
  · exact .loadNothing ‹_› ‹_›
  · exact .loadSignal ‹_› ‹_›
  · exact .closeAgain ‹_› ‹_›
  · exact .closeChannel ‹_› ((Bool.not_eq_true _).mp ‹_›)
  · exact .publish ‹_›
  · exact .refuse ‹_›
  · exact .sawNominated ‹_› ‹_›
  · exact .sawNothing ‹_› ((Bool.not_eq_true _).mp ‹_›)
  · exact .wake ‹_› ‹_›
  · exact .cancel ‹_›
  · exact .clear ‹_›

section

variable {a b : Nomination} {event : NominationEvent} {ch request other : Nat}

variable {phase : HandlerPhase}

theorem handlers_advance_of_ne (h : other ≠ request) :
    (a.advance request phase).handlers other = a.handlers other :=
  Function.update_of_ne h _ _

theorem handlers_advance_self :
    (a.advance request phase).handlers request = phase :=
  Function.update_self ..

theorem handlers_advance_kept {kept : HandlerPhase} (h : a.handlers request = kept)
    (hne : a.handlers other ≠ kept) : (a.advance other phase).handlers request = kept := by
  rw [handlers_advance_of_ne, h]
  rintro rfl
  exact hne h

section

variable (taken : Taken a event b)

include taken

theorem closed_step (h : a.closed ch = true) : b.closed ch = true := by
  cases taken with
  | @closeChannel request closing hphase hopen =>
    change Function.update a.closed closing true ch = true
    rw [Function.update_apply]
    split
    · rfl
    · exact h
  | _ => exact h

theorem loaded_step (h : a.handlers request = .loaded ch) :
    b.handlers request = .loaded ch ∨ event = .closeChannel request ∧
      (a.closed ch = false ∧ b.closed ch = true ∨ b.panicked = true) := by
  cases taken with
  | setNominated hphase | loadNothing hphase hsignal
  | loadSignal hphase hsignal => exact .inl (handlers_advance_kept h (by simp [hphase]))
  | @closeChannel closer closing hphase hopen =>
    by_cases hsame : closer = request
    · subst hsame
      cases h.symm.trans hphase
      exact .inr ⟨rfl, .inl ⟨hopen, Function.update_self ..⟩⟩
    · exact .inl ((handlers_advance_of_ne (Ne.symm hsame)).trans h)
  | @closeAgain closer closing hphase hclosed =>
    by_cases hsame : closer = request
    · subst hsame
      exact .inr ⟨rfl, .inr rfl⟩
    · exact .inl h
  | _ => exact .inl h

theorem of_loaded_step (h : b.handlers request = .loaded ch) :
    a.handlers request = .loaded ch ∨ event = .loadSignal request ∧ a.sigNominated = some ch := by
  have hother : ∀ {moving : Nat} {phase : HandlerPhase}, (a.advance moving phase).handlers request =
      .loaded ch → phase ≠ .loaded ch → a.handlers request = .loaded ch := by
    intro moving phase hloaded hne
    by_cases hsame : request = moving
    · subst hsame
      rw [handlers_advance_self] at hloaded
      exact absurd hloaded hne
    · rwa [handlers_advance_of_ne hsame] at hloaded
  cases taken with
  | setNominated hphase | loadNothing hphase hsignal
  | closeChannel hphase hopen => exact .inl (hother h (by simp))
  | @loadSignal loader loading hphase hsignal =>
    by_cases hsame : request = loader
    · subst hsame
      cases handlers_advance_self.symm.trans h
      exact .inr ⟨rfl, hsignal⟩
    · exact .inl ((handlers_advance_of_ne hsame).symm.trans h)
  | _ => exact .inl h

theorem of_closed_step (h : b.closed ch = true) :
    a.closed ch = true ∨ ∃ request, event = .closeChannel request ∧
      a.handlers request = .loaded ch ∧ b.handlers request = .finished := by
  cases taken with
  | @closeChannel request closing hphase hopen =>
    change Function.update a.closed closing true ch = true at h
    rw [Function.update_apply] at h
    split at h
    · next hsame =>
        subst hsame
        exact .inr ⟨request, rfl, hphase, handlers_advance_self⟩
    · exact .inl h
  | _ => exact .inl h

theorem signal_step (hsignal : a.sigNominated = some ch) (hclear : event ≠ .clear) :
    b.sigNominated = some ch := by
  cases taken with
  | publish hnone =>
    cases hsignal.symm.trans hnone
  | clear => exact absurd rfl hclear
  | _ => exact hsignal

theorem made_step : a.made ≤ b.made := by
  cases taken with
  | publish => exact Nat.le_succ _
  | _ => exact Nat.le_refl _

theorem of_signal_step (hsignal : b.sigNominated = some ch) :
    a.sigNominated = some ch ∧ event ≠ .clear ∨
      event = .call ∧ ch = a.made ∧ b.made = a.made + 1 := by
  cases taken with
  | publish hnone =>
    cases hsignal
    exact .inr ⟨rfl, rfl, rfl⟩
  | clear => cases hsignal
  | _ => exact .inl ⟨hsignal, by simp⟩

end

def Once (ch : Nat) (a : Nomination) : Prop :=
  a.closed ch = true ∨ ∃ request, a.handlers request = .loaded ch

def Doomed (ch : Nat) (a : Nomination) : Prop := (∃ request other, request ≠ other ∧ a.handlers
  request = .loaded ch ∧ a.handlers other = .loaded ch) ∨ (a.closed ch = true ∧ ∃ request,
  a.handlers request = .loaded ch)

theorem Once.step (once : Once ch a) (taken : Taken a event b) : Once ch b ∨ b.panicked = true := by
  rcases once with hclosed | ⟨request, hloaded⟩
  · exact .inl (.inl (closed_step taken hclosed))
  · rcases loaded_step taken hloaded with hkept | ⟨-, hdone⟩
    · exact .inl (.inr ⟨request, hkept⟩)
    · exact hdone.imp_left fun hboth => .inl hboth.2

theorem Doomed.step (doomed : Doomed ch a) (taken : Taken a event b) :
    Doomed ch b ∨ b.panicked = true := by
  rcases doomed with ⟨request, other, hne, hfirst, hsecond⟩ | ⟨hclosed, request, hloaded⟩
  · rcases loaded_step taken hfirst with hkept | ⟨hevent, hdone⟩
    · rcases loaded_step taken hsecond with hkeptOther | ⟨-, hdone⟩
      · exact .inl (.inl ⟨request, other, hne, hkept, hkeptOther⟩)
      · exact hdone.imp_left fun hboth => .inr ⟨hboth.2, request, hkept⟩
    · -- The first one closes the channel, and the second still holds it.
      rcases loaded_step taken hsecond with hkeptOther | ⟨hother, -⟩
      · exact hdone.imp_left fun hboth => .inr ⟨hboth.2, other, hkeptOther⟩
      · cases hevent.symm.trans hother
        exact absurd rfl hne
  · rcases loaded_step taken hloaded with hkept | ⟨-, hdone⟩
    · exact .inl (.inr ⟨closed_step taken hclosed, request, hkept⟩)
    · rcases hdone with ⟨hopen, -⟩ | hpanicked
      · cases hclosed.symm.trans hopen
      · exact .inr hpanicked

section

variable (taken : Taken a event b)
  (hload : ∀ request, event = .loadSignal request → a.sigNominated ≠ some ch)

include taken hload

theorem loaded_of_step (hloaded : b.handlers request = .loaded ch) :
    a.handlers request = .loaded ch := by
  rcases of_loaded_step taken hloaded with hloaded | ⟨hevent, hsignal⟩
  · exact hloaded
  · exact absurd hsignal (hload request hevent)

theorem Once.of_step (once : Once ch b) : Once ch a := by
  rcases once with hclosed | ⟨request, hloaded⟩
  · rcases of_closed_step taken hclosed with hclosed | ⟨request, -, hloaded, -⟩
    · exact .inl hclosed
    · exact .inr ⟨request, hloaded⟩
  · exact .inr ⟨request, loaded_of_step taken hload hloaded⟩

theorem Doomed.of_step (doomed : Doomed ch b) : Doomed ch a := by
  rcases doomed with ⟨request, other, hne, hfirst, hsecond⟩ | ⟨hclosed, request, hloaded⟩
  · exact .inl ⟨request, other, hne, loaded_of_step taken hload hfirst,
      loaded_of_step taken hload hsecond⟩
  · have hbefore := loaded_of_step taken hload hloaded
    rcases of_closed_step taken hclosed with hclosed | ⟨closer, -, hcloser, hfinished⟩
    · exact .inr ⟨hclosed, request, hbefore⟩
    · refine .inl ⟨request, closer, ?_, hbefore, hcloser⟩
      rintro rfl
      cases hfinished.symm.trans hloaded

end

theorem of_load (taken : Taken a (.loadSignal request) b) (hsignal : a.sigNominated = some ch) :
    a.handlers request = .flagged ∧ b = a.advance request (.loaded ch) := by
  cases taken with
  | loadNothing hphase hnone =>
    cases hsignal.symm.trans hnone
  | @loadSignal _ loading hphase hsome =>
    cases hsignal.symm.trans hsome
    exact ⟨hphase, rfl⟩

theorem once_of_load (taken : Taken a (.loadSignal request) b)
    (hsignal : a.sigNominated = some ch) : Once ch b := by
  obtain ⟨-, rfl⟩ := of_load taken hsignal
  exact .inr ⟨request, handlers_advance_self⟩

theorem doomed_of_load (taken : Taken a (.loadSignal request) b)
    (hsignal : a.sigNominated = some ch) (once : Once ch a) :
    Doomed ch b := by
  obtain ⟨hphase, rfl⟩ := of_load taken hsignal
  rcases once with hclosed | ⟨other, hloaded⟩
  · exact .inr ⟨hclosed, request, handlers_advance_self⟩
  · have hne : other ≠ request := by
      rintro rfl
      cases hphase.symm.trans hloaded
    exact .inl ⟨request, other, Ne.symm hne, handlers_advance_self,
      (handlers_advance_of_ne hne).trans hloaded⟩

theorem once_of_doomed_load (taken : Taken a (.loadSignal request) b)
    (doomed : Doomed ch b) : Once ch a := by
  have hbefore : ∀ other, other ≠ request →
      b.handlers other = .loaded ch → a.handlers other = .loaded ch := by
    intro other hne hloaded
    rcases of_loaded_step taken hloaded with hloaded | ⟨hevent, -⟩
    · exact hloaded
    · cases hevent
      exact absurd rfl hne
  rcases doomed with ⟨first, second, hne, hfirst, hsecond⟩ | ⟨hclosed, -⟩
  · by_cases hsame : first = request
    · subst hsame
      exact .inr ⟨second, hbefore second (Ne.symm hne) hsecond⟩
    · exact .inr ⟨first, hbefore first hsame hfirst⟩
  · rcases of_closed_step taken hclosed with hclosed | ⟨closer, hevent, -⟩
    · exact .inl hclosed
    · cases hevent

theorem exists_signal_of_call (taken : Taken a .call b) : ∃ ch, b.sigNominated = some ch := by
  cases taken with
  | publish hnone => exact ⟨_, rfl⟩
  | refuse hsignal => exact ⟨_, hsignal⟩

end

def isLoad : NominationEvent → Bool
  | .loadSignal _ => true
  | _ => false

def Settled (a : Nomination) : Prop := ∀ request ch, a.handlers request ≠ .loaded ch

/-- From a call that waits to the next clearing of the pointer, at most one
request loads the pointer. -/
def Uncrowded (events : List NominationEvent) : Prop := ∀ before during after, events = before ++
  .call :: (during ++ after) → .clear ∉ during → during.countP isLoad ≤ 1

section

variable {a b last : Nomination} {ch : Nat} {events : List NominationEvent}
  {event : NominationEvent}

theorem doomed_of_run (run : Run step (fun _ _ => True) a events b)
    (h : Doomed ch a ∨ a.panicked = true) :
    Doomed ch b ∨ b.panicked = true := by
  refine run.invariant (fun a => Doomed ch a ∨ a.panicked = true) h ?_
  intro state event after hstate _ hstep
  obtain ⟨hrunning, taken⟩ := taken_of_step hstep
  rcases hstate with doomed | hpanicked
  · exact doomed.step taken
  · cases hrunning.symm.trans hpanicked

theorem doomed_of_loads {during : List NominationEvent} (run : Run step (fun _ _ => True) a during
    b) (hsignal : a.sigNominated = some ch) (hclear : .clear ∉ during)
    (hloads : 2 ≤ during.countP isLoad ∨ Once ch a ∧ 1 ≤ during.countP isLoad) :
    Doomed ch b ∨ b.panicked = true := by
  induction during generalizing a with
  | nil =>
    rw [List.countP_nil] at hloads
    omega
  | cons event rest ih =>
    obtain ⟨middle, -, hstep, hrest⟩ := run.of_cons
    obtain ⟨-, taken⟩ := taken_of_step hstep
    rw [List.mem_cons, not_or] at hclear
    have hmiddle := signal_step taken hsignal (Ne.symm hclear.1)
    rw [List.countP_cons] at hloads
    by_cases hload : ∃ request, event = .loadSignal request
    · obtain ⟨request, rfl⟩ := hload
      have hone : isLoad (.loadSignal request) = true := rfl
      rw [if_pos hone] at hloads
      rcases hloads with htwo | ⟨once, -⟩
      · exact ih hrest hmiddle hclear.2 (.inr ⟨once_of_load taken hsignal, by omega⟩)
      · exact doomed_of_run hrest (.inl (doomed_of_load taken hsignal once))
    · have hnone : isLoad event = false := by
        cases event with
        | loadSignal request => exact absurd ⟨request, rfl⟩ hload
        | _ => rfl
      rw [if_neg (by simp [hnone]), Nat.add_zero] at hloads
      rcases hloads with htwo | ⟨once, hsome⟩
      · exact ih hrest hmiddle hclear.2 (.inl htwo)
      · rcases once.step taken with once | hpanicked
        · exact ih hrest hmiddle hclear.2 (.inr ⟨once, hsome⟩)
        · exact doomed_of_run hrest (.inr hpanicked)

theorem uncrowded_of_not_panicked (run : Run step (fun _ _ => True) start events last)
    (hsettled : last.Settled) (hpanicked : last.panicked = false) :
    Uncrowded events := by
  intro before during after hevents hclear
  by_contra hmany
  subst hevents
  obtain ⟨first, -, hfirst⟩ := run.split
  obtain ⟨called, -, hcall, hcalled⟩ := hfirst.of_cons
  obtain ⟨ch, hsignal⟩ := exists_signal_of_call (taken_of_step hcall).2
  obtain ⟨middle, hduring, hafter⟩ := hcalled.split
  have hdoomed := doomed_of_run hafter (doomed_of_loads hduring hsignal hclear
    (.inl (Nat.not_le.mp hmany)))
  rcases hdoomed with doomed | hcrashed
  · rcases doomed with ⟨request, -, -, hloaded, -⟩ | ⟨-, request, hloaded⟩
    · exact hsettled request ch hloaded
    · exact hsettled request ch hloaded
  · cases hpanicked.symm.trans hcrashed

structure Recorded (events : List NominationEvent) (a : Nomination) :
    Prop where
  fresh : ∀ ch, a.made ≤ ch → ¬ Once ch a
  current : ∀ ch, a.sigNominated = some ch → ch < a.made ∧ ∃ before during, events = before ++ .call
    :: during ∧ .clear ∉ during ∧ (Once ch a → 1 ≤ during.countP isLoad)
  doomed : ∀ ch, Doomed ch a → ¬ Uncrowded events
  panicked : a.panicked = true → ¬ Uncrowded events

theorem Uncrowded.of_append (uncrowded : Uncrowded (events ++ [event])) : Uncrowded events := by
  intro before during after hevents hclear
  refine uncrowded before during (after ++ [event]) ?_ hclear
  rw [hevents]
  simp

theorem of_panicked_step (taken : Taken a event b)
    (h : b.panicked = true) : a.panicked = true ∨ ∃ ch, Doomed ch a := by
  cases taken with
  | @closeAgain request ch hphase hclosed =>
    exact .inr ⟨ch, .inr ⟨hclosed, request, hphase⟩⟩
  | _ => exact .inl h

theorem Recorded.step (recorded : Recorded events a)
    (taken : Taken a event b) : Recorded (events ++ [event]) b where
  fresh := by
    intro ch hmade once
    have hbefore := Nat.le_trans (made_step taken) hmade
    refine recorded.fresh ch hbefore (once.of_step taken ?_)
    intro request hevent hsignal
    have hlt := (recorded.current ch hsignal).1
    omega
  current := by
    intro ch hsignal
    rcases of_signal_step taken hsignal with
      ⟨hbefore, hclear⟩ | ⟨rfl, rfl, hmade⟩
    · obtain ⟨hlt, before, during, rfl, hduring, hloads⟩ := recorded.current ch hbefore
      refine ⟨Nat.lt_of_lt_of_le hlt (made_step taken), before, during ++ [event], by simp, ?_, ?_⟩
      · rw [List.mem_append, not_or, List.mem_singleton]
        exact ⟨hduring, Ne.symm hclear⟩
      · intro once
        rw [List.countP_append, List.countP_singleton]
        by_cases hload : isLoad event = true
        · rw [if_pos hload]
          omega
        · rw [if_neg hload]
          refine hloads (once.of_step taken fun request hevent => ?_)
          rw [hevent] at hload
          exact absurd rfl hload
    · refine ⟨by omega, events, [], rfl, List.not_mem_nil, fun once => ?_⟩
      refine absurd (once.of_step taken ?_) (recorded.fresh a.made (Nat.le_refl _))
      intro request hevent
      cases hevent
  doomed := by
    intro ch doomed uncrowded
    by_cases hload : ∃ request, event = .loadSignal request ∧ a.sigNominated = some ch
    · obtain ⟨request, rfl, hsignal⟩ := hload
      obtain ⟨-, before, during, rfl, hduring, hloads⟩ := recorded.current ch hsignal
      have hone := hloads (once_of_doomed_load taken doomed)
      have hmany := uncrowded before (during ++ [.loadSignal request]) []
        (by simp) (by simpa using hduring)
      have hload : isLoad (.loadSignal request) = true := rfl
      rw [List.countP_append, List.countP_singleton, if_pos hload] at hmany
      omega
    · refine recorded.doomed ch (doomed.of_step taken ?_) uncrowded.of_append
      intro request hevent hsignal
      exact hload ⟨request, hevent, hsignal⟩
  panicked := by
    intro hpanicked uncrowded
    rcases of_panicked_step taken hpanicked with hbefore | ⟨ch, doomed⟩
    · exact recorded.panicked hbefore uncrowded.of_append
    · exact recorded.doomed ch doomed uncrowded.of_append

theorem recorded_of_run (run : Run step (fun _ _ => True) start events last) :
    Recorded events last := by
  induction run with
  | start =>
    have hnone : ∀ ch, ¬ Once ch start := by
      rintro ch (hclosed | ⟨request, hloaded⟩)
      · cases hclosed
      · cases hloaded
    refine ⟨fun ch _ => hnone ch, fun ch hsignal => ?_, ?_, fun h => ?_⟩
    · cases hsignal
    · rintro ch (⟨request, -, -, hloaded, -⟩ | ⟨-, request, hloaded⟩)
      · exact absurd (.inr ⟨request, hloaded⟩) (hnone ch)
      · exact absurd (.inr ⟨request, hloaded⟩) (hnone ch)
    · cases h
  | next before permitted hstep ih => exact ih.step (taken_of_step hstep).2

end

/-- No channel is closed twice just where no two requests load the pointer
during one wait. -/
theorem not_panicked_iff_uncrowded (events : List NominationEvent) (last : Nomination)
    (run : Run step (fun _ _ => True) start events last)
    (hcomplete : last.panicked = true ∨ last.Settled) :
    last.panicked = false ↔ Uncrowded events := by
  constructor
  · intro hpanicked
    rcases hcomplete with hcrashed | hsettled
    · cases hpanicked.symm.trans hcrashed
    · exact uncrowded_of_not_panicked run hsettled hpanicked
  · intro uncrowded
    by_contra hcrashed
    exact (recorded_of_run run).panicked ((Bool.not_eq_false _).mp hcrashed) uncrowded

/-- A second request comes after the first has closed the channel and before
the waiting call has cleared the pointer. -/
def duplicateRequest : List NominationEvent := [.call, .checkNominated, .setNominated 0, .loadSignal
  0, .closeChannel 0, .setNominated 1, .loadSignal 1, .closeChannel 1]

theorem exists_panicked : ∃ last, Run step (fun _ _ => True) start duplicateRequest last ∧
  last.panicked = true := Run.exists_of_exec _ _ _ _ _ (by decide +kernel)

/-- The second request comes after the call has returned. -/
def laterRequest : List NominationEvent := [.call, .checkNominated, .setNominated 0, .loadSignal 0,
  .closeChannel 0, .wake, .clear, .setNominated 1, .loadSignal 1]

variable {events : List NominationEvent}

theorem ready_of_run {last : Nomination}
    (run : Run step (fun _ _ => True) start events last) {request : Nat}
    (h : .setNominated request ∉ events) :
    last.handlers request = .ready := by
  induction run with
  | start => rfl
  | next before permitted hstep ih =>
    rw [List.mem_append, not_or, List.mem_singleton] at h
    have hready := ih h.1
    cases (taken_of_step hstep).2 with
    | @setNominated delivered hphase =>
      refine (handlers_advance_of_ne ?_).trans hready
      rintro rfl
      exact h.2 rfl
    | loadNothing hphase | loadSignal hphase | closeChannel hphase =>
      exact handlers_advance_kept hready (by simp [hphase])
    | _ => exact hready

theorem not_panicked_iff_uncrowded_laterRequest : ∃ last, Run step (fun _ _ => True) start
    laterRequest last ∧ last.panicked = false ∧ Uncrowded laterRequest := by
  refine Run.exists_of_exec_imp (fun last => last.panicked = false ∧ last.handlers 0 = .finished ∧
    last.handlers 1 = .finished) (by decide +kernel)
    fun last hrun ⟨hpanicked, hfirst, hsecond⟩ => ?_
  have hsettled : last.Settled := by
    intro request ch hloaded
    by_cases hmem : .setNominated request ∈ laterRequest
    · have hrequest : request = 0 ∨ request = 1 := by
        simpa [laterRequest] using hmem
      rcases hrequest with rfl | rfl
      · cases hfirst.symm.trans hloaded
      · cases hsecond.symm.trans hloaded
    · cases (ready_of_run hrun hmem).symm.trans hloaded
  exact ⟨hpanicked, (not_panicked_iff_uncrowded laterRequest last
    hrun (.inr hsettled)).mp hpanicked⟩

structure Attended (a : Nomination) : Prop where
  signal : ∀ ch, a.waiter = .published ch ∨ a.waiter = .waiting ch ∨
    a.waiter = .leaving ch → a.sigNominated = some ch
  closing : ∀ ch, a.waiter = .waiting ch → a.nominated = true →
    a.closed ch = true ∨ ∃ request, a.handlers request = .flagged ∨ a.handlers request = .loaded ch

def InFlight (a : Nomination) (request : Nat) : Prop :=
  a.handlers request = .flagged ∨ ∃ ch, a.handlers request = .loaded ch

theorem attended_start : Attended start where
  signal := by
    rintro ch (h | h | h) <;> cases h
  closing := by
    intro ch h
    cases h

section

variable {a b : Nomination} {event : NominationEvent} {ch : Nat}

theorem attended_leaving (hsignal : a.sigNominated = some ch) :
    Attended { a with waiter := .leaving ch } where
  signal := by
    rintro other (hother | hother | hother) <;> cases hother
    exact hsignal
  closing := by
    intro other hother
    cases hother

theorem Attended.step (attended : Attended a) (taken : Taken a event b) : Attended b := by
  cases taken with
  | @setNominated request hphase =>
    exact ⟨attended.signal,
      fun _ _ _ => .inr ⟨request, .inl handlers_advance_self⟩⟩
  | loadNothing hphase hnone =>
    refine ⟨attended.signal, fun ch hwaiter _ => ?_⟩
    have hsignal := attended.signal ch (.inr (.inl hwaiter))
    cases hnone.symm.trans hsignal
  | @loadSignal request loading hphase hsome =>
    refine ⟨attended.signal, fun ch hwaiter _ => ?_⟩
    have hsignal := attended.signal ch (.inr (.inl hwaiter))
    cases hsome.symm.trans hsignal
    exact .inr ⟨request, .inr handlers_advance_self⟩
  | @closeChannel closer closing hphase hopen =>
    refine ⟨attended.signal, fun ch hwaiter hnominated => ?_⟩
    have taken : Taken a (.closeChannel closer) _ := .closeChannel hphase hopen
    rcases attended.closing ch hwaiter hnominated with
      hclosed | ⟨request, hflagged | hloaded⟩
    · exact .inl (closed_step taken hclosed)
    · exact .inr ⟨request, .inl (handlers_advance_kept hflagged (by simp [hphase]))⟩
    · by_cases hsame : request = closer
      · subst hsame
        cases hphase.symm.trans hloaded
        exact .inl (Function.update_self ..)
      · exact .inr ⟨request, .inr ((handlers_advance_of_ne hsame).trans hloaded)⟩
  | closeAgain hphase hclosed => exact ⟨attended.signal, attended.closing⟩
  | publish hnone =>
    refine ⟨?_, ?_⟩
    · rintro ch (hwaiter | hwaiter | hwaiter) <;> cases hwaiter
      rfl
    · intro ch hwaiter
      cases hwaiter
  | refuse hsome => exact attended
  | sawNominated hwaiter hnominated =>
    exact attended_leaving (attended.signal _ (.inl hwaiter))
  | @sawNothing ch hwaiter hnominated =>
    have hsignal := attended.signal ch (.inl hwaiter)
    refine ⟨?_, ?_⟩
    · rintro other (hother | hother | hother) <;> cases hother
      exact hsignal
    · -- The flag is looked at after the channel is published.
      intro other _ hset
      cases hnominated.symm.trans hset
  | wake hwaiter hclosed | cancel hwaiter =>
    exact attended_leaving (attended.signal _ (.inr (.inl hwaiter)))
  | clear hwaiter =>
    refine ⟨?_, ?_⟩
    · rintro other (hother | hother | hother) <;> cases hother
    · intro other hother
      cases hother

end

theorem attended_of_run {last : Nomination}
    (run : Run step (fun _ _ => True) start events last) : Attended last :=
  run.invariant Attended attended_start fun _ _ _ attended _ hstep =>
    attended.step (taken_of_step hstep).2

/-- Once the flag is set and the requests that set it are done, no call is left
waiting for a channel that is open. -/
theorem closed_of_nominated (events : List NominationEvent) (last : Nomination)
    (run : Run step (fun _ _ => True) start events last) (hnominated : last.nominated = true)
    (hdone : ∀ request, ¬ last.InFlight request) (ch : Nat) (hwaiter : last.waiter = .waiting ch) :
    last.closed ch = true := by
  rcases (attended_of_run run).closing ch hwaiter hnominated with
    hclosed | ⟨request, hflagged | hloaded⟩
  · exact hclosed
  · exact absurd (.inl hflagged) (hdone request)
  · exact absurd (.inr ⟨ch, hloaded⟩) (hdone request)

def awaitedRequest : List NominationEvent :=
  [.call, .checkNominated, .setNominated 0, .loadSignal 0, .closeChannel 0]

theorem closed_of_nominated_awaitedRequest : ∃ last, Run step (fun _ _ => True) start awaitedRequest
    last ∧ last.waiter = .waiting 0 ∧ last.closed 0 = true := by
  refine Run.exists_of_exec_imp (fun last => last.nominated = true ∧ last.waiter = .waiting 0 ∧
    last.handlers 0 = .finished) (by decide +kernel)
    fun last hrun ⟨hnominated, hwaiter, hfinished⟩ => ?_
  have hdone : ∀ request, ¬ last.InFlight request := by
    intro request hflight
    have hphase : last.handlers request = .finished ∨ last.handlers request = .ready := by
      by_cases hmem : .setNominated request ∈ awaitedRequest
      · have hrequest : request = 0 := by
          simpa [awaitedRequest] using hmem
        exact .inl (hrequest ▸ hfinished)
      · exact .inr (ready_of_run hrun hmem)
    rcases hflight with hflagged | ⟨ch, hloaded⟩
    · simp [hflagged] at hphase
    · simp [hloaded] at hphase
  exact ⟨hwaiter, closed_of_nominated awaitedRequest last hrun hnominated hdone 0 hwaiter⟩

end Nomination

end Pig.Stun
