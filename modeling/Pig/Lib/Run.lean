import Mathlib.Data.List.Basic

namespace Pig

section

variable {State Event : Type} {step : State → Event → Option State} {allowed : State → Event → Prop}
  {first middle last : State} {events : List Event}

inductive Run (step : State → Event → Option State)
    (allowed : State → Event → Prop) : State → List Event → State → Prop
  | start (state : State) : Run step allowed state [] state
  | next {first middle last : State} {events : List Event} {event : Event}
      (before : Run step allowed first events middle)
      (permitted : allowed middle event)
      (taken : step middle event = some last) :
      Run step allowed first (events ++ [event]) last

namespace Run

theorem invariant (run : Run step allowed first events last) (property : State → Prop)
    (hfirst : property first) (hstep : ∀ state event after, property state → allowed state event →
    step state event = some after → property after) :
    property last := by
  induction run with
  | start => exact hfirst
  | next _ permitted taken ih => exact hstep _ _ _ ih permitted taken

variable {permissive : State → Event → Prop}

theorem change (run : Run step allowed first events last)
    (himp : ∀ state event after, step state event = some after →
      allowed state event → permissive state event) :
    Run step permissive first events last := by
  induction run with
  | start => exact .start _
  | next _ permitted taken ih =>
    exact .next ih (himp _ _ _ taken permitted) taken

theorem weaken (run : Run step allowed first events last)
    (himp : ∀ state event, allowed state event → permissive state event) :
    Run step permissive first events last :=
  run.change fun state event _ _ => himp state event

variable {event : Event}

theorem one (permitted : allowed first event) (taken : step first event = some last) :
    Run step allowed first [event] last :=
  .next (.start first) permitted taken

theorem append {later : List Event} (before : Run step allowed first events middle)
    (after : Run step allowed middle later last) :
    Run step allowed first (events ++ later) last := by
  induction after with
  | start => simpa using before
  | next _ permitted taken ih =>
    rw [← List.append_assoc]
    exact .next ih permitted taken

theorem eq_of_nil (run : Run step allowed first [] last) : last = first := by
  generalize hevents : ([] : List Event) = events at run
  cases run with
  | start => rfl
  | next before permitted taken => simp at hevents

theorem of_singleton (run : Run step allowed first [event] last) :
    allowed first event ∧ step first event = some last := by
  generalize hevents : [event] = events at run
  cases run with
  | start => simp at hevents
  | @next middle _ earlier latest before permitted taken =>
    have hevents : [] ++ [event] = earlier ++ [latest] := hevents
    obtain ⟨rfl, hlast⟩ := List.append_inj' hevents rfl
    cases hlast
    cases before.eq_of_nil
    exact ⟨permitted, taken⟩

theorem split {front back : List Event} (run : Run step allowed first (front ++ back) last) :
    ∃ middle, Run step allowed first front middle ∧ Run step allowed middle back last := by
  generalize hevents : front ++ back = events at run
  induction run generalizing back with
  | start =>
    obtain ⟨rfl, rfl⟩ := List.append_eq_nil_iff.mp hevents
    exact ⟨_, .start _, .start _⟩
  | @next middle last earlier latest before permitted taken ih =>
    rcases List.eq_nil_or_concat' back with rfl | ⟨back, event, rfl⟩
    · rw [List.append_nil] at hevents
      subst hevents
      exact ⟨_, .next before permitted taken, .start _⟩
    · rw [← List.append_assoc] at hevents
      obtain ⟨hearlier, hlatest⟩ := List.append_inj' hevents rfl
      cases hlatest
      obtain ⟨between, hfront, hback⟩ := ih hearlier
      exact ⟨between, hfront, .next hback permitted taken⟩

theorem of_cons {rest : List Event} (run : Run step allowed first (event :: rest) last) :
    ∃ middle, allowed first event ∧ step first event = some middle ∧
      Run step allowed middle rest last := by
  have run : Run step allowed first ([event] ++ rest) last := run
  obtain ⟨middle, hone, hrest⟩ := run.split
  exact ⟨middle, hone.of_singleton.1, hone.of_singleton.2, hrest⟩

theorem unique {other : State} (run : Run step allowed first events last)
    (same : Run step permissive first events other) : last = other := by
  induction run generalizing other with
  | start => exact same.eq_of_nil.symm
  | next _ _ taken ih =>
    obtain ⟨middle, hbefore, hlast⟩ := same.split
    obtain rfl := ih hbefore
    exact Option.some.inj (taken.symm.trans hlast.of_singleton.2)

theorem both (run : Run step allowed first events last)
    (same : Run step permissive first events last) :
    Run step (fun state event => allowed state event ∧ permissive state event)
      first events last := by
  induction run with
  | start => exact .start _
  | next before permitted taken ih =>
    obtain ⟨middle, hbefore, hlast⟩ := same.split
    obtain rfl := before.unique hbefore
    exact .next (ih hbefore) ⟨permitted, hlast.of_singleton.1⟩ taken

def OccursAfter (property : List Event → Prop) (event : Event) (events : List Event) : Prop :=
  ∃ before after, events = before ++ event :: after ∧ property before

variable {property : List Event → Prop}

theorem not_occursAfter_nil :
    ¬ OccursAfter property event [] := by
  rintro ⟨before, after, hevents, -⟩
  simp at hevents

theorem occursAfter_append_singleton {latest : Event} :
    OccursAfter property event (events ++ [latest]) ↔ OccursAfter property event events ∨
        latest = event ∧ property events := by
  constructor
  · rintro ⟨before, after, hevents, hbefore⟩
    rcases List.eq_nil_or_concat' after with rfl | ⟨after, other, rfl⟩
    · obtain ⟨rfl, hlatest⟩ := List.append_inj' hevents rfl
      cases hlatest
      exact .inr ⟨rfl, hbefore⟩
    · rw [← List.cons_append, ← List.append_assoc] at hevents
      obtain ⟨rfl, -⟩ := List.append_inj' hevents rfl
      exact .inl ⟨before, after, rfl, hbefore⟩
  · rintro (⟨before, after, rfl, hbefore⟩ | ⟨rfl, hevents⟩)
    · exact ⟨before, after ++ [latest], by simp, hbefore⟩
    · exact ⟨events, [], rfl, hevents⟩

def Through (step : State → Event → Option State) (allowed : State → Event → Prop) (first : State)
  (events : List Event) (last middle : State) : Prop := ∃ front back, events = front ++ back ∧ Run
  step allowed first front middle ∧ Run step allowed middle back last

theorem Through.next {visited : State} (through : Through step allowed first events
    middle visited) (permitted : allowed middle event) (taken : step middle event = some last) :
    Through step allowed first (events ++ [event]) last visited := by
  obtain ⟨front, back, rfl, before, after⟩ := through
  exact ⟨front, back ++ [event], by rw [List.append_assoc], before, .next after permitted taken⟩

theorem Through.ofRun (run : Run step allowed first events last) :
    Through step allowed first events last last :=
  ⟨events, [], by rw [List.append_nil], run, .start last⟩

def exec (step : State → Event → Option State) (allowed : State → Event → Prop)
    [∀ state event, Decidable (allowed state event)] :
    State → List Event → Option State
  | state, [] => some state
  | state, event :: rest =>
    if allowed state event then
      (step state event).bind fun after => exec step allowed after rest
    else none

theorem of_exec [∀ state event, Decidable (allowed state event)]
    (hexec : exec step allowed first events = some last) :
    Run step allowed first events last := by
  induction events generalizing first with
  | nil =>
    cases hexec
    exact .start _
  | cons event rest ih =>
    unfold exec at hexec
    split at hexec
    · rename_i permitted
      obtain ⟨after, taken, hrest⟩ := Option.bind_eq_some_iff.mp hexec
      exact (one permitted taken).append (ih hrest)
    · simp at hexec

theorem exists_of_exec (step : State → Event → Option State) (allowed : State → Event → Prop)
    [∀ state event, Decidable (allowed state event)] (first : State)
    (events : List Event) (property : State → Prop) [DecidablePred property]
    (hexec : (exec step allowed first events).any (property ·) = true) :
    ∃ last, Run step allowed first events last ∧ property last := by
  obtain ⟨last, hlast, hproperty⟩ := (Option.any_eq_true _ _).mp hexec
  exact ⟨last, of_exec hlast, of_decide_eq_true hproperty⟩

/-- What the execution shows of its last state, together with the run, gives
what is wanted of that state. -/
theorem exists_of_exec_imp {step : State → Event → Option State} {allowed : State → Event → Prop}
    [∀ state event, Decidable (allowed state event)] {first : State} {events : List Event}
    {wanted : State → Prop} (property : State → Prop) [DecidablePred property]
    (hexec : (exec step allowed first events).any (property ·) = true)
    (himp : ∀ last, Run step allowed first events last → property last → wanted last) :
    ∃ last, Run step allowed first events last ∧ wanted last := by
  obtain ⟨last, run, hproperty⟩ := exists_of_exec step allowed first events property hexec
  exact ⟨last, run, himp last run hproperty⟩

end Run

end

end Pig
