import Pig.Lib.Run
import Pig.Routing.Netlink

namespace Pig.Routing

/-! Waiting for the default gateways on a condition variable, beside the
goroutine that changes the tables and broadcasts each change. That goroutine
does not take the mutex of the condition variable. -/

def Table.gateway (t : Table) : Bytes :=
  match t.defaultRoute with
  | none => []
  | some route => route.gateway

namespace Tables

def getDefaultGateway4 (tables : Tables) : Bytes := tables.v4.gateway

def getDefaultGateway6 (tables : Tables) : Bytes := tables.v6.gateway

end Tables

inductive WaiterPhase where
  | idle
  | locking
  | checking
  | reading4
  | reading6
  | missing
  | parked
  | woken
  | unlocking
  | returned
  deriving DecidableEq, Repr

def WaiterPhase.holding : WaiterPhase → Bool
  | .checking => true
  | .reading4 => true
  | .reading6 => true
  | .missing => true
  | .unlocking => true
  | _ => false

structure Waiter where
  v4 : Bool
  v6 : Bool
  phase : WaiterPhase
  deriving DecidableEq, Repr

structure GatewayState where
  tables : Tables
  notifying : Bool
  mutex : Option Nat
  done : Bool
  waiters : Nat → Waiter

inductive GatewayEvent where
  | call (waiter : Nat) (v4 v6 : Bool)
  | lock (waiter : Nat)
  | check (waiter : Nat)
  | read4 (waiter : Nat)
  | read6 (waiter : Nat)
  | park (waiter : Nat)
  | unlock (waiter : Nat)
  | insert (family : Family) (rt : Route)
  | remove (family : Family) (rt : Route)
  | broadcast
  | cancel
  /-- The broadcast of Close, which has cancelled the context before. -/
  | closeBroadcast
  deriving DecidableEq, Repr

namespace GatewayState

def start (tables : Tables) : GatewayState where
  tables := tables
  notifying := false
  mutex := none
  done := false
  waiters := fun _ => ⟨false, false, .idle⟩

def phase (s : GatewayState) (waiter : Nat) : WaiterPhase := (s.waiters waiter).phase

def setPhase (s : GatewayState) (waiter : Nat) (phase : WaiterPhase) : GatewayState := { s with
    waiters := Function.update s.waiters waiter { s.waiters waiter with phase := phase } }

def wake (s : GatewayState) : GatewayState := { s with
    waiters := fun waiter =>
      if (s.waiters waiter).phase = .parked then
        { s.waiters waiter with phase := .woken }
      else s.waiters waiter }

def update (s : GatewayState) (family : Family)
    (change : Table → Go.Checked (Table × Bool)) : Option GatewayState :=
  if s.notifying then none
  else match s.tables.modify family change with
  | .ok tables => some { s with tables := tables, notifying := true }
  | .error _ => none

def step (s : GatewayState) : GatewayEvent → Option GatewayState
  | .call waiter v4 v6 =>
    if s.phase waiter = .idle then
      some { s with
        waiters := Function.update s.waiters waiter ⟨v4, v6, .locking⟩ }
    else none
  | .lock waiter =>
    if (s.phase waiter = .locking ∨ s.phase waiter = .woken) ∧ s.mutex = none then
      some { s.setPhase waiter .checking with mutex := some waiter }
    else none
  | .check waiter =>
    if s.phase waiter = .checking then
      -- The function returns here with the mutex locked.
      some (s.setPhase waiter (if s.done then .returned else .reading4))
    else none
  | .read4 waiter =>
    if s.phase waiter = .reading4 then
      some (s.setPhase waiter (if (s.waiters waiter).v4 ∧ s.tables.getDefaultGateway4 = [] then
          .missing else .reading6))
    else none
  | .read6 waiter =>
    if s.phase waiter = .reading6 then
      some (s.setPhase waiter (if (s.waiters waiter).v6 ∧ s.tables.getDefaultGateway6 = [] then
          .missing else .unlocking))
    else none
  | .park waiter =>
    if s.phase waiter = .missing then
      some { s.setPhase waiter .parked with mutex := none }
    else none
  | .unlock waiter =>
    if s.phase waiter = .unlocking then
      some { s.setPhase waiter .returned with mutex := none }
    else none
  | .insert family rt => s.update family (·.insert rt)
  | .remove family rt => s.update family (·.remove rt)
  | .broadcast =>
    if s.notifying then some { s.wake with notifying := false } else none
  | .cancel => some { s with done := true }
  | .closeBroadcast => if s.done then some s.wake else none

inductive Taken (s : GatewayState) : GatewayEvent → GatewayState → Prop
  | call {waiter : Nat} {v4 v6 : Bool} (hphase : s.phase waiter = .idle) :
      Taken s (.call waiter v4 v6) { s with
        waiters := Function.update s.waiters waiter ⟨v4, v6, .locking⟩ }
  | lock {waiter : Nat} (hphase : s.phase waiter = .locking ∨ s.phase waiter = .woken)
      (hfree : s.mutex = none) :
      Taken s (.lock waiter) { s.setPhase waiter .checking with mutex := some waiter }
  | leave {waiter : Nat} (hphase : s.phase waiter = .checking) (hdone : s.done = true) :
      Taken s (.check waiter) (s.setPhase waiter .returned)
  | proceed {waiter : Nat} {event : GatewayEvent} {phase : WaiterPhase}
      (hevent : event = .check waiter ∧ s.done = false ∨
        event = .read4 waiter ∨ event = .read6 waiter)
      (hphase : (s.phase waiter).holding = true)
      (hafter : phase.holding = true) :
      Taken s event (s.setPhase waiter phase)
  | park {waiter : Nat} (hphase : s.phase waiter = .missing) :
      Taken s (.park waiter) { s.setPhase waiter .parked with mutex := none }
  | unlock {waiter : Nat} (hphase : s.phase waiter = .unlocking) : Taken s (.unlock waiter)
        { s.setPhase waiter .returned with mutex := none }
  | update {event : GatewayEvent} {tables : Tables}
      (hevent : ∀ waiter, event ≠ .park waiter ∧ event ≠ .check waiter) :
      Taken s event { s with tables := tables, notifying := true }
  | wake {event : GatewayEvent} {notifying : Bool}
      (hevent : ∀ waiter, event ≠ .park waiter ∧ event ≠ .check waiter) :
      Taken s event { s.wake with notifying := notifying }
  | cancel : Taken s .cancel { s with done := true }

variable {event : GatewayEvent}

theorem taken_of_update {s after : GatewayState} {family : Family}
    {change : Table → Go.Checked (Table × Bool)} (hevent : ∀ waiter, event ≠ .park waiter ∧ event ≠
    .check waiter) (h : s.update family change = some after) : Taken s event after := by
  unfold GatewayState.update at h
  split at h
  · cases h
  · split at h
    · cases h
      exact .update hevent
    · cases h

theorem taken_of_step {s after : GatewayState}
    (h : s.step event = some after) : Taken s event after := by
  revert h
  fun_cases step s event <;> intro h <;> try cases h
  · exact .call ‹_›
  · next hphase => exact .lock hphase.1 hphase.2
  · next waiter hphase =>
    cases hdone : s.done with
    | true => exact .leave hphase hdone
    | false => exact .proceed (.inl ⟨rfl, hdone⟩) (by rw [hphase]; rfl) rfl
  · next hphase =>
    refine .proceed (.inr (.inl rfl)) (by rw [hphase]; rfl) ?_
    split <;> rfl
  · next hphase =>
    refine .proceed (.inr (.inr rfl)) (by rw [hphase]; rfl) ?_
    split <;> rfl
  · exact .park ‹_›
  · exact .unlock ‹_›
  · exact taken_of_update (by simp) h
  · exact taken_of_update (by simp) h
  · exact .wake (by simp)
  · exact .cancel
  · exact .wake (by simp)

variable (s : GatewayState)

@[simp] theorem phase_setPhase (waiter other : Nat) (phase : WaiterPhase) :
    (s.setPhase waiter phase).phase other =
      if other = waiter then phase else s.phase other := by
  simp only [GatewayState.phase, setPhase, Function.update_apply]
  split <;> rfl

@[simp] theorem mutex_setPhase (waiter : Nat) (phase : WaiterPhase) :
  (s.setPhase waiter phase).mutex = s.mutex := rfl

theorem phase_wake (waiter : Nat) : s.wake.phase waiter =
      if s.phase waiter = .parked then .woken else s.phase waiter := by
  exact apply_ite Waiter.phase _ _ _

def Served (s : GatewayState) (waiter : Nat) : Prop := ((s.waiters waiter).v4 →
  s.tables.getDefaultGateway4 ≠ []) ∧ ((s.waiters waiter).v6 → s.tables.getDefaultGateway6 ≠ [])

instance (s : GatewayState) (waiter : Nat) : Decidable (s.Served waiter) :=
  inferInstanceAs (Decidable (_ ∧ _))

@[simp] theorem served_setPhase (waiter other : Nat) (phase : WaiterPhase) :
    (s.setPhase waiter phase).Served other ↔ s.Served other := by
  by_cases heq : other = waiter
  · subst heq
    simp [Served, setPhase]
  · simp [Served, setPhase, Function.update_of_ne heq]

def NoneMissed (s : GatewayState) : Prop := ∀ waiter, s.phase waiter = .parked →
    ¬ (s.Served waiter ∧ s.notifying = false)

def Released (s : GatewayState) : Prop :=
  ∀ waiter, s.phase waiter = .returned → s.mutex ≠ some waiter

/-- Nobody parks whose gateways have come and been broadcast since they were
read, and nobody looks at the context when it is done. -/
def Orderly (s : GatewayState) : GatewayEvent → Prop
  | .park waiter => ¬ (s.Served waiter ∧ s.notifying = false)
  | .check _ => s.done = false
  | _ => True

instance (s : GatewayState) : (event : GatewayEvent) → Decidable (s.Orderly event)
  | .park waiter =>
    inferInstanceAs (Decidable (¬ (s.Served waiter ∧ s.notifying = false)))
  | .check _ => inferInstanceAs (Decidable (s.done = false))
  | .call .. | .lock _ | .read4 _ | .read6 _ | .unlock _ | .insert .. | .remove ..
  | .broadcast | .cancel | .closeBroadcast => .isTrue trivial

theorem orderly_of_ne {s : GatewayState}
    (hevent : ∀ waiter, event ≠ .park waiter ∧ event ≠ .check waiter) :
    s.Orderly event := by
  cases event with
  | park waiter => exact absurd rfl (hevent waiter).1
  | check waiter => exact absurd rfl (hevent waiter).2
  | _ => exact trivial

def Locked (s : GatewayState) : Prop :=
  ∀ waiter, (s.phase waiter).holding = true → s.mutex = some waiter

theorem locked_start (tables : Tables) : (start tables).Locked := by
  intro waiter hholding
  cases hholding

section

variable {s after : GatewayState}

theorem Locked.setPhase (locked : s.Locked) {waiter other : Nat} {phase : WaiterPhase}
    (hphase : (s.phase waiter).holding = true) (hafter : phase.holding = false) :
    ((s.setPhase waiter phase).phase other).holding = false := by
  rw [phase_setPhase]
  split
  · exact hafter
  · next hne =>
      by_contra hother
      have hother := locked other ((Bool.not_eq_false _).mp hother)
      rw [locked waiter hphase] at hother
      exact hne (Option.some.inj hother).symm

theorem Locked.step (locked : s.Locked) (taken : Taken s event after) : after.Locked := by
  intro other hholding
  cases taken with
  | @call waiter v4 v6 hphase =>
    refine locked other ?_
    by_cases heq : other = waiter
    · subst heq
      simp [GatewayState.phase, WaiterPhase.holding] at hholding
    · simpa [GatewayState.phase, Function.update_of_ne heq] using hholding
  | @lock waiter hphase hfree =>
    by_cases heq : other = waiter
    · rw [heq]
    · have hother : (s.phase other).holding = true := by
        change ((s.setPhase waiter .checking).phase other).holding = true at hholding
        simpa [heq] using hholding
      cases (locked other hother).symm.trans hfree
  | leave hphase | unlock hphase | park hphase =>
    have hfalse := hholding.symm.trans (locked.setPhase (by rw [hphase]; rfl) rfl)
    cases hfalse
  | @proceed waiter _ phase hevent hphase hafter =>
    rw [mutex_setPhase]
    rw [phase_setPhase] at hholding
    split at hholding
    · next heq => rw [heq, locked waiter hphase]
    · exact locked other hholding
  | update hevent | cancel => exact locked other hholding
  | wake hevent =>
    have hwake : (s.wake.phase other).holding = true := hholding
    rw [phase_wake] at hwake
    split at hwake
    · cases hwake
    · exact locked other hwake

def Owned (s : GatewayState) : Prop :=
  ∀ waiter, s.mutex = some waiter → (s.phase waiter).holding = true

theorem Owned.step (owned : s.Owned) (taken : Taken s event after)
    (orderly : s.Orderly event) : after.Owned := by
  intro other hmutex
  cases taken with
  | @call waiter v4 v6 hphase =>
    have hother := owned other hmutex
    have hne : other ≠ waiter := by
      rintro rfl
      rw [hphase] at hother
      cases hother
    simpa [GatewayState.phase, Function.update_of_ne hne] using hother
  | @lock waiter hphase hfree =>
    obtain rfl := Option.some.inj hmutex
    change ((s.setPhase waiter .checking).phase waiter).holding = true
    simp [WaiterPhase.holding]
  | leave hphase hdone =>
    cases hdone.symm.trans orderly
  | proceed hevent hphase hafter =>
    rw [phase_setPhase]
    split
    · exact hafter
    · exact owned other hmutex
  | park hphase | unlock hphase => cases hmutex
  | update hevent | cancel => exact owned other hmutex
  | wake hevent =>
    have hother := owned other hmutex
    change (s.wake.phase other).holding = true
    rw [phase_wake, if_neg]
    · exact hother
    · intro hparked
      rw [hparked] at hother
      cases hother

theorem Owned.released (owned : s.Owned) : s.Released := by
  intro waiter hreturned hmutex
  have hholding := owned waiter hmutex
  rw [hreturned] at hholding
  cases hholding

theorem NoneMissed.setPhase (noneMissed : s.NoneMissed) {waiter : Nat}
    {phase : WaiterPhase} (hphase : phase ≠ .parked) :
    (s.setPhase waiter phase).NoneMissed := by
  intro other hparked
  rw [phase_setPhase] at hparked
  split at hparked
  · exact absurd hparked hphase
  · rw [served_setPhase]
    exact noneMissed other hparked

theorem NoneMissed.step (noneMissed : s.NoneMissed)
    (taken : Taken s event after) (orderly : s.Orderly event) :
    after.NoneMissed := by
  cases taken with
  | @call waiter v4 v6 hphase =>
    intro other hparked
    by_cases heq : other = waiter
    · subst heq
      simp [GatewayState.phase] at hparked
    · have hother : s.phase other = .parked := by
        simpa [GatewayState.phase, Function.update_of_ne heq] using hparked
      simpa [Served, Function.update_of_ne heq] using noneMissed other hother
  | lock hphase hfree | leave hphase hdone | unlock hphase =>
    exact noneMissed.setPhase (by decide)
  | proceed hevent hphase hafter =>
    refine noneMissed.setPhase ?_
    rintro rfl
    cases hafter
  | @park waiter hphase =>
    intro other hparked
    change (s.setPhase waiter .parked).phase other = .parked at hparked
    change ¬ ((s.setPhase waiter .parked).Served other ∧ _)
    rw [served_setPhase]
    rw [phase_setPhase] at hparked
    split at hparked
    · next heq =>
        subst heq
        exact orderly
    · exact noneMissed other hparked
  | update hevent =>
    rintro other - ⟨-, hnotifying⟩
    cases hnotifying
  | wake hevent =>
    intro other hparked
    change s.wake.phase other = .parked at hparked
    rw [phase_wake] at hparked
    split at hparked
    · cases hparked
    · contradiction
  | cancel => exact noneMissed

theorem Locked.orderly (locked : s.Locked) (taken : Taken s event after)
    (noneMissed : after.NoneMissed) (released : after.Released) :
    s.Orderly event := by
  cases taken with
  | @leave waiter hphase hdone =>
    refine absurd ?_ (released waiter ?_)
    · exact locked waiter (by rw [hphase]; rfl)
    · exact (phase_setPhase ..).trans (if_pos rfl)
  | proceed hevent hphase hafter =>
    obtain ⟨rfl, hdone⟩ | rfl | rfl := hevent
    · exact hdone
    · exact trivial
    · exact trivial
  | @park waiter hphase =>
    rintro ⟨hserved, hnotifying⟩
    refine noneMissed waiter ?_ ⟨?_, hnotifying⟩
    · exact (phase_setPhase ..).trans (if_pos rfl)
    · exact (served_setPhase ..).mpr hserved
  | call hphase | lock hphase hfree | unlock hphase | cancel => exact trivial
  | update hevent | wake hevent => exact orderly_of_ne hevent

end

section

variable {tables : Tables} {events : List GatewayEvent} {last : GatewayState}

theorem locked_of_run {allowed : GatewayState → GatewayEvent → Prop}
    (run : Run step allowed (start tables) events last) : last.Locked :=
  run.invariant Locked (locked_start tables)
    fun _ _ _ locked _ taken => locked.step (taken_of_step taken)

theorem noneMissed_of_orderly (run : Run step Orderly (start tables) events last) :
    last.NoneMissed ∧ last.Released := by
  have hboth : last.NoneMissed ∧ last.Owned := by
    refine run.invariant (fun s => s.NoneMissed ∧ s.Owned) ⟨?_, ?_⟩ ?_
    · intro waiter hparked
      cases hparked
    · intro waiter hmutex
      cases hmutex
    · rintro s event after ⟨noneMissed, owned⟩ orderly htaken
      have taken := taken_of_step htaken
      exact ⟨noneMissed.step taken orderly, owned.step taken orderly⟩
  exact ⟨hboth.1, hboth.2.released⟩

/-- In all the states of a run nobody is parked whose gateways have come and
been broadcast, and nobody has returned with the mutex locked, exactly if nobody
parked at such a moment, and nobody looked at the context when it was done. -/
theorem neverMissed_iff_orderly (run : Run step (fun _ _ => True) (start tables) events last) :
    (∀ middle, Run.Through step (fun _ _ => True) (start tables) events last middle →
      middle.NoneMissed ∧ middle.Released) ↔ Run step Orderly (start tables) events last := by
  constructor
  · intro hall
    induction run with
    | start => exact .start _
    | next before permitted htaken ih =>
      have hbefore := ih fun middle through =>
        hall middle (through.next permitted htaken)
      obtain ⟨noneMissed, released⟩ := hall _ (.ofRun (.next before permitted htaken))
      exact .next hbefore ((locked_of_run before).orderly
        (taken_of_step htaken) noneMissed released) htaken
  · rintro orderly middle ⟨front, back, rfl, hfront, -⟩
    obtain ⟨visited, hvisited, -⟩ := orderly.split
    obtain rfl := hfront.unique hvisited
    exact noneMissed_of_orderly hvisited

end

def defaultGateway : Route := ⟨⟨[0, 0, 0, 0], [0, 0, 0, 0]⟩, [192, 0, 2, 1], "eth0", []⟩

theorem neverMissed_iff_orderly_woken : ∃ last, last.phase 0 = .returned ∧ ∀ middle, Run.Through
      step (fun _ _ => True) (start Tables.new) [.call 0 true false, .lock 0, .check 0, .read4 0,
      .park 0, .insert .inet defaultGateway, .broadcast, .lock 0, .check 0, .read4 0, .read6 0,
      .unlock 0] last middle → middle.NoneMissed ∧ middle.Released := by
  obtain ⟨last, run, hreturned⟩ := Run.exists_of_exec step Orderly (start Tables.new)
    [.call 0 true false, .lock 0, .check 0, .read4 0, .park 0, .insert .inet defaultGateway,
    .broadcast, .lock 0, .check 0, .read4 0, .read6 0, .unlock 0] (fun last => last.phase 0 =
    .returned) (by decide +kernel)
  exact ⟨last, hreturned, (neverMissed_iff_orderly (run.weaken fun _ _ _ => trivial)).mpr run⟩

/-- The gateway comes and is broadcast between the read of the table and the
wait; or the context is done when the waiter looks at it. -/
theorem exists_missed : (∃ last, Run step (fun _ _ => True) (start Tables.new)
  [.call 0 true false, .lock 0, .check 0, .read4 0, .insert .inet defaultGateway, .broadcast, .park
  0] last ∧ last.phase 0 = .parked ∧ last.Served 0 ∧ last.notifying = false) ∧ ∃ last, Run step
  (fun _ _ => True) (start Tables.new) [.call 0 true false, .cancel, .lock 0, .check 0] last ∧
  last.phase 0 = .returned ∧ last.mutex = some 0 := ⟨Run.exists_of_exec _ _ _ _ _
  (by decide +kernel), Run.exists_of_exec _ _ _ _ _ (by decide +kernel)⟩

end GatewayState

end Pig.Routing
