import Pig.Clients.Regular
import Pig.Lib.Run

namespace Pig.Clients

open Go

/-! Clients that come and go at the same time, in every order of their steps.
The entry of a client in the map is at the mercy of every client that was given
the same address before it: an address goes back to the pool before the entry
under it is deleted. -/

def ClientTunnel.addresses (tunnel : ClientTunnel) : List Bytes := tunnel.sourceIP ::
    if tunnel.sourceIP6 = [] then [] else [tunnel.sourceIP6]

namespace Phase

def published : Phase → List Bytes
  | .storing tunnel => [tunnel.sourceIP]
  | .running tunnel => tunnel.addresses
  | .connecting | .refused | .allocated _ | .starting _ | .closing _
  | .releasing _ | .released _ | .deleting _ | .closed => []

def touched : Phase → Option Bytes
  | .starting tunnel | .released tunnel => some (text tunnel.sourceIP)
  | .storing tunnel =>
    if tunnel.sourceIP6 = [] then none else some (text tunnel.sourceIP6)
  | .deleting tunnel => some (text tunnel.sourceIP6)
  | .connecting | .refused | .allocated _ | .running _ | .closing _
  | .releasing _ | .closed => none

def deletes : Phase → Bool
  | .released _ | .deleting _ => true
  | .connecting | .refused | .allocated _ | .starting _ | .storing _
  | .running _ | .closing _ | .releasing _ | .closed => false

end Phase

namespace State

variable {adapter : Adapter} {s next : State} {id : ClientId}

def step (s : State) (id : ClientId) : Option State := (s.advance id).toOption

/-- A running client is found under its addresses, which are its own. -/
structure Consistent (s : State) : Prop where
  routed : ∀ id tunnel, s.tunnels id = .running tunnel →
    ∀ ip ∈ tunnel.addresses, s.server.clients (text ip) = some id
  exclusive : ∀ first second tunnel other, s.tunnels first = .running tunnel → s.tunnels second =
    .running other → ∀ ip ∈ tunnel.addresses, ip ∈ other.addresses → first = second

/-- Every entry stored by a client that has not begun to close is there. -/
def Intact (s : State) : Prop := ∀ id, ∀ ip ∈ (s.tunnels id).published,
    s.server.clients (text ip) = some id

/-- The next step of the client leaves the entries of the others alone. -/
def Spares (s : State) (id : ClientId) : Prop :=
  ∀ other, other ≠ id → ∀ ip ∈ (s.tunnels other).published, (s.tunnels id).touched ≠ some (text ip)

theorem Intact.consistent (intact : s.Intact) : s.Consistent where
  routed id tunnel hphase ip hip := intact id ip (by rw [hphase]; exact hip)
  exclusive first second tunnel other hfirst hsecond ip hip hother := by
    have hone := intact first ip (by rw [hfirst]; exact hip)
    have htwo := intact second ip (by rw [hsecond]; exact hother)
    exact Option.some.inj (hone.symm.trans htwo)

theorem step_of_some (hstep : s.step id = some next) : s.Step id next := by
  unfold step at hstep
  cases hadvance : s.advance id with
  | error fault => simp [hadvance, Except.toOption] at hstep
  | ok after =>
    rw [hadvance] at hstep
    obtain rfl := Option.some.inj hstep
    exact step_of_advance hadvance

section

variable (step : s.Step id next)

include step

theorem Step.frame {other : ClientId}
    (hne : other ≠ id) : next.tunnels other = s.tunnels other := by
  cases step with
  | stay => rfl
  | _ => exact tunnels_enter_of_ne s hne _ _

theorem Step.clients_of_untouched {entry : Bytes} (hentry : (s.tunnels id).touched ≠ some entry) :
    next.server.clients entry = s.server.clients entry := by
  cases step with
  | store hphase | delete hphase | delete6 hphase =>
    rw [hphase] at hentry
    exact Function.update_of_ne (fun h => hentry (by rw [h]; rfl)) ..
  | store6 hphase hip6 =>
    rw [hphase, Phase.touched, if_neg hip6] at hentry
    exact Function.update_of_ne (fun h => hentry (by rw [h])) ..
  | _ => rfl

theorem Step.clients_of_touched {entry : Bytes} (hentry : (s.tunnels id).touched = some entry) :
    next.server.clients entry = some id ∨
      next.server.clients entry = none := by
  cases step with
  | store hphase =>
    rw [hphase] at hentry
    obtain rfl := Option.some.inj hentry
    exact .inl (Function.update_self ..)
  | store6 hphase hip6 =>
    rw [hphase, Phase.touched, if_neg hip6] at hentry
    obtain rfl := Option.some.inj hentry
    exact .inl (Function.update_self ..)
  | delete hphase | delete6 hphase =>
    rw [hphase] at hentry
    obtain rfl := Option.some.inj hentry
    exact .inr (Function.update_self ..)
  | run hphase hip6 => simp [hphase, Phase.touched, hip6] at hentry
  | stay hphase =>
    obtain hphase | hphase := hphase <;> simp [hphase, Phase.touched] at hentry
  | allocate hphase | refuse hphase | allocate6 hphase | without6 hphase
  | close hphase | release hphase | release6 hphase =>
    simp [hphase, Phase.touched] at hentry

theorem Step.own_published (intact : s.Intact) :
    ∀ ip ∈ (next.tunnels id).published,
      next.server.clients (text ip) = some id := by
  have hbefore := intact id
  cases step with
  | @store tunnel hphase =>
    rw [tunnels_enter]
    intro ip hip
    obtain rfl := List.mem_singleton.1 hip
    exact Function.update_self ..
  | @store6 tunnel hphase hip6 =>
    rw [hphase] at hbefore
    have hstored := hbefore tunnel.sourceIP (List.mem_singleton.2 rfl)
    rw [tunnels_enter, Phase.published, ClientTunnel.addresses, if_neg hip6]
    intro ip hip
    change Function.update s.server.clients (text tunnel.sourceIP6) (some id) (text ip) = some id
    by_cases heq : text ip = text tunnel.sourceIP6
    · rw [heq, Function.update_self]
    · rw [Function.update_of_ne heq]
      obtain rfl | hip := List.mem_cons.1 hip
      · exact hstored
      · exact absurd (by rw [List.mem_singleton.1 hip]) heq
  | run hphase hip6 =>
    rw [hphase] at hbefore
    rw [tunnels_enter, Phase.published, ClientTunnel.addresses, if_pos hip6]
    exact hbefore
  | stay => exact hbefore
  | _ =>
    rw [tunnels_enter]
    exact fun ip hip => absurd hip List.not_mem_nil

theorem Step.intact_iff (intact : s.Intact) :
    next.Intact ↔ s.Spares id := by
  constructor
  · intro after other hne ip hip htouched
    have hkept := after other ip (by rwa [step.frame hne])
    obtain hown | hnone := step.clients_of_touched htouched
    · exact hne (Option.some.inj (hkept.symm.trans hown))
    · cases hnone.symm.trans hkept
  · intro spares other
    by_cases heq : other = id
    · subst heq
      exact step.own_published intact
    · rw [step.frame heq]
      intro ip hip
      rw [step.clients_of_untouched (spares other heq ip hip)]
      exact intact other ip hip

end

theorem intact_newState (adapter : Adapter) : (newState adapter).Intact :=
  fun _ _ hip => absurd hip List.not_mem_nil

variable {schedule : List ClientId} {last : State}

theorem intact_of_run (run : Run step Spares (newState adapter) schedule last) :
    last.Intact :=
  run.invariant Intact (intact_newState adapter)
    fun _ _ _ intact spares hstep =>
      ((step_of_some hstep).intact_iff intact).2 spares

/-! With both pools and full addresses, no two clients hold one address, so
that only a deletion can hit the entry of another client. -/

structure Sorted (adapter : Adapter) (s : State) : Prop where
  regular : s.Regular
  accounts : s.Accounts adapter
  pool : s.server.ipPool.isSome
  pool6 : s.server.ipPool6.isSome

theorem sorted_newState (hadapter : adapter.Regular)
    (hnet : adapter.ipNet.isSome) (hnet6 : adapter.ipNet6.isSome) :
    (newState adapter).Sorted adapter where
  regular := regular_newState hadapter
  accounts := accounts_newState adapter
  pool := by simpa [newState, buildIPPool] using hnet
  pool6 := by simpa [newState, buildIPPool] using hnet6

theorem Sorted.step (sorted : s.Sorted adapter) (hadapter : adapter.Regular)
    (hstep : s.Step id next) : next.Sorted adapter where
  regular := regular_step sorted.regular hstep
  accounts := accounts_step sorted.accounts
    (sorted.regular.returns sorted.accounts hadapter id) hstep
  pool := hstep.ipPool_isSome.trans sorted.pool
  pool6 := hstep.ipPool6_isSome.trans sorted.pool6

def Owns (s : State) (id : ClientId) (ip : Bytes) : Prop := (Full ip ∧ (s.tunnels id).held = some
  (markOf ip)) ∨ (Full6 ip ∧ (s.tunnels id).held6 = some (markOf ip))

theorem Sorted.eq_of_owns (sorted : s.Sorted adapter) {first second : ClientId} {ip other : Bytes}
    (hfirst : s.Owns first ip) (hsecond : s.Owns second other)
    (htext : text ip = text other) : first = second := by
  obtain ⟨pool, hpool⟩ := Option.isSome_iff_exists.1 sorted.pool
  obtain ⟨pool6, hpool6⟩ := Option.isSome_iff_exists.1 sorted.pool6
  obtain ⟨hfull, hheld⟩ | ⟨hfull, hheld⟩ := hfirst <;>
    obtain ⟨hfull', hheld'⟩ | ⟨hfull', hheld'⟩ := hsecond
  all_goals
    rw [hfull.text, hfull'.text] at htext
    subst htext
  · exact (sorted.accounts.pool pool hpool).unique _ _ _ hheld hheld'
  · have hlength : ip.length = 4 := hfull
    cases hfull'.1.symm.trans hlength
  · have hlength : ip.length = 4 := hfull'
    cases hfull.1.symm.trans hlength
  · exact (sorted.accounts.pool6 pool6 hpool6).unique _ _ _ hheld hheld'

theorem Regular.owns_of_published (regular : s.Regular) {ip : Bytes}
    (hip : ip ∈ (s.tunnels id).published) : s.Owns id ip := by
  have hfits := regular.fits id
  unfold Owns
  cases hphase : s.tunnels id with
  | storing tunnel =>
    rw [hphase] at hip hfits
    obtain rfl := List.mem_singleton.1 hip
    exact .inl ⟨hfits.1, rfl⟩
  | running tunnel =>
    rw [hphase] at hip hfits
    obtain rfl | hip := List.mem_cons.1 hip
    · exact .inl ⟨hfits.1, rfl⟩
    · split at hip
      case isTrue => cases hip
      case isFalse hip6 =>
        obtain rfl := List.mem_singleton.1 hip
        exact .inr ⟨hfits.2.resolve_left hip6, if_neg hip6⟩
  | _ =>
    rw [hphase] at hip
    cases hip

theorem spares_of_run (hadapter : adapter.Regular)
    (hnet : adapter.ipNet.isSome) (hnet6 : adapter.ipNet6.isSome) (run : Run step (fun _ _ => True)
    (newState adapter) schedule last) (hdeletes : (last.tunnels id).deletes = false) : last.Spares
    id := by
  have sorted : last.Sorted adapter := run.invariant (Sorted adapter)
    (sorted_newState hadapter hnet hnet6) fun _ _ _ sorted _ hstep =>
      sorted.step hadapter (step_of_some hstep)
  have hfits := sorted.regular.fits id
  intro other hne ip hip htouched
  have howns := sorted.regular.owns_of_published hip
  cases hphase : last.tunnels id with
  | starting tunnel =>
    rw [hphase] at htouched hfits
    refine hne (sorted.eq_of_owns howns (.inl ⟨hfits.1, ?_⟩) (Option.some.inj htouched).symm)
    rw [hphase]
    rfl
  | storing tunnel =>
    rw [hphase] at htouched hfits
    simp only [Phase.touched] at htouched
    split at htouched
    case isTrue => cases htouched
    case isFalse hip6 =>
      refine hne (sorted.eq_of_owns howns (.inr ⟨hfits.2.resolve_left hip6, ?_⟩)
        (Option.some.inj htouched).symm)
      rw [hphase]
      exact if_neg hip6
  | released tunnel | deleting tunnel =>
    rw [hphase] at hdeletes
    cases hdeletes
  | _ =>
    rw [hphase] at htouched
    cases htouched

theorem sparing_of_run (hadapter : adapter.Regular)
    (hnet : adapter.ipNet.isSome) (hnet6 : adapter.ipNet6.isSome) (run : Run step
    (fun s id => (s.tunnels id).deletes = false) (newState adapter) schedule last) :
    Run step Spares (newState adapter) schedule last := by
  induction run with
  | start => exact .start _
  | @next middle last events id before hdeletes taken ih =>
    have hany : Run step (fun _ _ => True) _ events middle := before.weaken fun _ _ _ => trivial
    exact .next ih (spares_of_run hadapter hnet hnet6 hany hdeletes) taken

end State

open State

/-- In every order of steps that spare the entries of other clients, a running
client is found under its addresses and is the only one to hold them; and it is
exactly these steps that leave all stored entries in place. -/
theorem consistent_of_sparing_run (adapter : Adapter) {schedule : List ClientId} {last : State}
    (run : Run step Spares (newState adapter) schedule last) :
    last.Consistent ∧ ∀ id next, last.step id = some next → (next.Intact ↔ last.Spares id) :=
  ⟨(intact_of_run run).consistent, fun _ _ hstep =>
    (step_of_some hstep).intact_iff (intact_of_run run)⟩

def firstTunnel : ClientTunnel where
  sourceIP := [10, 8, 0, 2]
  sourceIP6 := 0xfd :: List.replicate 14 0 ++ [2]

theorem consistent_of_sparing_run_dualStack :
    ∃ last, Run step Spares (newState dualStack) [0, 1, 0, 1, 0, 0, 1, 1] last ∧ last.tunnels 1 =
      .running ⟨[10, 8, 0, 3], []⟩ ∧ last.tunnels 0 = .running firstTunnel ∧ last.Consistent := by
  obtain ⟨last, run, hphase⟩ := Run.exists_of_exec step (fun s id => (s.tunnels id).deletes = false)
    (newState dualStack) [0, 1, 0, 1, 0, 0, 1, 1] (fun last => last.tunnels 1 = .running
    ⟨[10, 8, 0, 3], []⟩ ∧ last.tunnels 0 = .running firstTunnel) (by decide +kernel)
  have sparing := sparing_of_run regular_dualStack rfl rfl run
  exact ⟨last, sparing, hphase.1, hphase.2, (consistent_of_sparing_run dualStack sparing).1⟩

/-- A client is given the addresses that another one has just released, and
loses its entry to the deletion that still follows. -/
theorem exists_not_consistent : ∃ schedule last, Run step (fun _ _ => True) (newState dualStack)
      schedule last ∧ ¬ last.Consistent := by
  obtain ⟨last, run, hphase, hlost⟩ := Run.exists_of_exec step (fun _ _ => True)
    (newState dualStack) [0, 0, 0, 0, 0, 0, 0, 1, 1, 1, 1, 0] (fun last => last.tunnels 1 = .running
    firstTunnel ∧ last.server.clients (text firstTunnel.sourceIP) = none) (by decide +kernel)
  refine ⟨_, last, run, fun consistent => ?_⟩
  have hfound := consistent.routed 1 firstTunnel hphase firstTunnel.sourceIP (List.mem_cons_self ..)
  cases hlost.symm.trans hfound

end Pig.Clients
