import Pig.Clients.Model
import Pig.Lib.Ledger

namespace Pig.Clients

/-! The marks in a pool are those of the addresses held, whatever the order of
the steps, as long as an address goes back under the key it was marked
under. -/

def markOf (ip : Bytes) : UInt128 := key ip.toNatBE

theorem markOf_bigBytes (addr : Nat) : markOf (bigBytes addr) = key addr := by
  rw [markOf, toNatBE_bigBytes]

namespace Phase

def held : Phase → Option UInt128
  | .allocated ip => some (markOf ip)
  | .starting tunnel | .storing tunnel | .running tunnel
  | .closing tunnel => some (markOf tunnel.sourceIP)
  | .connecting | .refused | .releasing _ | .released _ | .deleting _
  | .closed => none

def held6 : Phase → Option UInt128
  | .starting tunnel | .storing tunnel | .running tunnel | .closing tunnel
  | .releasing tunnel =>
    if tunnel.sourceIP6 = [] then none
    else some (markOf tunnel.sourceIP6)
  | .connecting | .refused | .allocated _ | .released _ | .deleting _
  | .closed => none

end Phase

def Booked (pool : Option IPPool) (own : Bytes) (held : ClientId → Option UInt128) : Prop :=
  ∀ p, pool = some p → Ledger p.used (key (p.ipToBigInt own)) held

namespace IPPool

variable (p : IPPool)

def Returns (ip : Bytes) : Prop := key (p.ipToBigInt ip) = markOf ip

def ReturnsAny (ip : Bytes) : Prop :=
  if ip = [] then key (p.ipToBigInt []) ∉ p.used else p.Returns ip

instance (ip : Bytes) : Decidable (p.Returns ip) := inferInstanceAs (Decidable (_ = _))

instance (ip : Bytes) : Decidable (p.ReturnsAny ip) := inferInstanceAs (Decidable
    (if ip = [] then key (p.ipToBigInt []) ∉ p.used else p.Returns ip))

end IPPool

namespace Booked

variable {p : IPPool} {own ip : Bytes} {held : ClientId → Option UInt128}
  {id : ClientId} {addr : Nat}

theorem allocate (booked : Booked (some p) own held)
    (hfree : key addr ∉ p.used) (hheld : held id = none) :
    Booked (some (p.mark addr)) own (Function.update held id (some (markOf (bigBytes addr)))) := by
  rintro _ ⟨⟩
  rw [markOf_bigBytes]
  exact (booked p rfl).grant hfree hheld

theorem release (booked : Booked (some p) own held)
    (hheld : held id = some (markOf ip)) (hreturns : p.Returns ip) :
    Booked (some (p.release ip)) own (Function.update held id none) := by
  rintro _ ⟨⟩
  rw [← hreturns] at hheld
  exact (booked p rfl).revoke hheld

theorem releaseAny (booked : Booked (some p) own held) (hheld : held id = if ip = [] then none else
    some (markOf ip)) (hreturns : p.ReturnsAny ip) :
    Booked (some (p.release ip)) own (Function.update held id none) := by
  by_cases hip : ip = []
  · rw [if_pos hip] at hheld
    rw [IPPool.ReturnsAny, if_pos hip] at hreturns
    rw [hip, IPPool.release, Finset.erase_eq_of_notMem hreturns, ← hheld, Function.update_eq_self]
    exact booked
  · rw [if_neg hip] at hheld
    rw [IPPool.ReturnsAny, if_neg hip] at hreturns
    exact booked.release hheld hreturns

end Booked

namespace State

variable {adapter : Adapter} {s next : State} {id : ClientId}

structure Accounts (adapter : Adapter) (s : State) : Prop where
  pool : Booked s.server.ipPool adapter.ip (Phase.held ∘ s.tunnels)
  pool6 : Booked s.server.ipPool6 adapter.ip6 (Phase.held6 ∘ s.tunnels)

def Returns (s : State) (id : ClientId) : Prop :=
  match s.tunnels id with
  | .closing tunnel =>
    ∀ pool, s.server.ipPool = some pool → pool.Returns tunnel.sourceIP
  | .releasing tunnel =>
    ∀ pool, s.server.ipPool6 = some pool → pool.ReturnsAny tunnel.sourceIP6
  | _ => True

theorem accounts_newState (adapter : Adapter) : (newState adapter).Accounts adapter where
  pool := by
    intro p hp
    obtain ⟨net, hnet, rfl⟩ := Option.map_eq_some_iff.1 hp
    exact Ledger.start _
  pool6 := by
    intro p hp
    obtain ⟨net, hnet, rfl⟩ := Option.map_eq_some_iff.1 hp
    exact Ledger.start _

variable (server : Server)

theorem held_enter (phase : Phase) :
    Phase.held ∘ (s.enter id server phase).tunnels =
      Function.update (Phase.held ∘ s.tunnels) id phase.held :=
  Function.comp_update ..

theorem held6_enter (phase : Phase) :
    Phase.held6 ∘ (s.enter id server phase).tunnels =
      Function.update (Phase.held6 ∘ s.tunnels) id phase.held6 :=
  Function.comp_update ..

variable {phase : Phase}

theorem held_enter_of_eq (h : phase.held = (s.tunnels id).held) :
    Phase.held ∘ (s.enter id server phase).tunnels = Phase.held ∘ s.tunnels := by
  rw [held_enter, h]
  exact Function.update_eq_self id (Phase.held ∘ s.tunnels)

theorem held6_enter_of_eq (h : phase.held6 = (s.tunnels id).held6) :
    Phase.held6 ∘ (s.enter id server phase).tunnels = Phase.held6 ∘ s.tunnels := by
  rw [held6_enter, h]
  exact Function.update_eq_self id (Phase.held6 ∘ s.tunnels)

theorem Step.ipPool_isSome (step : s.Step id next) :
    next.server.ipPool.isSome = s.server.ipPool.isSome := by
  cases step with
  | allocate _ hpool | release _ hpool => simp [hpool]
  | _ => rfl

theorem Step.ipPool6_isSome (step : s.Step id next) :
    next.server.ipPool6.isSome = s.server.ipPool6.isSome := by
  cases step with
  | allocate6 _ hpool | release6 _ hpool => simp [hpool]
  | _ => rfl

theorem accounts_enter {server : Server} (accounts : s.Accounts adapter)
    (hpool : server.ipPool = s.server.ipPool) (hpool6 : server.ipPool6 = s.server.ipPool6)
    (hheld : phase.held = (s.tunnels id).held) (hheld6 : phase.held6 = (s.tunnels id).held6) :
    (s.enter id server phase).Accounts adapter where
  pool := by
    rw [held_enter_of_eq server hheld]
    exact hpool ▸ accounts.pool
  pool6 := by
    rw [held6_enter_of_eq server hheld6]
    exact hpool6 ▸ accounts.pool6

theorem accounts_step (accounts : s.Accounts adapter)
    (hreturns : s.Returns id) (step : s.Step id next) :
    next.Accounts adapter := by
  cases step with
  | allocate hphase hpool _ _ hfree =>
    constructor
    case pool =>
      rw [held_enter]
      exact Booked.allocate (hpool ▸ accounts.pool) hfree (by simp [hphase, Phase.held])
    case pool6 =>
      rw [held6_enter_of_eq _ (by simp [hphase, Phase.held6])]
      exact accounts.pool6
  | refuse hphase | without6 hphase | store hphase | store6 hphase | run hphase | close hphase
  | delete hphase | delete6 hphase =>
    exact accounts_enter accounts rfl rfl (by simp [hphase, Phase.held])
      (by simp [hphase, Phase.held6])
  | @allocate6 pool addr ip hphase hpool hfirst _ hfree =>
    constructor
    case pool =>
      rw [held_enter_of_eq _ (by simp [hphase, Phase.held])]
      exact accounts.pool
    case pool6 =>
      have hip6 : bigBytes addr ≠ [] := bigBytes_ne_nil (Nat.lt_of_lt_of_le (Nat.succ_pos _) hfirst)
      rw [held6_enter, Phase.held6, if_neg hip6]
      exact Booked.allocate (hpool ▸ accounts.pool6) hfree (by simp [hphase, Phase.held6])
  | @release pool tunnel hphase hpool =>
    simp only [Returns, hphase] at hreturns
    constructor
    case pool =>
      rw [held_enter]
      exact Booked.release (hpool ▸ accounts.pool)
        (by simp [hphase, Phase.held]) (hreturns pool hpool)
    case pool6 =>
      rw [held6_enter_of_eq _ (by simp [hphase, Phase.held6])]
      exact accounts.pool6
  | @release6 pool tunnel hphase hpool =>
    simp only [Returns, hphase] at hreturns
    constructor
    case pool =>
      rw [held_enter_of_eq _ (by simp [hphase, Phase.held])]
      exact accounts.pool
    case pool6 =>
      rw [held6_enter]
      exact Booked.releaseAny (hpool ▸ accounts.pool6)
        (by simp [hphase, Phase.held6]) (hreturns pool hpool)
  | stay => exact accounts

end State

end Pig.Clients
