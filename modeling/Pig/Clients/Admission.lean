import Pig.Clients.Regular

namespace Pig.Clients

open Go

/-! Clients that come and go one after another. Between two operations every
client that has addresses is running. -/

namespace State

variable {adapter : Adapter} {s next : State} {id : ClientId} {op : Operation}

/-- The marks are those of the adapter and of the clients connected. -/
structure Accounted (adapter : Adapter) (s : State) : Prop where
  used : ∀ pool, s.server.ipPool = some pool → ∀ mark, mark ∈ pool.used ↔
    mark = key (pool.ipToBigInt adapter.ip) ∨ ∃ id tunnel, s.tunnels id = .running tunnel ∧
        mark = markOf tunnel.sourceIP
  used6 : ∀ pool, s.server.ipPool6 = some pool → ∀ mark, mark ∈ pool.used ↔
    mark = key (pool.ipToBigInt adapter.ip6) ∨ ∃ id tunnel, s.tunnels id = .running tunnel ∧
        tunnel.sourceIP6 ≠ [] ∧ mark = markOf tunnel.sourceIP6

/-- No operation fails a check, and the marks are right after each one. -/
def Sound (adapter : Adapter) : State → List Operation → Prop
  | s, [] => s.Accounted adapter
  | s, op :: ops => s.Accounted adapter ∧ ∃ next, s.perform op = .ok next ∧ Sound adapter next ops

theorem Sound.accounted {ops : List Operation} (sound : Sound adapter s ops) :
    s.Accounted adapter := by
  cases ops with
  | nil => exact sound
  | cons op ops => exact sound.1

def Admits (s : State) : Operation → Prop
  | .connect id => s.tunnels id = .connecting →
      (∃ pool, s.server.ipPool = some pool ∧ pool.Exhausted) ∨ s.server.ipPool6.isSome
  | .close id => ∀ tunnel, s.tunnels id = .running tunnel →
      (∀ pool, s.server.ipPool = some pool → pool.Returns tunnel.sourceIP) ∧
        ∀ pool, s.server.ipPool6 = some pool → pool.ReturnsAny tunnel.sourceIP6

def AdmitsAll : State → List Operation → Prop
  | _, [] => True
  | s, op :: ops => s.Admits op ∧ ∀ next, s.perform op = .ok next → AdmitsAll next ops

def Quiet (s : State) : Prop := ∀ id, s.tunnels id = .connecting ∨ s.tunnels id = .refused ∨
    (∃ tunnel, s.tunnels id = .running tunnel) ∨ s.tunnels id = .closed

structure Settled (adapter : Adapter) (s : State) : Prop where
  quiet : s.Quiet
  accounts : s.Accounts adapter
  pool : s.server.ipPool.isSome
  pool6 : ∀ id tunnel, s.tunnels id = .running tunnel → s.server.ipPool6.isSome

theorem Quiet.held_iff (quiet : s.Quiet) {mark : UInt128} : (s.tunnels id).held = some mark ↔ ∃
      tunnel, s.tunnels id = .running tunnel ∧ mark = markOf tunnel.sourceIP := by
  obtain h | h | ⟨tunnel, h⟩ | h := quiet id <;> simp [h, Phase.held, eq_comm]

theorem Quiet.held6_iff (quiet : s.Quiet) {mark : UInt128} : (s.tunnels id).held6 = some mark ↔
      ∃ tunnel, s.tunnels id = .running tunnel ∧
        tunnel.sourceIP6 ≠ [] ∧ mark = markOf tunnel.sourceIP6 := by
  obtain h | h | ⟨tunnel, h⟩ | h := quiet id <;> simp [h, Phase.held6, eq_comm]

theorem Quiet.accounted_iff (quiet : s.Quiet) : s.Accounted adapter ↔
      (∀ pool, s.server.ipPool = some pool → ∀ mark, mark ∈ pool.used ↔ mark = key
      (pool.ipToBigInt adapter.ip) ∨ ∃ id, (Phase.held ∘ s.tunnels) id = some mark) ∧ ∀ pool,
      s.server.ipPool6 = some pool → ∀ mark, mark ∈ pool.used ↔ mark = key
      (pool.ipToBigInt adapter.ip6) ∨ ∃ id, (Phase.held6 ∘ s.tunnels) id = some mark := by
  simp only [Function.comp_apply, quiet.held_iff, quiet.held6_iff]
  exact ⟨fun h => ⟨h.used, h.used6⟩, fun h => ⟨h.1, h.2⟩⟩

theorem Settled.accounted (settled : s.Settled adapter) : s.Accounted adapter :=
  settled.quiet.accounted_iff.2 ⟨fun pool hpool => (settled.accounts.pool pool hpool).mem_iff,
      fun pool hpool => (settled.accounts.pool6 pool hpool).mem_iff⟩

theorem settled_newState (hnet : adapter.ipNet.isSome) : (newState adapter).Settled adapter where
  quiet _ := .inl rfl
  accounts := accounts_newState adapter
  pool := by simpa [newState, buildIPPool] using hnet
  pool6 := by simp [newState]

theorem Quiet.enter (quiet : s.Quiet) {server : Server} {phase : Phase}
    (hphase : phase = .refused ∨ (∃ tunnel, phase = .running tunnel) ∨ phase = .closed) :
    (s.enter id server phase).Quiet := by
  intro other
  by_cases heq : other = id
  · subst heq
    rw [tunnels_enter]
    exact .inr hphase
  · rw [tunnels_enter_of_ne s heq]
    exact quiet other

variable {pool pool6 : IPPool} {tunnel : ClientTunnel}

theorem perform_connect_refused (hphase : s.tunnels id = .connecting)
    (hpool : s.server.ipPool = some pool) (hexhausted : pool.Exhausted) :
    s.perform (.connect id) = .ok (s.enter id s.server .refused) := by
  obtain ⟨addr, hfirst, hlast, hfree, -⟩ | ⟨-, heq⟩ := Server.allocateIP_cases hpool
  · exact absurd (hexhausted addr hfirst hlast) hfree
  · simp [perform, hphase, steps, advance, heq, pure, Except.pure]

theorem perform_connect_allocated (hphase : s.tunnels id = .connecting)
    (hpool : s.server.ipPool = some pool) (hspare : ¬ pool.Exhausted) :
    ∃ addr, pool.first ≤ addr ∧ addr < pool.first + pool.maxHosts.toNat ∧ key addr ∉ pool.used ∧
      s.perform (.connect id) = (s.enter id { s.server with ipPool := some (pool.mark addr) }
      (.allocated (bigBytes addr))).steps 3 id := by
  obtain ⟨addr, hfirst, hlast, hfree, heq⟩ | ⟨hexhausted, -⟩ := Server.allocateIP_cases hpool
  · exact ⟨addr, hfirst, hlast, hfree, by
      simp [perform, hphase, steps, advance, heq, pure, Except.pure]⟩
  · exact absurd hexhausted hspare

theorem steps_start (hphase : s.tunnels id = .starting tunnel) : ∃ clients, s.steps 2 id = .ok
      (s.enter id { s.server with clients := clients } (.running tunnel)) := by
  by_cases hip6 : tunnel.sourceIP6 = []
  · refine ⟨(s.server.store tunnel.sourceIP id).clients, ?_⟩
    simp [steps, advance, hphase, hip6, Server.store, pure, Except.pure]
  · refine ⟨((s.server.store tunnel.sourceIP id).store tunnel.sourceIP6 id).clients, ?_⟩
    simp [steps, advance, hphase, hip6, Server.store, pure, Except.pure]

theorem perform_close (hphase : s.tunnels id = .running tunnel) (hpool : s.server.ipPool = some
    pool) (hpool6 : s.server.ipPool6 = some pool6) :
    ∃ clients, s.perform (.close id) = .ok (s.enter id ⟨some (pool.release tunnel.sourceIP),
        some (pool6.release tunnel.sourceIP6), clients⟩ .closed) := by
  refine ⟨((s.server.delete tunnel.sourceIP).delete tunnel.sourceIP6).clients, ?_⟩
  simp [perform, hphase, steps, advance, Server.releaseIP,
    Server.releaseIP6, hpool, hpool6, Server.delete, pure, Except.pure]

theorem admits_of_connect (settled : s.Settled adapter)
    (hconnect : s.perform (.connect id) = .ok next) :
    s.Admits (.connect id) := by
  intro hphase
  obtain ⟨pool, hpool⟩ := Option.isSome_iff_exists.1 settled.pool
  by_cases hexhausted : pool.Exhausted
  · exact .inl ⟨pool, hpool, hexhausted⟩
  · obtain ⟨addr, -, -, -, heq⟩ := perform_connect_allocated hphase hpool hexhausted
    cases hpool6 : s.server.ipPool6 with
    | some pool6 => exact .inr rfl
    | none =>
      simp [heq, steps, advance, Server.allocateIP6, hpool6] at hconnect

theorem settled_of_start {server : Server} (quiet : s.Quiet)
    (accounts : (s.enter id server (.starting tunnel)).Accounts adapter)
    (hpool : server.ipPool.isSome) (hpool6 : server.ipPool6.isSome) :
    ∃ next, (s.enter id server (.starting tunnel)).steps 2 id = .ok next ∧
      next.Settled adapter := by
  obtain ⟨clients, heq⟩ := steps_start (tunnels_enter s id server _)
  refine ⟨_, heq, ?_⟩
  constructor
  case quiet =>
    rw [enter_enter]
    exact quiet.enter (.inr (.inl ⟨tunnel, rfl⟩))
  case accounts =>
    exact accounts_enter accounts rfl rfl (by simp [Phase.held]) (by simp [Phase.held6])
  case pool => exact hpool
  case pool6 => exact fun _ _ _ => hpool6

section

variable (settled : s.Settled adapter)

include settled

theorem settled_of_connect (hadmits : s.Admits (.connect id)) :
    ∃ next, s.perform (.connect id) = .ok next ∧ next.Settled adapter := by
  by_cases hphase : s.tunnels id = .connecting
  case neg =>
    refine ⟨s, ?_, settled⟩
    simp only [perform]
    rfl
  obtain ⟨pool, hpool⟩ := Option.isSome_iff_exists.1 settled.pool
  by_cases hexhausted : pool.Exhausted
  · refine ⟨_, perform_connect_refused hphase hpool hexhausted, ?_⟩
    constructor
    case quiet => exact settled.quiet.enter (.inl rfl)
    case accounts =>
      exact accounts_step settled.accounts (by simp [Returns, hphase])
        (.refuse hphase hpool hexhausted)
    case pool => exact settled.pool
    case pool6 =>
      intro other tunnel hrunning
      have hne : other ≠ id := by
        rintro rfl
        simp at hrunning
      rw [tunnels_enter_of_ne s hne] at hrunning
      exact settled.pool6 other tunnel hrunning
  · obtain ⟨pool6, hpool6⟩ : ∃ pool6, s.server.ipPool6 = some pool6 := by
      obtain ⟨other, hother, hfull⟩ | hsome := hadmits hphase
      · obtain rfl := Option.some.inj (hpool.symm.trans hother)
        exact absurd hfull hexhausted
      · exact Option.isSome_iff_exists.1 hsome
    obtain ⟨addr, hfirst, hlast, hfree, heq⟩ := perform_connect_allocated hphase hpool hexhausted
    have haccounts := accounts_step settled.accounts (by simp [Returns, hphase])
      (.allocate hphase hpool hfirst hlast hfree)
    have hallocated := tunnels_enter s id { s.server with ipPool := some (pool.mark addr) }
      (.allocated (bigBytes addr))
    rw [heq, steps]
    simp only [advance, hallocated, server_enter]
    obtain ⟨addr6, hfirst6, hlast6, hfree6, heq6⟩ | ⟨hexhausted6, heq6⟩ := Server.allocateIP6_cases
        (s := { s.server with ipPool := some (pool.mark addr) }) hpool6
    · have hstarted := accounts_step haccounts (by simp [Returns])
        (.allocate6 hallocated hpool6 hfirst6 hlast6 hfree6)
      simp only [heq6, enter_enter] at hstarted ⊢
      exact settled_of_start settled.quiet hstarted rfl rfl
    · have hstarted := accounts_step haccounts (by simp [Returns])
        (.without6 hallocated hpool6 hexhausted6)
      simp only [heq6, enter_enter] at hstarted ⊢
      exact settled_of_start settled.quiet hstarted rfl (by simp [hpool6])

theorem settled_of_close (hadmits : s.Admits (.close id)) :
    ∃ next, s.perform (.close id) = .ok next ∧ next.Settled adapter := by
  by_cases hphase : ∃ tunnel, s.tunnels id = .running tunnel
  case neg =>
    refine ⟨s, ?_, settled⟩
    simp only [perform]
    split
    · exact absurd ⟨_, ‹_›⟩ hphase
    · rfl
  obtain ⟨tunnel, hphase⟩ := hphase
  obtain ⟨pool, hpool⟩ := Option.isSome_iff_exists.1 settled.pool
  obtain ⟨pool6, hpool6⟩ := Option.isSome_iff_exists.1 (settled.pool6 id tunnel hphase)
  obtain ⟨clients, heq⟩ := perform_close hphase hpool hpool6
  obtain ⟨hreturns, hreturns6⟩ := hadmits tunnel hphase
  refine ⟨_, heq, ?_⟩
  constructor
  case quiet => exact settled.quiet.enter (.inr (.inr rfl))
  case accounts =>
    constructor
    case pool =>
      rw [held_enter]
      exact Booked.release (hpool ▸ settled.accounts.pool)
        (by simp [hphase, Phase.held]) (hreturns pool hpool)
    case pool6 =>
      rw [held6_enter]
      exact Booked.releaseAny (hpool6 ▸ settled.accounts.pool6)
        (by simp [hphase, Phase.held6]) (hreturns6 pool6 hpool6)
  case pool => rfl
  case pool6 => exact fun _ _ _ => rfl

theorem admits_of_close (hclose : s.perform (.close id) = .ok next)
    (haccounted : next.Accounted adapter) : s.Admits (.close id) := by
  intro tunnel hphase
  obtain ⟨pool, hpool⟩ := Option.isSome_iff_exists.1 settled.pool
  obtain ⟨pool6, hpool6⟩ := Option.isSome_iff_exists.1 (settled.pool6 id tunnel hphase)
  obtain ⟨clients, heq⟩ := perform_close hphase hpool hpool6
  obtain rfl := Except.ok.inj (heq.symm.trans hclose)
  obtain ⟨hused, hused6⟩ := (settled.quiet.enter (.inr (.inr rfl))).accounted_iff.1 haccounted
  rw [held_enter] at hused
  rw [held6_enter] at hused6
  constructor
  · intro p hp
    obtain rfl := Option.some.inj (hpool.symm.trans hp)
    exact (settled.accounts.pool pool hpool).eq_of_erase
      (by simp [hphase, Phase.held]) (hused _ rfl)
  · intro p hp
    obtain rfl := Option.some.inj (hpool6.symm.trans hp)
    have ledger := settled.accounts.pool6 pool6 hpool6
    by_cases hip6 : tunnel.sourceIP6 = []
    · rw [IPPool.ReturnsAny, if_pos hip6]
      have hsame : Function.update (Phase.held6 ∘ s.tunnels) id none = Phase.held6 ∘ s.tunnels := by
        have hnone : (Phase.held6 ∘ s.tunnels) id = none := by
          simp [hphase, Phase.held6, hip6]
        rw [← hnone, Function.update_eq_self]
      apply ledger.not_marked_of_erase
      rw [← hsame, ← hip6]
      exact hused6 _ rfl
    · rw [IPPool.ReturnsAny, if_neg hip6]
      exact ledger.eq_of_erase (by simp [hphase, Phase.held6, hip6]) (hused6 _ rfl)

theorem settled_of_admits (hadmits : s.Admits op) :
    ∃ next, s.perform op = .ok next ∧ next.Settled adapter := by
  cases op with
  | connect id => exact settled_of_connect settled hadmits
  | close id => exact settled_of_close settled hadmits

theorem sound_iff (ops : List Operation) :
    Sound adapter s ops ↔ s.AdmitsAll ops := by
  induction ops generalizing s with
  | nil => simp [Sound, AdmitsAll, settled.accounted]
  | cons op ops ih =>
    have hadmits : (∃ next, s.perform op = .ok next ∧
        next.Accounted adapter) → s.Admits op := by
      rintro ⟨next, hperform, haccounted⟩
      cases op with
      | connect id => exact admits_of_connect settled hperform
      | close id => exact admits_of_close settled hperform haccounted
    simp only [Sound, AdmitsAll, settled.accounted, true_and]
    constructor
    · rintro ⟨next, hperform, hsound⟩
      have hadmitted := hadmits ⟨next, hperform, hsound.accounted⟩
      refine ⟨hadmitted, fun after hafter => ?_⟩
      obtain ⟨settledNext, hnext, hsettledNext⟩ := settled_of_admits settled hadmitted
      obtain rfl := Except.ok.inj (hperform.symm.trans hafter)
      obtain rfl := Except.ok.inj (hperform.symm.trans hnext)
      exact (ih hsettledNext).1 hsound
    · rintro ⟨hadmitted, hrest⟩
      obtain ⟨next, hnext, hsettledNext⟩ := settled_of_admits settled hadmitted
      exact ⟨next, hnext, (ih hsettledNext).2 (hrest next hnext)⟩

end

theorem regular_steps {count : Nat} (regular : s.Regular) (hsteps : s.steps count id = .ok next) :
    next.Regular ∧
      next.server.ipPool6.isSome = s.server.ipPool6.isSome := by
  induction count generalizing s with
  | zero =>
    obtain rfl := Except.ok.inj hsteps
    exact ⟨regular, rfl⟩
  | succ count ih =>
    obtain ⟨middle, hmiddle, hrest⟩ := bind_eq_ok.1 hsteps
    have hstep := step_of_advance hmiddle
    obtain ⟨hregular, hsome⟩ := ih (regular_step regular hstep) hrest
    exact ⟨hregular, hsome.trans hstep.ipPool6_isSome⟩

theorem regular_perform (regular : s.Regular) (hperform : s.perform op = .ok next) :
    next.Regular ∧
      next.server.ipPool6.isSome = s.server.ipPool6.isSome := by
  cases op with
  | connect id | close id =>
    simp only [perform] at hperform
    split at hperform
    · exact regular_steps regular hperform
    · obtain rfl := Except.ok.inj hperform
      exact ⟨regular, rfl⟩

theorem Regular.admits (regular : s.Regular) (accounts : s.Accounts adapter)
    (hadapter : adapter.Regular) (hpool6 : s.server.ipPool6.isSome)
    (op : Operation) : s.Admits op := by
  cases op with
  | connect id => exact fun _ => .inr hpool6
  | close id =>
    intro tunnel hphase
    have hfits := regular.fits id
    rw [hphase] at hfits
    constructor
    · intro pool hpool
      exact hfits.1.returns (regular.pool pool hpool).2
    · intro pool hpool
      exact returnsAny_of_full6 hfits.2 (regular.pool6 pool hpool).2
        (regular.zero_not_marked accounts hadapter hpool)

theorem Regular.admitsAll (regular : s.Regular) (settled : s.Settled adapter)
    (hadapter : adapter.Regular) (hpool6 : s.server.ipPool6.isSome) (ops : List Operation) :
    s.AdmitsAll ops := by
  induction ops generalizing s with
  | nil => trivial
  | cons op ops ih =>
    have hadmits := regular.admits settled.accounts hadapter hpool6 op
    refine ⟨hadmits, fun next hnext => ?_⟩
    obtain ⟨hregular, hsome⟩ := regular_perform regular hnext
    obtain ⟨after, hafter, hsettled⟩ := settled_of_admits settled hadmits
    obtain rfl := Except.ok.inj (hnext.symm.trans hafter)
    exact ih hregular hsettled (hsome.trans hpool6)

end State

open State

/-- For an adapter with an IPv4 network, a sequence of connections and closes
fails no check and keeps the marks right exactly when every operation is one
that the server can carry out. -/
theorem admission_sound_iff (adapter : Adapter)
    (hnet : adapter.ipNet.isSome) (ops : List Operation) :
    Sound adapter (newState adapter) ops ↔ (newState adapter).AdmitsAll ops :=
  sound_iff (settled_newState hnet) ops

/-- The third client finds no IPv6 address left. -/
theorem admission_sound_iff_dualStack : Sound dualStack (newState dualStack)
      [.connect 0, .connect 1, .connect 2, .close 2, .close 0, .connect 3] :=
  (admission_sound_iff dualStack rfl _).2
    ((regular_newState regular_dualStack).admitsAll (settled_newState rfl) regular_dualStack rfl _)

/-- Without an IPv6 network the first client takes the server down. -/
theorem exists_not_sound : ∃ adapter : Adapter, adapter.ipNet.isSome ∧
      ¬ Sound adapter (newState adapter) [.connect 0] := by
  refine ⟨{ dualStack with ipNet6 := none }, rfl, ?_⟩
  rw [sound_iff (settled_newState rfl)]
  rintro ⟨hadmits, -⟩
  obtain ⟨pool, hpool, hexhausted⟩ | hsome := hadmits rfl
  · obtain rfl := Option.some.inj hpool
    -- The adapter has the first host address, the second one is free.
    have hmarked := hexhausted 0x0a080002
    revert hmarked
    decide +kernel
  · cases hsome

end Pig.Clients
