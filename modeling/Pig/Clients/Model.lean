import Mathlib.Logic.Function.Basic
import Pig.Clients.Pool

namespace Pig.Clients

open Go Routing

/-! The server with the tunnels of its clients. Each client goes through the
same sequence of atomic steps, in any order with those of the others: the
pools are locked and the map of clients is a concurrent one. -/

structure Adapter where
  ip : Bytes
  ipNet : Option IPNet
  ip6 : Bytes
  ipNet6 : Option IPNet
  deriving DecidableEq, Repr

abbrev ClientId := Nat

structure Server where
  ipPool : Option IPPool
  ipPool6 : Option IPPool
  clients : Bytes → Option ClientId

def buildIPPool (adapter : Adapter) : Server where
  ipPool := adapter.ipNet.map fun net => (newIPPool net).setUsed adapter.ip
  ipPool6 := adapter.ipNet6.map fun net => (newIPPool net).setUsed adapter.ip6
  clients := fun _ => none

namespace Server

variable (s : Server)

def allocateIP : Checked (Except String Bytes × Server) := do
  let pool ← deref s.ipPool
  return (pool.allocate.1, { s with ipPool := some pool.allocate.2 })

def allocateIP6 : Checked (Except String Bytes × Server) := do
  let pool ← deref s.ipPool6
  return (pool.allocate.1, { s with ipPool6 := some pool.allocate.2 })

def releaseIP (ip : Bytes) : Checked Server := do
  let pool ← deref s.ipPool
  return { s with ipPool := some (pool.release ip) }

def releaseIP6 (ip : Bytes) : Checked Server := do
  let pool ← deref s.ipPool6
  return { s with ipPool6 := some (pool.release ip) }

def store (ip : Bytes) (id : ClientId) : Server :=
  { s with clients := Function.update s.clients (text ip) (some id) }

def delete (ip : Bytes) : Server := { s with clients := Function.update s.clients (text ip) none }

variable {s : Server} {pool : IPPool}

theorem allocateIP_cases (hpool : s.ipPool = some pool) :
    (∃ addr, pool.first ≤ addr ∧ addr < pool.first + pool.maxHosts.toNat ∧ key addr ∉ pool.used ∧
      s.allocateIP = .ok (.ok (bigBytes addr), { s with ipPool := some (pool.mark addr) })) ∨
    (pool.Exhausted ∧
      s.allocateIP = .ok (.error "no available IPs in pool", s)) := by
  obtain ⟨addr, hfirst, hlast, hfree, heq⟩ | ⟨hexhausted, heq⟩ := pool.allocate_cases
  · exact .inl ⟨addr, hfirst, hlast, hfree, by
      simp [allocateIP, hpool, heq]⟩
  · cases s
    cases hpool
    exact .inr ⟨hexhausted, by simp [allocateIP, heq]⟩

theorem allocateIP6_cases (hpool : s.ipPool6 = some pool) :
    (∃ addr, pool.first ≤ addr ∧ addr < pool.first + pool.maxHosts.toNat ∧ key addr ∉ pool.used ∧
      s.allocateIP6 = .ok (.ok (bigBytes addr), { s with ipPool6 := some (pool.mark addr) })) ∨
    (pool.Exhausted ∧
      s.allocateIP6 = .ok (.error "no available IPs in pool", s)) := by
  obtain ⟨addr, hfirst, hlast, hfree, heq⟩ | ⟨hexhausted, heq⟩ := pool.allocate_cases
  · exact .inl ⟨addr, hfirst, hlast, hfree, by
      simp [allocateIP6, hpool, heq]⟩
  · cases s
    cases hpool
    exact .inr ⟨hexhausted, by simp [allocateIP6, heq]⟩

end Server

/-- The addresses of a client; the second one is empty if none could be
allocated. -/
structure ClientTunnel where
  sourceIP : Bytes
  sourceIP6 : Bytes
  deriving DecidableEq, Repr

inductive Phase where
  | connecting
  | refused
  | allocated (sourceIP : Bytes)
  | starting (tunnel : ClientTunnel)
  | storing (tunnel : ClientTunnel)
  | running (tunnel : ClientTunnel)
  | closing (tunnel : ClientTunnel)
  | releasing (tunnel : ClientTunnel)
  | released (tunnel : ClientTunnel)
  | deleting (tunnel : ClientTunnel)
  | closed
  deriving DecidableEq, Repr

structure State where
  server : Server
  tunnels : ClientId → Phase

def newState (adapter : Adapter) : State where
  server := buildIPPool adapter
  tunnels := fun _ => .connecting

namespace State

def enter (s : State) (id : ClientId) (server : Server) (phase : Phase) : State where
  server := server
  tunnels := Function.update s.tunnels id phase

@[simp] theorem tunnels_enter (s : State) (id : ClientId) (server : Server) (phase : Phase) :
  (s.enter id server phase).tunnels id = phase := Function.update_self ..

theorem tunnels_enter_of_ne (s : State) {id other : ClientId}
    (hne : other ≠ id) (server : Server) (phase : Phase) :
    (s.enter id server phase).tunnels other = s.tunnels other :=
  Function.update_of_ne hne ..

@[simp] theorem server_enter (s : State) (id : ClientId) (server : Server) (phase : Phase) :
  (s.enter id server phase).server = server := rfl

@[simp] theorem enter_enter (s : State) (id : ClientId)
    (server later : Server) (phase last : Phase) :
    (s.enter id server phase).enter id later last = s.enter id later last := by
  simp [enter]

/-- The next atomic step of a client in `handleNewClient`, `Start` or
`Close`. -/
def advance (s : State) (id : ClientId) : Checked State :=
  match s.tunnels id with
  | .connecting => do
      match ← s.server.allocateIP with
      | (.ok ip, server) => return s.enter id server (.allocated ip)
      | (.error _, server) => return s.enter id server .refused
  | .allocated ip => do
      -- The client is started without an IPv6 address if there is none left.
      match ← s.server.allocateIP6 with
      | (.ok ip6, server) => return s.enter id server (.starting ⟨ip, ip6⟩)
      | (.error _, server) => return s.enter id server (.starting ⟨ip, []⟩)
  | .starting tunnel =>
    return s.enter id (s.server.store tunnel.sourceIP id) (.storing tunnel)
  | .storing tunnel =>
    if tunnel.sourceIP6 ≠ [] then
      return s.enter id (s.server.store tunnel.sourceIP6 id) (.running tunnel)
    else return s.enter id s.server (.running tunnel)
  | .running tunnel => return s.enter id s.server (.closing tunnel)
  | .closing tunnel => do
      let server ← s.server.releaseIP tunnel.sourceIP
      return s.enter id server (.releasing tunnel)
  | .releasing tunnel => do
      let server ← s.server.releaseIP6 tunnel.sourceIP6
      return s.enter id server (.released tunnel)
  | .released tunnel =>
    return s.enter id (s.server.delete tunnel.sourceIP) (.deleting tunnel)
  | .deleting tunnel =>
    return s.enter id (s.server.delete tunnel.sourceIP6) .closed
  | .refused | .closed => return s

def steps : Nat → State → ClientId → Checked State
  | 0, s, _ => return s
  | count + 1, s, id => do
      let s ← s.advance id
      steps count s id

end State

inductive Operation where
  | connect (id : ClientId)
  | close (id : ClientId)
  deriving DecidableEq, Repr

namespace State

/-- `handleNewClient` and `Start` up to the wait for the end of the connection,
or `Close`. -/
def perform (s : State) : Operation → Checked State
  | .connect id =>
    match s.tunnels id with
    | .connecting => s.steps 4 id
    | _ => return s
  | .close id =>
    match s.tunnels id with
    | .running _ => s.steps 5 id
    | _ => return s

variable {s : State} {id : ClientId}

inductive Step (s : State) (id : ClientId) : State → Prop
  | allocate {pool : IPPool} {addr : Nat} (hphase : s.tunnels id = .connecting)
      (hpool : s.server.ipPool = some pool)
      (hfirst : pool.first ≤ addr)
      (hlast : addr < pool.first + pool.maxHosts.toNat)
      (hfree : key addr ∉ pool.used) :
      Step s id (s.enter id { s.server with ipPool := some (pool.mark addr) }
        (.allocated (bigBytes addr)))
  | refuse {pool : IPPool} (hphase : s.tunnels id = .connecting)
      (hpool : s.server.ipPool = some pool) (hexhausted : pool.Exhausted) :
      Step s id (s.enter id s.server .refused)
  | allocate6 {pool : IPPool} {addr : Nat} {ip : Bytes} (hphase : s.tunnels id = .allocated ip)
      (hpool : s.server.ipPool6 = some pool)
      (hfirst : pool.first ≤ addr)
      (hlast : addr < pool.first + pool.maxHosts.toNat)
      (hfree : key addr ∉ pool.used) :
      Step s id (s.enter id { s.server with ipPool6 := some (pool.mark addr) }
        (.starting ⟨ip, bigBytes addr⟩))
  | without6 {pool : IPPool} {ip : Bytes} (hphase : s.tunnels id = .allocated ip)
      (hpool : s.server.ipPool6 = some pool) (hexhausted : pool.Exhausted) :
      Step s id (s.enter id s.server (.starting ⟨ip, []⟩))
  | store {tunnel : ClientTunnel} (hphase : s.tunnels id = .starting tunnel) :
      Step s id (s.enter id (s.server.store tunnel.sourceIP id) (.storing tunnel))
  | store6 {tunnel : ClientTunnel} (hphase : s.tunnels id = .storing tunnel)
      (hip6 : tunnel.sourceIP6 ≠ []) :
      Step s id (s.enter id (s.server.store tunnel.sourceIP6 id) (.running tunnel))
  | run {tunnel : ClientTunnel} (hphase : s.tunnels id = .storing tunnel)
      (hip6 : tunnel.sourceIP6 = []) :
      Step s id (s.enter id s.server (.running tunnel))
  | close {tunnel : ClientTunnel} (hphase : s.tunnels id = .running tunnel) :
      Step s id (s.enter id s.server (.closing tunnel))
  | release {pool : IPPool} {tunnel : ClientTunnel} (hphase : s.tunnels id = .closing tunnel)
      (hpool : s.server.ipPool = some pool) :
      Step s id (s.enter id { s.server with ipPool := some (pool.release tunnel.sourceIP) }
        (.releasing tunnel))
  | release6 {pool : IPPool} {tunnel : ClientTunnel} (hphase : s.tunnels id = .releasing tunnel)
      (hpool : s.server.ipPool6 = some pool) :
      Step s id (s.enter id { s.server with ipPool6 := some (pool.release tunnel.sourceIP6) }
        (.released tunnel))
  | delete {tunnel : ClientTunnel} (hphase : s.tunnels id = .released tunnel) :
      Step s id (s.enter id (s.server.delete tunnel.sourceIP) (.deleting tunnel))
  | delete6 {tunnel : ClientTunnel} (hphase : s.tunnels id = .deleting tunnel) :
      Step s id (s.enter id (s.server.delete tunnel.sourceIP6) .closed)
  | stay (hphase : s.tunnels id = .refused ∨ s.tunnels id = .closed) : Step s id s

theorem step_of_advance {next : State} (h : s.advance id = .ok next) : Step s id next := by
  unfold advance at h
  split at h
  case h_1 hphase =>
    cases hpool : s.server.ipPool with
    | none => simp [Server.allocateIP, hpool] at h
    | some pool =>
      obtain ⟨addr, hfirst, hlast, hfree, heq⟩ | ⟨hexhausted, heq⟩ := Server.allocateIP_cases hpool
      · rw [heq] at h
        obtain rfl := Except.ok.inj h
        exact .allocate hphase hpool hfirst hlast hfree
      · rw [heq] at h
        obtain rfl := Except.ok.inj h
        exact .refuse hphase hpool hexhausted
  case h_2 ip hphase =>
    cases hpool : s.server.ipPool6 with
    | none => simp [Server.allocateIP6, hpool] at h
    | some pool =>
      obtain ⟨addr, hfirst, hlast, hfree, heq⟩ | ⟨hexhausted, heq⟩ := Server.allocateIP6_cases hpool
      · rw [heq] at h
        obtain rfl := Except.ok.inj h
        exact .allocate6 hphase hpool hfirst hlast hfree
      · rw [heq] at h
        obtain rfl := Except.ok.inj h
        exact .without6 hphase hpool hexhausted
  case h_3 tunnel hphase =>
    obtain rfl := Except.ok.inj h
    exact .store hphase
  case h_4 tunnel hphase =>
    split at h
    case isTrue hip6 =>
      obtain rfl := Except.ok.inj h
      exact .store6 hphase hip6
    case isFalse hip6 =>
      obtain rfl := Except.ok.inj h
      exact .run hphase (not_not.1 hip6)
  case h_5 tunnel hphase =>
    obtain rfl := Except.ok.inj h
    exact .close hphase
  case h_6 tunnel hphase =>
    cases hpool : s.server.ipPool with
    | none => simp [Server.releaseIP, hpool] at h
    | some pool =>
      rw [Server.releaseIP, hpool] at h
      obtain rfl := Except.ok.inj h
      exact .release hphase hpool
  case h_7 tunnel hphase =>
    cases hpool : s.server.ipPool6 with
    | none => simp [Server.releaseIP6, hpool] at h
    | some pool =>
      rw [Server.releaseIP6, hpool] at h
      obtain rfl := Except.ok.inj h
      exact .release6 hphase hpool
  case h_8 tunnel hphase =>
    obtain rfl := Except.ok.inj h
    exact .delete hphase
  case h_9 tunnel hphase =>
    obtain rfl := Except.ok.inj h
    exact .delete6 hphase
  case h_10 hphase =>
    obtain rfl := Except.ok.inj h
    exact .stay (.inl hphase)
  case h_11 hphase =>
    obtain rfl := Except.ok.inj h
    exact .stay (.inr hphase)

end State

end Pig.Clients
