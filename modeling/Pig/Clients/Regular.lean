import Pig.Clients.Accounts

namespace Pig.Clients

open Network Routing BitString

/-! Networks whose hosts all have addresses of the full length. The addresses
of such a network go back to the pool as they came out of it. -/

namespace IPPool

def Hosts (p : IPPool) : Prop := p.maxHosts.toNat = 0 ∨ (2 ^ (p.family.bitWidth - 8) ≤ p.first ∧
      p.first + p.maxHosts.toNat ≤ 2 ^ p.family.bitWidth)

instance (p : IPPool) : Decidable p.Hosts := inferInstanceAs (Decidable (_ ∨ _))

variable {p : IPPool} {addr : Nat} {ip : Bytes}

theorem Hosts.bounds (hosts : p.Hosts) (hfirst : p.first ≤ addr)
    (hlast : addr < p.first + p.maxHosts.toNat) :
    2 ^ (p.family.bitWidth - 8) ≤ addr ∧ addr < 2 ^ p.family.bitWidth := by
  obtain hnone | ⟨hlow, hhigh⟩ := hosts
  · omega
  · exact ⟨Nat.le_trans hlow hfirst, Nat.lt_of_lt_of_le hlast hhigh⟩

end IPPool

def Full (ip : Bytes) : Prop := ip.length = 4

def Full6 (ip : Bytes) : Prop := ip.length = 16 ∧ 2 ^ 120 ≤ ip.toNatBE

variable {p : IPPool}

theorem full_bigBytes {addr : Nat} (hosts : p.Hosts)
    (hfamily : p.family = .inet) (hfirst : p.first ≤ addr)
    (hlast : addr < p.first + p.maxHosts.toNat) : Full (bigBytes addr) := by
  obtain ⟨hle, hlt⟩ := hosts.bounds hfirst hlast
  rw [hfamily] at hle hlt
  exact length_bigBytes (k := 3) hle hlt

theorem full6_bigBytes {addr : Nat} (hosts : p.Hosts)
    (hfamily : p.family = .inet6) (hfirst : p.first ≤ addr)
    (hlast : addr < p.first + p.maxHosts.toNat) : Full6 (bigBytes addr) := by
  obtain ⟨hle, hlt⟩ := hosts.bounds hfirst hlast
  rw [hfamily] at hle hlt
  refine ⟨length_bigBytes (k := 15) hle hlt, ?_⟩
  rw [toNatBE_bigBytes]
  exact hle

variable {ip : Bytes}

theorem Full.to4 (full : Full ip) : to4 ip = ip := if_pos full

theorem Full6.to16 (full : Full6 ip) : to16 ip = ip := by
  rw [Network.to16, if_neg (by rw [full.1]; decide), if_pos full.1]

theorem Full6.to4 (full : Full6 ip) : to4 ip = [] := by
  rw [Network.to4, if_neg (by rw [full.1]; decide), if_neg]
  rintro ⟨-, hmapped⟩
  -- A mapped address starts with a zero byte.
  obtain ⟨hlength, hlow⟩ := full
  cases ip with
  | nil => cases hlength
  | cons byte rest =>
    obtain rfl : byte = 0 := (List.cons.inj hmapped).1
    have hlt : Bytes.toNatBE rest < 256 ^ 15 := by
      rw [← Nat.succ.inj hlength]
      exact Bytes.toNatBE_lt rest
    have heq : Bytes.toNatBE (0 :: rest) = Bytes.toNatBE rest := by
      simp [Bytes.toNatBE]
    omega

theorem Full.text (full : Full ip) : text ip = ip := by
  rw [Clients.text, full.to4]
  simp

theorem Full6.text (full : Full6 ip) : text ip = ip := by
  rw [Clients.text, full.to4]
  simp

theorem Full.returns (full : Full ip) (hfamily : p.family = .inet) : p.Returns ip := by
  rw [IPPool.Returns, IPPool.ipToBigInt, hfamily]
  simp only [full.to4]
  rfl

theorem Full6.returns (full : Full6 ip) (hfamily : p.family = .inet6) : p.Returns ip := by
  rw [IPPool.Returns, IPPool.ipToBigInt, hfamily]
  simp only [full.to16]
  rfl

theorem returnsAny_of_full6 (hip : ip = [] ∨ Full6 ip)
    (hfamily : p.family = .inet6) (hzero : key (p.ipToBigInt []) ∉ p.used) : p.ReturnsAny ip := by
  rw [IPPool.ReturnsAny]
  split
  case isTrue => exact hzero
  case isFalse hne => exact (hip.resolve_left hne).returns hfamily

theorem Full6.markOf_ne (full : Full6 ip) : markOf ip ≠ key 0 := by
  have hlt : ip.toNatBE < 2 ^ 128 := by
    have := Bytes.toNatBE_lt ip
    rwa [full.1] at this
  have hle := full.2
  rw [markOf, Ne, key_eq_iff]
  omega

/-- The networks of an adapter with full addresses, and an address of its own
that is not the unspecified one. -/
structure Adapter.Regular (adapter : Adapter) : Prop where
  net : ∀ net, adapter.ipNet = some net → (newIPPool net).Hosts ∧ (newIPPool net).family = .inet
  net6 : ∀ net, adapter.ipNet6 = some net → (newIPPool net).Hosts ∧ (newIPPool net).family = .inet6
  own6 : key (to16 adapter.ip6).toNatBE ≠ key 0

def dualStack : Adapter where
  ip := [10, 8, 0, 1]
  ipNet := some ⟨[10, 8, 0, 0], [255, 255, 255, 248]⟩
  ip6 := 0xfd :: List.replicate 14 0 ++ [1]
  ipNet6 := some ⟨0xfd :: List.replicate 15 0, List.replicate 15 0xff ++ [0xfc]⟩

theorem regular_dualStack : dualStack.Regular where
  net := by
    decide +kernel
  net6 := by
    decide +kernel
  own6 := by decide +kernel

namespace Phase

def Fits : Phase → Prop
  | .allocated ip => Full ip
  | .starting tunnel | .storing tunnel | .running tunnel | .closing tunnel
  | .releasing tunnel | .released tunnel | .deleting tunnel =>
    Full tunnel.sourceIP ∧ (tunnel.sourceIP6 = [] ∨ Full6 tunnel.sourceIP6)
  | .connecting | .refused | .closed => True

theorem Fits.full6_of_held6 {phase : Phase} {mark : UInt128}
    (fits : phase.Fits) (hheld : phase.held6 = some mark) :
    ∃ ip, Full6 ip ∧ mark = markOf ip := by
  cases phase with
  | connecting | refused | allocated | released | deleting | closed =>
    cases hheld
  | starting tunnel | storing tunnel | running tunnel | closing tunnel
  | releasing tunnel =>
    obtain ⟨-, hnone | hfull⟩ := fits
    · simp [held6, hnone] at hheld
    · have hne : tunnel.sourceIP6 ≠ [] := by
        intro hnil
        simp [Full6, hnil] at hfull
      simp only [held6, if_neg hne, Option.some.injEq] at hheld
      exact ⟨tunnel.sourceIP6, hfull, hheld.symm⟩

end Phase

namespace State

variable {adapter : Adapter} {s next : State} {id : ClientId}

structure Regular (s : State) : Prop where
  pool : ∀ p, s.server.ipPool = some p → p.Hosts ∧ p.family = .inet
  pool6 : ∀ p, s.server.ipPool6 = some p → p.Hosts ∧ p.family = .inet6
  fits : ∀ id, (s.tunnels id).Fits

theorem regular_newState (hregular : adapter.Regular) : (newState adapter).Regular where
  pool p hp := by
    obtain ⟨net, hnet, rfl⟩ := Option.map_eq_some_iff.1 hp
    exact hregular.net net hnet
  pool6 p hp := by
    obtain ⟨net, hnet, rfl⟩ := Option.map_eq_some_iff.1 hp
    exact hregular.net6 net hnet
  fits _ := trivial

theorem Regular.enter (regular : s.Regular) {server : Server} {phase : Phase}
    (hpool : ∀ p, server.ipPool = some p → p.Hosts ∧ p.family = .inet)
    (hpool6 : ∀ p, server.ipPool6 = some p → p.Hosts ∧ p.family = .inet6)
    (hfits : phase.Fits) : (s.enter id server phase).Regular where
  pool := hpool
  pool6 := hpool6
  fits other := by
    by_cases heq : other = id
    · subst heq
      rwa [tunnels_enter]
    · rw [tunnels_enter_of_ne s heq]
      exact regular.fits other

theorem regular_step (regular : s.Regular) (step : s.Step id next) :
    next.Regular := by
  have hfits := regular.fits id
  cases step with
  | @allocate pool addr hphase hpool hfirst hlast hfree =>
    obtain ⟨hosts, hfamily⟩ := regular.pool pool hpool
    refine regular.enter ?_ regular.pool6 (full_bigBytes hosts hfamily hfirst hlast)
    rintro _ ⟨⟩
    exact ⟨hosts, hfamily⟩
  | refuse | delete6 => exact regular.enter regular.pool regular.pool6 trivial
  | @allocate6 pool addr ip hphase hpool hfirst hlast hfree =>
    rw [hphase] at hfits
    obtain ⟨hosts, hfamily⟩ := regular.pool6 pool hpool
    refine regular.enter regular.pool ?_ ⟨hfits, .inr (full6_bigBytes hosts hfamily hfirst hlast)⟩
    rintro _ ⟨⟩
    exact ⟨hosts, hfamily⟩
  | without6 hphase =>
    rw [hphase] at hfits
    exact regular.enter regular.pool regular.pool6 ⟨hfits, .inl rfl⟩
  | store hphase | store6 hphase | run hphase | close hphase | delete hphase =>
    rw [hphase] at hfits
    exact regular.enter regular.pool regular.pool6 hfits
  | @release pool tunnel hphase hpool =>
    rw [hphase] at hfits
    refine regular.enter ?_ regular.pool6 hfits
    rintro _ ⟨⟩
    exact regular.pool pool hpool
  | @release6 pool tunnel hphase hpool =>
    rw [hphase] at hfits
    refine regular.enter regular.pool ?_ hfits
    rintro _ ⟨⟩
    exact regular.pool6 pool hpool
  | stay => exact regular

theorem Regular.zero_not_marked (regular : s.Regular)
    (accounts : s.Accounts adapter) (hown : adapter.Regular) {p : IPPool}
    (hpool : s.server.ipPool6 = some p) : key (p.ipToBigInt []) ∉ p.used := by
  obtain ⟨-, hfamily⟩ := regular.pool6 p hpool
  have hzero : p.ipToBigInt [] = 0 := by
    rw [IPPool.ipToBigInt, hfamily]
    rfl
  have hadapter : p.ipToBigInt adapter.ip6 = (to16 adapter.ip6).toNatBE := by
    rw [IPPool.ipToBigInt, hfamily]
  rw [hzero, (accounts.pool6 p hpool).mem_iff, hadapter]
  rintro (heq | ⟨holder, hholder⟩)
  · exact hown.own6 heq.symm
  · obtain ⟨ip, hfull, hmark⟩ := (regular.fits holder).full6_of_held6 hholder
    exact hfull.markOf_ne hmark.symm

theorem Regular.returns (regular : s.Regular) (accounts : s.Accounts adapter)
    (hown : adapter.Regular) (id : ClientId) : s.Returns id := by
  have hfits := regular.fits id
  unfold Returns
  split
  case h_1 tunnel hphase =>
    intro pool hpool
    rw [hphase] at hfits
    exact hfits.1.returns (regular.pool pool hpool).2
  case h_2 tunnel hphase =>
    intro pool hpool
    rw [hphase] at hfits
    exact returnsAny_of_full6 hfits.2 (regular.pool6 pool hpool).2
      (regular.zero_not_marked accounts hown hpool)
  case h_3 => trivial

end State

end Pig.Clients
