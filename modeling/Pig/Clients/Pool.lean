import Mathlib.Data.Finset.Erase
import Mathlib.Data.Finset.Insert
import Pig.Routing.Table

namespace Pig.Clients

open Network Routing BitString

/-! The pool of the addresses of one network, of which the lowest free one is
handed out. Addresses are unbounded numbers while the pool counts, and bytes
without leading zeros when they leave it. -/

structure UInt128 where
  hi : UInt64
  lo : UInt64
  deriving DecidableEq, Repr

def text (ip : Bytes) : Bytes :=
  if to4 ip ≠ [] then to4 ip else ip

def bigBytes (n : Nat) : Bytes := Bytes.ofNatBE ((bitLen n + 7) / 8) n

structure IPPool where
  network : IPNet
  family : Family
  maxHosts : Int
  used : Finset UInt128

def maxHosts (n : IPNet) : Nat :=
  let (ones, bits) := maskSize n.mask
  2 ^ (bits - ones)

def newIPPool (network : IPNet) : IPPool where
  network := network
  family :=
    if to4 network.ip = [] ∧ to16 network.ip ≠ [] then .inet6 else .inet
  maxHosts := maxHosts network - 2
  used := ∅

def key (n : Nat) : UInt128 :=
  if n < 2 ^ 64 then ⟨0, UInt64.ofNat n⟩
  else ⟨UInt64.ofNat (n / 2 ^ 64), UInt64.ofNat (n % 2 ^ 64)⟩

namespace IPPool

variable (p : IPPool)

def ipToBigInt (ip : Bytes) : Nat :=
  match p.family with
  | .inet => (to4 ip).toNatBE
  | .inet6 => (to16 ip).toNatBE

def allocateFrom : Nat → Nat → Option Nat
  | 0, _ => none
  | hosts + 1, addr =>
    if key addr ∈ p.used then allocateFrom hosts (addr + 1)
    else some addr

def mark (addr : Nat) : IPPool := { p with used := insert (key addr) p.used }

def first : Nat := p.ipToBigInt p.network.ip + 1

def allocate : Except String Bytes × IPPool :=
  match p.allocateFrom p.maxHosts.toNat p.first with
  | some addr => (.ok (bigBytes addr), p.mark addr)
  | none => (.error "no available IPs in pool", p)

def setUsed (ip : Bytes) : IPPool := p.mark (p.ipToBigInt ip)

def release (ip : Bytes) : IPPool := { p with used := p.used.erase (key (p.ipToBigInt ip)) }

def Exhausted : Prop := ∀ addr, p.first ≤ addr → addr < p.first + p.maxHosts.toNat →
    key addr ∈ p.used

theorem allocateFrom_eq_some {hosts start addr : Nat} (h : p.allocateFrom hosts start = some addr) :
    start ≤ addr ∧ addr < start + hosts ∧ key addr ∉ p.used := by
  induction hosts generalizing start with
  | zero => simp [allocateFrom] at h
  | succ hosts ih =>
    unfold allocateFrom at h
    split at h
    case isTrue =>
      obtain ⟨hle, hlt, hfree⟩ := ih h
      exact ⟨by omega, by omega, hfree⟩
    case isFalse hfree =>
      obtain rfl := Option.some.inj h
      exact ⟨Nat.le_refl _, by omega, hfree⟩

theorem allocateFrom_eq_none_iff {hosts start : Nat} : p.allocateFrom hosts start = none ↔
      ∀ addr, start ≤ addr → addr < start + hosts → key addr ∈ p.used := by
  induction hosts generalizing start with
  | zero =>
    simp only [allocateFrom, true_iff]
    omega
  | succ hosts ih =>
    unfold allocateFrom
    split
    case isTrue hused =>
      rw [ih]
      refine ⟨fun h addr hle hlt => ?_, fun h addr hle hlt =>
        h addr (by omega) (by omega)⟩
      by_cases heq : addr = start
      · rwa [heq]
      · exact h addr (by omega) (by omega)
    case isFalse hfree =>
      simp only [reduceCtorEq, false_iff]
      exact fun h => hfree (h start (Nat.le_refl _) (by omega))

theorem allocate_cases : (∃ addr, p.first ≤ addr ∧ addr < p.first + p.maxHosts.toNat ∧ key addr ∉
      p.used ∧ p.allocate = (.ok (bigBytes addr), p.mark addr)) ∨
    (p.Exhausted ∧ p.allocate = (.error "no available IPs in pool", p)) := by
  unfold allocate
  split
  case h_1 addr hsome =>
    obtain ⟨hle, hlt, hfree⟩ := p.allocateFrom_eq_some hsome
    exact .inl ⟨addr, hle, hlt, hfree, rfl⟩
  case h_2 hnone => exact .inr ⟨p.allocateFrom_eq_none_iff.1 hnone, rfl⟩

end IPPool

theorem key_eq_iff {m n : Nat} : key m = key n ↔ m % 2 ^ 128 = n % 2 ^ 128 := by
  have hkey : ∀ n, key n = ⟨UInt64.ofNat (n / 2 ^ 64), UInt64.ofNat n⟩ := by
    intro n
    unfold key
    split
    case isTrue h =>
      rw [Nat.div_eq_of_lt h]
      rfl
    case isFalse =>
      congr 1
      apply UInt64.toNat_inj.mp
      simp
  rw [hkey, hkey, UInt128.mk.injEq, ← UInt64.toNat_inj, ← UInt64.toNat_inj]
  simp only [UInt64.toNat_ofNat']
  omega

theorem toNatBE_bigBytes (n : Nat) : (bigBytes n).toNatBE = n := by
  have hlt : n < 2 ^ bitLen n := bitLen_le_iff.1 (Nat.le_refl _)
  rw [bigBytes, Bytes.toNatBE_ofNatBE]
  apply Nat.mod_eq_of_lt
  calc n < 2 ^ bitLen n := hlt
    _ ≤ 2 ^ (8 * ((bitLen n + 7) / 8)) := Nat.pow_le_pow_right (by decide) (by omega)
    _ = 256 ^ ((bitLen n + 7) / 8) := by rw [Nat.pow_mul]

theorem length_bigBytes {n k : Nat} (hle : 2 ^ (8 * k) ≤ n)
    (hlt : n < 2 ^ (8 * (k + 1))) : (bigBytes n).length = k + 1 := by
  have hhigh : bitLen n ≤ 8 * (k + 1) := bitLen_le_iff.2 hlt
  have hlow : ¬ bitLen n ≤ 8 * k := fun h =>
    absurd (bitLen_le_iff.1 h) (Nat.not_lt.2 hle)
  rw [bigBytes, Bytes.length_ofNatBE]
  omega

theorem bigBytes_ne_nil {n : Nat} (h : 0 < n) : bigBytes n ≠ [] := by
  intro hnil
  have := toNatBE_bigBytes n
  rw [hnil, Bytes.toNatBE_nil] at this
  omega

end Pig.Clients
