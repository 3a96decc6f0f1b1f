import Mathlib.Data.Set.Basic
import Mathlib.Tactic.SplitIfs
import Pig.Lib.Go

namespace Pig.Network

structure Addr where
  bitLen : Nat
  number : Nat
  bitLen_eq : bitLen = 32 ∨ bitLen = 128
  number_lt : number < 2 ^ bitLen

structure Prefix where
  addr : Addr
  bits : Nat
  bits_le : bits ≤ addr.bitLen

inductive PrefixError where
  | targetLength (length : Nat)
  | fillBytes
  | invalidAddress
  | invalidPrefix
  deriving DecidableEq, Repr

namespace Addr

def asSlice (addr : Addr) : Bytes := Bytes.ofNatBE (addr.bitLen / 8) addr.number

def fromSlice (bytes : Bytes) : Option Addr :=
  if h : bytes.length = 4 ∨ bytes.length = 16 then
    some ⟨8 * bytes.length, bytes.toNatBE, by omega, by
      rw [Nat.pow_mul]
      exact Bytes.toNatBE_lt bytes⟩
  else none

def next (addr : Addr) : Option Addr :=
  if h : addr.number + 1 < 2 ^ addr.bitLen then
    some ⟨addr.bitLen, addr.number + 1, addr.bitLen_eq, h⟩
  else none

end Addr

namespace Prefix

def hostBits (p : Prefix) : Nat := p.addr.bitLen - p.bits

def masked (p : Prefix) : Prefix where
  addr := {
    bitLen := p.addr.bitLen
    number := p.addr.number / 2 ^ p.hostBits * 2 ^ p.hostBits
    bitLen_eq := p.addr.bitLen_eq
    number_lt := Nat.lt_of_le_of_lt (Nat.div_mul_le_self _ _) p.addr.number_lt }
  bits := p.bits
  bits_le := p.bits_le

def network (p : Prefix) : Set Nat :=
  {n | n / 2 ^ p.hostBits = p.addr.number / 2 ^ p.hostBits}

end Prefix

def prefixFrom (addr : Option Addr) (bits : Nat) : Except PrefixError Prefix :=
  match addr with
  | none => .error .invalidPrefix
  | some addr => if h : bits ≤ addr.bitLen then .ok ⟨addr, bits, h⟩ else .error .invalidPrefix

/-- The call `n.FillBytes`, which panics if there are too few bytes. -/
def fillBytes (n size : Nat) : Except PrefixError Bytes :=
  if n < 256 ^ size then .ok (Bytes.ofNatBE size n) else .error .fillBytes

/-- The random choice is the index of the subnet. -/
def generateIPPrefix (base : Prefix) (targetPrefixLen : Nat) (withFirstUsableHost : Bool)
    (subnetIndex : Nat) : Except PrefixError Prefix :=
  let base := base.masked
  let addr := base.addr
  let totalBits := addr.bitLen
  let baseBits := base.bits
  if targetPrefixLen = baseBits then
    if withFirstUsableHost ∧ targetPrefixLen < totalBits then
      prefixFrom addr.next targetPrefixLen
    else .ok base
  else if targetPrefixLen < baseBits ∨ totalBits < targetPrefixLen then
    .error (.targetLength targetPrefixLen)
  else do
    let subnetHostSize := 2 ^ (totalBits - targetPrefixLen)
    let baseInt := addr.asSlice.toNatBE
    let ipBytes ← fillBytes (baseInt + subnetIndex * subnetHostSize) (totalBits / 8)
    match Addr.fromSlice ipBytes with
    | none => .error .invalidAddress
    | some out =>
      prefixFrom (if withFirstUsableHost ∧ targetPrefixLen < totalBits then out.next else some out)
        targetPrefixLen

namespace Addr

theorem pow_bytes (addr : Addr) : 256 ^ (addr.bitLen / 8) = 2 ^ addr.bitLen := by
  obtain h | h := addr.bitLen_eq <;> rw [h] <;> rfl

theorem toNatBE_asSlice (addr : Addr) : addr.asSlice.toNatBE = addr.number := by
  rw [asSlice, Bytes.toNatBE_ofNatBE, pow_bytes, Nat.mod_eq_of_lt addr.number_lt]

theorem fromSlice_ofNatBE (addr : Addr) {n : Nat} (h : n < 2 ^ addr.bitLen) :
    fromSlice (Bytes.ofNatBE (addr.bitLen / 8) n) =
      some { addr with number := n, number_lt := h } := by
  have hlength : addr.bitLen / 8 = 4 ∨ addr.bitLen / 8 = 16 := by
    have := addr.bitLen_eq
    omega
  have hbits : 8 * (addr.bitLen / 8) = addr.bitLen := by
    have := addr.bitLen_eq
    omega
  rw [fromSlice, dif_pos (by rwa [Bytes.length_ofNatBE])]
  simp only [Bytes.length_ofNatBE, Bytes.toNatBE_ofNatBE, pow_bytes, Nat.mod_eq_of_lt h, hbits]

end Addr

def subnetNumber (base : Prefix) (target index : Nat) : Nat :=
  base.addr.number / 2 ^ base.hostBits * 2 ^ (target - base.bits) + index

def firstHost (base : Prefix) (target : Nat) (withFirstUsableHost : Bool) : Nat :=
  if withFirstUsableHost ∧ target < base.addr.bitLen then 1 else 0

section

variable {base : Prefix} {target index : Nat} {withFirstUsableHost : Bool}

theorem two_pow_hostBits (hle : base.bits ≤ target) (hwidth : target ≤ base.addr.bitLen) :
    2 ^ base.hostBits = 2 ^ (target - base.bits) * 2 ^ (base.addr.bitLen - target) := by
  rw [← Nat.pow_add, Prefix.hostBits]
  congr 1
  omega

theorem firstHost_lt :
    firstHost base target withFirstUsableHost < 2 ^ (base.addr.bitLen - target) := by
  rw [firstHost]
  split
  · next h => exact Nat.one_lt_two_pow (by omega)
  · exact Nat.two_pow_pos _

theorem subnet_lt (hle : base.bits ≤ target) (hwidth : target ≤ base.addr.bitLen)
    (hindex : index < 2 ^ (target - base.bits)) :
    subnetNumber base target index * 2 ^ (base.addr.bitLen - target) +
      firstHost base target withFirstUsableHost < 2 ^ base.addr.bitLen := by
  have hsplit : 2 ^ base.addr.bitLen = 2 ^ base.bits * 2 ^ base.hostBits := by
    rw [← Nat.pow_add, Prefix.hostBits, Nat.add_sub_cancel' base.bits_le]
  have hbase : base.addr.number / 2 ^ base.hostBits < 2 ^ base.bits := by
    rw [Nat.div_lt_iff_lt_mul (Nat.two_pow_pos _), ← hsplit]
    exact base.addr.number_lt
  calc subnetNumber base target index * 2 ^ (base.addr.bitLen - target) +
        firstHost base target withFirstUsableHost
      < (subnetNumber base target index + 1) * 2 ^ (base.addr.bitLen - target) := by
        rw [Nat.succ_mul]
        exact Nat.add_lt_add_left firstHost_lt _
    _ ≤ ((base.addr.number / 2 ^ base.hostBits + 1) * 2 ^ (target - base.bits)) *
          2 ^ (base.addr.bitLen - target) := by
        refine Nat.mul_le_mul_right _ ?_
        rw [subnetNumber, Nat.succ_mul]
        omega
    _ = (base.addr.number / 2 ^ base.hostBits + 1) * 2 ^ base.hostBits := by
        rw [Nat.mul_assoc, ← two_pow_hostBits hle hwidth]
    _ ≤ 2 ^ base.addr.bitLen := by
        rw [hsplit]
        exact Nat.mul_le_mul_right _ hbase

theorem prefixFrom_firstHost {out : Addr} (hbits : target ≤ out.bitLen)
    (hlt : out.number + firstHost base target withFirstUsableHost < 2 ^ out.bitLen) :
    prefixFrom (if withFirstUsableHost ∧ target < base.addr.bitLen then out.next else some out)
        target = .ok ⟨{ out with
          number := out.number + firstHost base target withFirstUsableHost
          number_lt := hlt }, target, hbits⟩ := by
  by_cases hhost : withFirstUsableHost ∧ target < base.addr.bitLen
  · simp only [firstHost, if_pos hhost] at hlt ⊢
    rw [Addr.next, dif_pos hlt, prefixFrom]
    exact dif_pos hbits
  · simp only [firstHost, if_neg hhost]
    exact dif_pos hbits

def subnet (withFirstUsableHost : Bool) (hle : base.bits ≤ target)
    (hwidth : target ≤ base.addr.bitLen) (hindex : index < 2 ^ (target - base.bits)) : Prefix where
  addr := { base.addr with
    number := subnetNumber base target index * 2 ^ (base.addr.bitLen - target) +
      firstHost base target withFirstUsableHost
    number_lt := subnet_lt hle hwidth hindex }
  bits := target
  bits_le := hwidth

theorem generateIPPrefix_eq (hle : base.bits ≤ target) (hwidth : target ≤ base.addr.bitLen)
    (hindex : index < 2 ^ (target - base.bits)) :
    generateIPPrefix base target withFirstUsableHost index =
      .ok (subnet withFirstUsableHost hle hwidth hindex) := by
  have hlt := @subnet_lt base target index withFirstUsableHost hle hwidth hindex
  have hnetwork : base.masked.addr.number + index * 2 ^ (base.addr.bitLen - target) =
      subnetNumber base target index * 2 ^ (base.addr.bitLen - target) := by
    rw [subnetNumber, Nat.add_mul, Nat.mul_assoc, ← two_pow_hostBits hle hwidth]
    rfl
  by_cases hsame : target = base.bits
  · have hzero : index = 0 := by
      rw [hsame, Nat.sub_self] at hindex
      omega
    rw [hzero, Nat.zero_mul, Nat.add_zero, ← hzero] at hnetwork
    have hfirst := @prefixFrom_firstHost base target withFirstUsableHost base.masked.addr hwidth
      (hnetwork ▸ hlt)
    simp only [hnetwork] at hfirst
    refine Eq.trans ?_ hfirst
    simp only [generateIPPrefix, if_pos (show target = base.masked.bits from hsame)]
    by_cases hhost : withFirstUsableHost ∧ target < base.addr.bitLen
    · rw [if_pos hhost]
      exact if_pos hhost
    · rw [if_neg hhost]
      refine (if_neg hhost).trans ?_
      subst hsame
      rw [prefixFrom, dif_pos (show base.bits ≤ base.masked.addr.bitLen from base.bits_le)]
      rfl
  · have hnot : ¬ (target < base.masked.bits ∨ base.masked.addr.bitLen < target) := by
      change ¬ (target < base.bits ∨ base.addr.bitLen < target)
      omega
    have hin := Nat.lt_of_le_of_lt (Nat.le_add_right _ _) hlt
    simp only [generateIPPrefix, if_neg (show ¬ target = base.masked.bits from hsame), if_neg hnot,
      Addr.toNatBE_asSlice]
    change (fillBytes (base.masked.addr.number + index * 2 ^ (base.addr.bitLen - target))
      (base.addr.bitLen / 8) >>= _) = _
    rw [hnetwork, fillBytes, if_pos (by rwa [base.addr.pow_bytes]), Go.ok_bind,
      base.addr.fromSlice_ofNatBE hin]
    exact @prefixFrom_firstHost base target withFirstUsableHost { base.addr with
      number := _, number_lt := hin } hwidth hlt

theorem subnet_div (hle : base.bits ≤ target) (hwidth : target ≤ base.addr.bitLen)
    (hindex : index < 2 ^ (target - base.bits)) :
    (subnet withFirstUsableHost hle hwidth hindex).addr.number / 2 ^ (base.addr.bitLen - target) =
      subnetNumber base target index := by
  change (_ * _ + _) / _ = _
  rw [Nat.mul_comm, Nat.mul_add_div (Nat.two_pow_pos _), Nat.div_eq_of_lt firstHost_lt,
    Nat.add_zero]

end

section

variable {base p : Prefix}

theorem network_subset_iff (hle : base.bits ≤ p.bits)
    (hsame : p.addr.bitLen = base.addr.bitLen) :
    p.network ⊆ base.network ↔ p.addr.number / 2 ^ p.hostBits / 2 ^ (p.bits - base.bits) =
      base.addr.number / 2 ^ base.hostBits := by
  have hdiv : ∀ n, n / 2 ^ base.hostBits = n / 2 ^ p.hostBits / 2 ^ (p.bits - base.bits) := by
    intro n
    have hbits := p.bits_le
    rw [Nat.div_div_eq_div_mul, Nat.mul_comm, two_pow_hostBits hle (hsame ▸ hbits), ← hsame]
    rfl
  constructor
  · intro hsubset
    rw [← hdiv]
    exact hsubset rfl
  · intro hbits n hn
    change n / _ = _
    rw [hdiv, hn, hbits]

theorem network_eq_iff (hbits : p.hostBits = base.hostBits) : p.network = base.network ↔
    p.addr.number / 2 ^ p.hostBits = base.addr.number / 2 ^ base.hostBits := by
  constructor
  · intro heq
    rw [hbits]
    exact heq.subset rfl
  · intro hnumber
    ext n
    change n / _ = _ ↔ n / _ = _
    rw [hnumber, hbits]

end

/-- A prefix of the target length inside the base, at the address of its network
or the one after it. -/
structure Generates (base : Prefix) (target : Nat) (withFirstUsableHost : Bool) (p : Prefix) :
    Prop where
  bits_eq : p.bits = target
  bitLen_eq : p.addr.bitLen = base.addr.bitLen
  inside : p.network ⊆ base.network
  address : p.addr.number = p.masked.addr.number + firstHost base target withFirstUsableHost

/-- The indices are the subnets: each generates a prefix, different ones
generate disjoint networks, and every network of the length is generated. -/
theorem generateIPPrefix_subnets {base : Prefix} {target : Nat} (hle : base.bits ≤ target)
    (hwidth : target ≤ base.addr.bitLen) (withFirstUsableHost : Bool) :
    ∃ subnet : Fin (2 ^ (target - base.bits)) → Prefix,
      (∀ index : Fin (2 ^ (target - base.bits)),
        generateIPPrefix base target withFirstUsableHost index = .ok (subnet index) ∧
        Generates base target withFirstUsableHost (subnet index)) ∧
      (∀ index other, index ≠ other → (subnet index).network ∩ (subnet other).network = ∅) ∧
      ∀ p : Prefix, p.bits = target → p.addr.bitLen = base.addr.bitLen →
        p.network ⊆ base.network → ∃ index, (subnet index).network = p.network := by
  refine ⟨fun index => subnet withFirstUsableHost hle hwidth index.isLt, fun index =>
    ⟨generateIPPrefix_eq hle hwidth index.isLt, rfl, rfl, ?_, ?_⟩, fun index other hne => ?_,
    fun p hbits hsame hinside => ?_⟩
  · refine (@network_subset_iff base (subnet withFirstUsableHost hle hwidth index.isLt) hle
      rfl).mpr ((congrArg (· / _) (subnet_div hle hwidth index.isLt)).trans ?_)
    change subnetNumber base target index / 2 ^ (target - base.bits) = _
    rw [subnetNumber, Nat.mul_comm, Nat.mul_add_div (Nat.two_pow_pos _),
      Nat.div_eq_of_lt index.isLt, Nat.add_zero]
  · exact congrArg (· * _ + _) (subnet_div hle hwidth index.isLt).symm
  · refine Set.eq_empty_of_forall_notMem ?_
    rintro n ⟨hn, hother⟩
    have hsame : subnetNumber base target index = subnetNumber base target other :=
      (subnet_div hle hwidth index.isLt).symm.trans
        ((hn.symm.trans hother).trans (subnet_div hle hwidth other.isLt))
    exact hne (Fin.ext (Nat.add_left_cancel hsame))
  · have hhost : p.hostBits = base.addr.bitLen - target := by
      rw [Prefix.hostBits, hsame, hbits]
    have hnumber := (network_subset_iff (hbits ▸ hle) hsame).mp hinside
    rw [hbits] at hnumber
    refine ⟨⟨p.addr.number / 2 ^ p.hostBits % 2 ^ (target - base.bits),
      Nat.mod_lt _ (Nat.two_pow_pos _)⟩, (@network_eq_iff p (subnet withFirstUsableHost hle hwidth
      (Nat.mod_lt _ (Nat.two_pow_pos _))) hhost.symm).mpr ((subnet_div hle hwidth _).trans ?_)⟩
    rw [subnetNumber, ← hnumber, Nat.mul_comm]
    exact Nat.div_add_mod _ _

def sampleBase : Prefix where
  addr := ⟨32, 0x64400000, .inl rfl, by decide⟩
  bits := 11
  bits_le := by decide

theorem generateIPPrefix_subnets_host : ∃ p, generateIPPrefix sampleBase 30 true 3 = .ok p ∧
    Generates sampleBase 30 true p := by
  obtain ⟨subnet, hsubnet, -⟩ :=
    @generateIPPrefix_subnets sampleBase 30 (by decide) (by decide) true
  exact ⟨subnet 3, hsubnet 3⟩

end Pig.Network
