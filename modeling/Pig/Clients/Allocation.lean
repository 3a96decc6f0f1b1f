import Mathlib.Order.Bounds.Basic
import Pig.Clients.Pool
import Pig.Lib.Run
import Pig.Routing.Network

namespace Pig.Clients

open Network Routing BitString

inductive PoolEvent where
  | allocate (reply : Except String Bytes)
  | setUsed (ip : Bytes)
  | release (ip : Bytes)
  deriving DecidableEq

namespace IPPool

def step (p : IPPool) : PoolEvent → Option IPPool
  | .allocate reply => if p.allocate.1 = reply then some p.allocate.2 else none
  | .setUsed ip => some (p.setUsed ip)
  | .release ip => some (p.release ip)

end IPPool

def PoolEvent.hold (number : Bytes → Nat) (held : Set Nat) : PoolEvent → Set Nat
  | .allocate (.ok ip) => insert ip.toNatBE held
  | .allocate (.error _) => held
  | .setUsed ip => insert (number ip) held
  | .release ip => held \ {number ip}

/-- The numbers that were allocated or marked and not released since. -/
def holding (number : Bytes → Nat) (events : List PoolEvent) : Set Nat :=
  events.foldl (PoolEvent.hold number) ∅

def addressNumber (net : IPNet) (ip : Bytes) : Nat := (newIPPool net).ipToBigInt ip

def networkNumber (net : IPNet) : Nat := addressNumber net net.ip

def lastNumber (net : IPNet) : Nat := networkNumber net + (maxHosts net - 1)

def Usable (net : IPNet) (n : Nat) : Prop := networkNumber net < n ∧ n < lastNumber net

theorem toNatBE_lt_of_length {bytes : Bytes} (h : bytes.length ≤ 16) : bytes.toNatBE < 2 ^ 128 :=
  calc bytes.toNatBE < 256 ^ bytes.length := Bytes.toNatBE_lt bytes
    _ ≤ 256 ^ 16 := Nat.pow_le_pow_right (by decide) h
    _ = 2 ^ 128 := by decide

theorem addressNumber_lt (net : IPNet) (ip : Bytes) : addressNumber net ip < 2 ^ 128 := by
  unfold addressNumber IPPool.ipToBigInt
  split
  · apply toNatBE_lt_of_length
    by_cases hip : to4 ip = []
    · rw [hip]
      exact Nat.zero_le 16
    · rw [length_to4 hip]
      decide
  · apply toNatBE_lt_of_length
    unfold to16
    split
    · next hshort =>
        rw [List.length_append, hshort]
        decide
    · split
      · next hlong => exact Nat.le_of_eq hlong
      · exact Nat.zero_le 16

theorem dvd_of_masked {width ones number : Nat} (hones : ones ≤ width)
    (masked : Masked width number ones) : 2 ^ (width - ones) ∣ number := by
  apply Nat.dvd_of_mod_eq_zero
  apply Nat.eq_of_testBit_eq
  intro index
  rw [Nat.testBit_mod_two_pow, Nat.zero_testBit]
  by_cases hindex : index < width - ones
  · have hbit := masked (width - 1 - index) (by omega) (by omega)
    rw [bit, show width - 1 - (width - 1 - index) = index by omega] at hbit
    rw [hbit, Bool.and_false]
  · simp [hindex]

theorem add_le_of_dvd {step number bound : Nat} (hnumber : step ∣ number) (hbound : step ∣ bound)
    (hlt : number < bound) : number + step ≤ bound := by
  obtain ⟨rounds, rfl⟩ := hnumber
  obtain ⟨limit, rfl⟩ := hbound
  exact Nat.mul_le_mul_left _ (Nat.lt_of_mul_lt_mul_left hlt)

section

variable {net : IPNet}

theorem maxHosts_eq (isNetwork : IsNetwork net) :
    ∃ hostBits ≤ 8 * net.mask.length, maxHosts net = 2 ^ hostBits ∧
      2 ^ hostBits ∣ net.wide.toNatBE := by
  obtain ⟨ones, hones⟩ := Option.ne_none_iff_exists'.mp isNetwork.contiguous
  obtain ⟨hle, -⟩ := ofBytes_mask hones
  have hsame : maskedAddress net.wide net.mask ones = net.wide := by
    rw [maskedAddress, isNetwork.zipWith_wide]
    exact ite_self ..
  have hmasked := masked_maskedAddress isNetwork.length_wide rfl hones
  rw [hsame] at hmasked
  refine ⟨8 * net.mask.length - ones, Nat.sub_le _ _, ?_, dvd_of_masked hle hmasked⟩
  rw [maxHosts, maskSize_eq hones, Nat.mul_comm]

def addressWidth (net : IPNet) : Nat := (newIPPool net).family.bitWidth

theorem addressWidth_eq (net : IPNet) : addressWidth net = 32 ∨ addressWidth net = 128 := by
  rw [addressWidth]
  cases (newIPPool net).family
  · exact .inl rfl
  · exact .inr rfl

theorem networkNumber_of_inet6 (hnet : to4 net.ip = [] ∧ to16 net.ip ≠ []) :
    addressWidth net = 128 ∧ ∀ ip, addressNumber net ip = (to16 ip).toNatBE := by
  have hfamily : (newIPPool net).family = .inet6 := if_pos hnet
  rw [addressWidth, hfamily]
  refine ⟨rfl, fun ip => ?_⟩
  rw [addressNumber, IPPool.ipToBigInt, hfamily]

theorem networkNumber_of_inet (hnet : ¬ (to4 net.ip = [] ∧ to16 net.ip ≠ [])) :
    addressWidth net = 32 ∧ ∀ ip, addressNumber net ip = (to4 ip).toNatBE := by
  have hfamily : (newIPPool net).family = .inet := if_neg hnet
  rw [addressWidth, hfamily]
  refine ⟨rfl, fun ip => ?_⟩
  rw [addressNumber, IPPool.ipToBigInt, hfamily]

theorem networkNumber_add_le (isNetwork : IsNetwork net) :
    networkNumber net + maxHosts net ≤ 2 ^ addressWidth net := by
  obtain ⟨hostBits, hle, hhosts, hdvd⟩ := maxHosts_eq isNetwork
  rw [hhosts, networkNumber]
  by_cases hnet : to4 net.ip = []
  · obtain ⟨hip, -⟩ | ⟨hip, hmask⟩ := isNetwork.width
    · exact absurd hnet hip
    · have hlong : ¬ net.mask.length = 4 := by omega
      have hwide : net.wide = to16 net.ip := by
        rw [IPNet.wide, if_neg hlong, to16_of_length hip]
      have hlength : (to16 net.ip).length = 16 := by rw [to16_of_length hip, hip]
      obtain ⟨hwidth, hnumber⟩ := networkNumber_of_inet6
        ⟨hnet, List.ne_nil_of_length_pos (by omega)⟩
      rw [hwidth, hnumber, ← hwide]
      refine add_le_of_dvd hdvd (Nat.pow_dvd_pow 2 (by omega)) ?_
      rw [hwide]
      exact toNatBE_lt_of_length (by omega)
  · obtain ⟨hwidth, hnumber⟩ := networkNumber_of_inet fun h => hnet h.1
    have hlt : (to4 net.ip).toNatBE < 2 ^ 32 := by
      have := Bytes.toNatBE_lt (to4 net.ip)
      rwa [length_to4 hnet] at this
    rw [hwidth, hnumber]
    obtain ⟨-, hmask⟩ | ⟨hip, hmask⟩ := isNetwork.width
    · rw [IPNet.wide, if_pos hmask] at hdvd
      exact add_le_of_dvd hdvd (Nat.pow_dvd_pow 2 (by omega)) hlt
    · -- The network is spelled with sixteen bytes, but it is one of four.
      have hwide : net.wide.toNatBE = 0xffff * 2 ^ 32 + (to4 net.ip).toNatBE := by
        have hmapped := to16_eq_append hnet
        rw [to16_of_length hip] at hmapped
        rw [IPNet.wide, if_neg (by omega), hmapped, Bytes.toNatBE_append, ← hmapped,
          length_to4 hnet]
        rfl
      have hshort : hostBits ≤ 32 := by
        by_contra hlong
        have h := Nat.dvd_trans (Nat.pow_dvd_pow 2 (by omega : 33 ≤ hostBits)) hdvd
        omega
      rw [hwide] at hdvd
      have hpow : 2 ^ hostBits ∣ 2 ^ 32 := Nat.pow_dvd_pow 2 hshort
      exact add_le_of_dvd ((Nat.dvd_add_right (Nat.dvd_mul_left_of_dvd hpow _)).1 hdvd) hpow hlt

theorem lt_of_usable (isNetwork : IsNetwork net) {n : Nat}
    (husable : Usable net n) : n < 2 ^ 128 := by
  have hroom := networkNumber_add_le isNetwork
  have hlast := husable.2
  rw [lastNumber] at hlast
  obtain hwidth | hwidth := addressWidth_eq net
  all_goals
    rw [hwidth] at hroom
    omega

end

namespace IPPool

theorem key_mem_of_lt_allocateFrom (p : IPPool) {hosts start addr : Nat}
    (h : p.allocateFrom hosts start = some addr) :
    ∀ n, start ≤ n → n < addr → key n ∈ p.used := by
  induction hosts generalizing start with
  | zero => simp [allocateFrom] at h
  | succ hosts ih =>
    intro n hle hlt
    unfold allocateFrom at h
    split at h
    · next hused =>
        by_cases heq : n = start
        · rwa [heq]
        · exact ih h n (by omega) hlt
    · cases h
      omega

structure Records (p : IPPool) (net : IPNet) (held : Set Nat) : Prop where
  network_eq : p.network = net
  family_eq : p.family = (newIPPool net).family
  maxHosts_eq : p.maxHosts = Clients.maxHosts net - 2
  used_iff : ∀ n < 2 ^ 128, key n ∈ p.used ↔ n ∈ held

namespace Records

variable {p : IPPool} {net : IPNet} {held : Set Nat}

theorem new (net : IPNet) : (newIPPool net).Records net ∅ where
  network_eq := rfl
  family_eq := rfl
  maxHosts_eq := rfl
  used_iff := by
    simp [newIPPool]

theorem ipToBigInt_eq (records : p.Records net held) (ip : Bytes) :
    p.ipToBigInt ip = addressNumber net ip := by
  rw [addressNumber, ipToBigInt, ipToBigInt, records.family_eq]

theorem key_eq_key_iff {m n : Nat} (hm : m < 2 ^ 128) (hn : n < 2 ^ 128) :
    key m = key n ↔ m = n := by
  rw [key_eq_iff, Nat.mod_eq_of_lt hm, Nat.mod_eq_of_lt hn]

variable (records : p.Records net held)

include records

theorem mark {n : Nat} (hn : n < 2 ^ 128) :
    (p.mark n).Records net (insert n held) where
  network_eq := records.network_eq
  family_eq := records.family_eq
  maxHosts_eq := records.maxHosts_eq
  used_iff := by
    intro other hother
    rw [IPPool.mark, Finset.mem_insert, Set.mem_insert_iff,
      records.used_iff other hother, key_eq_key_iff hother hn]

theorem release (ip : Bytes) :
    (p.release ip).Records net (held \ {addressNumber net ip}) where
  network_eq := records.network_eq
  family_eq := records.family_eq
  maxHosts_eq := records.maxHosts_eq
  used_iff := by
    intro other hother
    rw [IPPool.release, records.ipToBigInt_eq, Finset.mem_erase, records.used_iff other hother, Ne,
      key_eq_key_iff hother (addressNumber_lt net ip)]
    exact and_comm

theorem usable_iff {n : Nat} :
    Usable net n ↔ p.first ≤ n ∧ n < p.first + p.maxHosts.toNat := by
  have hfirst : p.first = networkNumber net + 1 := by
    rw [first, records.ipToBigInt_eq, records.network_eq, networkNumber]
  rw [Usable, lastNumber, hfirst, records.maxHosts_eq]
  omega

theorem allocate (isNetwork : IsNetwork net) :
    (∃ n, IsLeast {n | Usable net n ∧ n ∉ held} n ∧ p.allocate = (.ok (bigBytes n), p.mark n)) ∨
    (∀ n, Usable net n → n ∈ held) ∧
      p.allocate = (.error "no available IPs in pool", p) := by
  have hheld : ∀ {n}, Usable net n → (key n ∈ p.used ↔ n ∈ held) :=
    fun husable => records.used_iff _ (lt_of_usable isNetwork husable)
  unfold IPPool.allocate
  split
  · next addr hsome =>
      obtain ⟨hlow, hhigh, hfree⟩ := p.allocateFrom_eq_some hsome
      have husable : Usable net addr := records.usable_iff.mpr ⟨hlow, hhigh⟩
      refine .inl ⟨addr, ⟨⟨husable, fun h => hfree ((hheld husable).mpr h)⟩, ?_⟩, rfl⟩
      rintro n ⟨hn, hnot⟩
      by_contra hlt
      exact hnot ((hheld hn).mp (p.key_mem_of_lt_allocateFrom hsome n
        (records.usable_iff.mp hn).1 (by omega)))
  · next hnone =>
      refine .inr ⟨fun n hn => (hheld hn).mp ?_, rfl⟩
      obtain ⟨hlow, hhigh⟩ := records.usable_iff.mp hn
      exact p.allocateFrom_eq_none_iff.mp hnone n hlow hhigh

theorem step (isNetwork : IsNetwork net)
    {event : PoolEvent} {after : IPPool} (h : p.step event = some after) :
    after.Records net (event.hold (addressNumber net) held) := by
  cases event with
  | allocate reply =>
    simp only [IPPool.step, Option.ite_none_right_eq_some, Option.some.injEq] at h
    obtain ⟨rfl, rfl⟩ := h
    obtain ⟨n, hleast, heq⟩ | ⟨-, heq⟩ := records.allocate isNetwork
    · rw [heq]
      simp only [PoolEvent.hold, toNatBE_bigBytes]
      exact records.mark (lt_of_usable isNetwork hleast.1.1)
    · rw [heq]
      exact records
  | setUsed ip =>
    cases h
    rw [setUsed, records.ipToBigInt_eq]
    exact records.mark (addressNumber_lt net ip)
  | release ip =>
    cases h
    exact records.release ip

end Records

variable {net : IPNet} {events : List PoolEvent} {last : IPPool}

theorem records_of_run (isNetwork : IsNetwork net)
    (run : Run step (fun _ _ => True) (newIPPool net) events last) :
    last.Records net (holding (addressNumber net) events) := by
  induction run with
  | start => exact .new net
  | next _ _ taken ih =>
    rw [holding, List.foldl_append]
    exact ih.step isNetwork taken

end IPPool

variable {net : IPNet}

/-- After any calls a pool hands out the least of the usable addresses that are
not held, and fails only if there is none. -/
theorem allocate_isLeast (isNetwork : IsNetwork net) {events : List PoolEvent}
    {last : IPPool} (run : Run IPPool.step (fun _ _ => True) (newIPPool net) events last) :
    ((∃ ip, last.allocate.1 = .ok ip) ↔
      ∃ n, Usable net n ∧ n ∉ holding (addressNumber net) events) ∧
    (∀ ip, last.allocate.1 = .ok ip →
      IsLeast {n | Usable net n ∧ n ∉ holding (addressNumber net) events} ip.toNatBE) ∧
    (∀ before ip after, events = before ++ .allocate (.ok ip) :: after →
        ip.toNatBE ∉ holding (addressNumber net) before) ∧
    ∀ n < 2 ^ 128, key n ∈ last.used ↔ n ∈ holding (addressNumber net) events := by
  have records := IPPool.records_of_run isNetwork run
  have hleast : ∀ {p : IPPool} {held : Set Nat} {ip : Bytes}, p.Records net held → p.allocate.1 =
      .ok ip → IsLeast {n | Usable net n ∧ n ∉ held} ip.toNatBE := by
    intro p held ip records hip
    obtain ⟨n, hleast, heq⟩ | ⟨-, heq⟩ := records.allocate isNetwork
    · rw [heq] at hip
      cases hip
      rwa [toNatBE_bigBytes]
    · rw [heq] at hip
      cases hip
  refine ⟨⟨?_, ?_⟩, fun ip => hleast records, ?_, records.used_iff⟩
  · rintro ⟨ip, hip⟩
    exact ⟨_, (hleast records hip).1⟩
  · rintro ⟨n, hn, hfree⟩
    obtain ⟨least, -, heq⟩ | ⟨hall, -⟩ := records.allocate isNetwork
    · exact ⟨_, congrArg Prod.fst heq⟩
    · exact absurd (hall n hn) hfree
  · rintro before ip after rfl
    obtain ⟨middle, hbefore, hafter⟩ := run.split
    obtain ⟨next, -, htaken, -⟩ := hafter.of_cons
    simp only [IPPool.step, Option.ite_none_right_eq_some] at htaken
    exact (hleast (IPPool.records_of_run isNetwork hbefore) htaken.1).1.2

/-- In 10.8.0.0/29 the released address comes before the free ones. -/
theorem allocate_isLeast_released : ∃ last, Run IPPool.step (fun _ _ => True)
      (newIPPool ⟨[10, 8, 0, 0], [255, 255, 255, 248]⟩) [.setUsed [10, 8, 0, 1], .allocate
      (.ok [10, 8, 0, 2]), .allocate (.ok [10, 8, 0, 3]), .release [10, 8, 0, 2]] last ∧
      last.allocate.1 = .ok [10, 8, 0, 2] ∧
      IsLeast {n | Usable ⟨[10, 8, 0, 0], [255, 255, 255, 248]⟩ n ∧
        n ∉ holding (addressNumber ⟨[10, 8, 0, 0], [255, 255, 255, 248]⟩)
          [.setUsed [10, 8, 0, 1], .allocate (.ok [10, 8, 0, 2]),
            .allocate (.ok [10, 8, 0, 3]), .release [10, 8, 0, 2]]}
        (Bytes.toNatBE [10, 8, 0, 2]) :=
  Run.exists_of_exec_imp (fun last => last.allocate.1 = .ok [10, 8, 0, 2]) (by decide +kernel)
    fun _ run hnext => ⟨hnext, (allocate_isLeast (by decide) run).2.1 _ hnext⟩

/-- What is expected of an address that a pool of the network has handed out. -/
structure Serviceable (net : IPNet) (ip : Bytes) : Prop where
  length_eq : ip.length = addressWidth net / 8
  inside : networkNumber net ≤ ip.toNatBE ∧ ip.toNatBE ≤ lastNumber net
  number_eq : addressNumber net ip = ip.toNatBE
  released : ∀ p : IPPool, p.family = (newIPPool net).family → ∀ n < 2 ^ 128,
    key n ∈ (p.release ip).used ↔ key n ∈ p.used ∧ n ≠ ip.toNatBE

def Serves (net : IPNet) : Prop := ∀ events last ip, Run IPPool.step (fun _ _ => True)
  (newIPPool net) events last → last.allocate.1 = .ok ip → Serviceable net ip

theorem addressNumber_of_length {ip : Bytes}
    (hlength : ip.length = addressWidth net / 8) : addressNumber net ip = ip.toNatBE := by
  by_cases hnet : to4 net.ip = [] ∧ to16 net.ip ≠ []
  · obtain ⟨hwidth, hnumber⟩ := networkNumber_of_inet6 hnet
    rw [hwidth] at hlength
    rw [hnumber, to16_of_length hlength]
  · obtain ⟨hwidth, hnumber⟩ := networkNumber_of_inet hnet
    rw [hwidth] at hlength
    rw [hnumber, to4_of_length hlength]

theorem serviceable_bigBytes (isNetwork : IsNetwork net) {n : Nat}
    (husable : Usable net n) (hlow : 2 ^ (addressWidth net - 8) ≤ n) :
    Serviceable net (bigBytes n) := by
  have hlength : (bigBytes n).length = addressWidth net / 8 := by
    have hroom := networkNumber_add_le isNetwork
    have hlast := husable.2
    rw [lastNumber] at hlast
    obtain hwidth | hwidth := addressWidth_eq net
    all_goals
      rw [hwidth] at hroom hlow ⊢
      exact length_bigBytes hlow (by omega)
  have hnumber := addressNumber_of_length hlength
  refine ⟨hlength, ?_, hnumber, fun p hfamily m hm => ?_⟩
  · rw [toNatBE_bigBytes]
    exact ⟨Nat.le_of_lt husable.1, Nat.le_of_lt husable.2⟩
  · have hsame : p.ipToBigInt (bigBytes n) = addressNumber net (bigBytes n) := by
      rw [addressNumber, IPPool.ipToBigInt, IPPool.ipToBigInt, hfamily]
    rw [IPPool.release, hsame, hnumber, Finset.mem_erase, and_comm, Ne,
      IPPool.Records.key_eq_key_iff hm]
    rw [toNatBE_bigBytes]
    exact lt_of_usable isNetwork husable

/-- The addresses of a network are serviceable exactly if the first byte of its
first host is not zero, unless it has no hosts. -/
theorem serves_iff (isNetwork : IsNetwork net) : Serves net ↔
    ((∃ n, Usable net n) → 2 ^ (addressWidth net - 8) ≤ networkNumber net + 1) := by
  constructor
  · rintro serves ⟨n, husable⟩
    have hfirst : Usable net (networkNumber net + 1) :=
      ⟨Nat.lt_succ_self _, Nat.lt_of_le_of_lt husable.1 husable.2⟩
    obtain ⟨least, hleast, hallocate⟩ | ⟨hall, -⟩ := (IPPool.Records.new net).allocate isNetwork
    · have hle := hleast.2 ⟨hfirst, Set.notMem_empty _⟩
      have hlength := (serves [] _ _ (.start _) (congrArg Prod.fst hallocate)).length_eq
      by_contra hlow
      have hshort : bitLen least ≤ addressWidth net - 8 := bitLen_le_iff.2 (by omega)
      rw [bigBytes, Bytes.length_ofNatBE] at hlength
      obtain hwidth | hwidth := addressWidth_eq net <;> omega
    · cases hall n husable
  · intro hlow events last ip run hip
    obtain ⟨n, hleast, hallocate⟩ | ⟨-, hallocate⟩ :=
      (IPPool.records_of_run isNetwork run).allocate isNetwork
    · rw [hallocate] at hip
      cases hip
      exact serviceable_bigBytes isNetwork hleast.1.1
        (Nat.le_trans (hlow ⟨n, hleast.1.1⟩) hleast.1.1.1)
    · rw [hallocate] at hip
      cases hip

theorem serves_iff_private : Serves ⟨[10, 8, 0, 0], [255, 255, 255, 0]⟩ :=
  (serves_iff (by decide)).mpr fun _ => by decide

/-- In 0.0.0.0/8 the first address that is handed out has one byte, and it is
not released. -/
theorem not_serves_zero : ∃ last, (newIPPool ⟨[0, 0, 0, 0], [255, 0, 0, 0]⟩).allocate =
      (.ok [1], last) ∧ key 1 ∈ (last.release [1]).used ∧
    ¬ Serves ⟨[0, 0, 0, 0], [255, 0, 0, 0]⟩ := by
  refine ⟨_, rfl, by decide, fun serves => ?_⟩
  have hlength := (serves [] _ [1] (.start _) rfl).length_eq
  exact absurd hlength (by decide)

end Pig.Clients
