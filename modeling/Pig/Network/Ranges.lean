import Pig.Network.IPv4

namespace Pig.Network

def ipv6loopback : Bytes := List.replicate 15 0 ++ [1]

def isUnspecified (ip : Bytes) : Bool := ipEqual ip ipv4zero || ipEqual ip ipv6zero

def isPrivate (ip : Bytes) : Bool :=
  let v4 := to4 ip
  if v4 ≠ [] then
    v4.getD 0 0 = 10 ∨ v4.getD 0 0 = 172 ∧ v4.getD 1 0 &&& 0xf0 = 16 ∨
      v4.getD 0 0 = 192 ∧ v4.getD 1 0 = 168
  else ip.length = 16 ∧ ip.getD 0 0 &&& 0xfe = 0xfc

def isLoopback (ip : Bytes) : Bool :=
  let v4 := to4 ip
  if v4 ≠ [] then v4.getD 0 0 = 127 else ipEqual ip ipv6loopback

def isLinkLocalUnicast (ip : Bytes) : Bool :=
  let v4 := to4 ip
  if v4 ≠ [] then v4.getD 0 0 = 169 ∧ v4.getD 1 0 = 254
  else ip.length = 16 ∧ ip.getD 0 0 = 0xfe ∧ ip.getD 1 0 &&& 0xc0 = 0x80

/-- An address of either version in the form it has on the wire: one of version
4 is not written as one of version 6. -/
structure IPAddress where
  bytes : Bytes
  canonical : bytes.length = 4 ∨ bytes.length = 16 ∧ bytes.take 12 ≠ v4InV6
  deriving DecidableEq

namespace IPAddress

theorem ext_bytes {a b : IPAddress} (h : a.bytes = b.bytes) : a = b := by
  cases a
  congr

theorem bytes_ne_nil (ip : IPAddress) : ip.bytes ≠ [] := by
  intro hnil
  rcases ip.canonical with hfour | ⟨hsixteen, -⟩
  · simp [hnil] at hfour
  · simp [hnil] at hsixteen

theorem ipEqual_iff (a b : IPAddress) : ipEqual a.bytes b.bytes = true ↔ a = b := by
  have hsame : a = b ↔ a.bytes = b.bytes := ⟨congrArg _, ext_bytes⟩
  rw [hsame, ipEqual]
  split
  · exact decide_eq_true_iff
  · rename_i hlength
    have hne : a.bytes ≠ b.bytes := fun h => hlength (congrArg _ h)
    refine iff_of_false ?_ hne
    rcases a.canonical with ha | ⟨ha, hplain⟩ <;> rcases b.canonical with hb | ⟨hb, hother⟩
    · exact absurd (ha.trans hb.symm) hlength
    · simp [ha, hb, hother]
    · simp [ha, hb, hplain]
    · exact absurd (ha.trans hb.symm) hlength

def reserved4 : List (Nat × Nat) := [(0x0a000000, 0x0affffff), (0xac100000, 0xac1fffff),
    (0xc0a80000, 0xc0a8ffff), (0x7f000000, 0x7fffffff), (0xa9fe0000, 0xa9feffff)]

def reserved6 : List (Nat × Nat) := [(0xfc00 * 2 ^ 112, 0xfe00 * 2 ^ 112 - 1), (1, 1),
    (0xfe80 * 2 ^ 112, 0xfec0 * 2 ^ 112 - 1)]

def Public (ip : IPAddress) : Prop := ∀ block ∈ if ip.bytes.length = 4 then reserved4 else
  reserved6, ¬ (block.1 ≤ ip.bytes.toNatBE ∧ ip.bytes.toNatBE ≤ block.2)

instance (ip : IPAddress) : Decidable ip.Public :=
  inferInstanceAs (Decidable (∀ block ∈ _, ¬ (_ ∧ _)))

theorem and_eq_iff (mask value : UInt8) (low high : Nat) (hall : ∀ n : Fin 256, UInt8.ofFin n &&&
    mask = value ↔ low ≤ n.val ∧ n.val ≤ high) (byte : UInt8) :
    byte &&& mask = value ↔ low ≤ byte.toNat ∧ byte.toNat ≤ high :=
  hall byte.toFin

theorem byte_eq_iff (byte value : UInt8) : byte = value ↔ byte.toNat = value.toNat :=
  UInt8.toNat_inj.symm

theorem exists_highest {bytes : Bytes} {count : Nat} (hlength : bytes.length = count + 2) :
    ∃ low, low < 256 ^ count ∧ (bytes.getD 1 0).toNat < 256 ∧ bytes ≠ [] ∧ bytes.toNatBE =
      ((bytes.getD 0 0).toNat * 256 + (bytes.getD 1 0).toNat) * 256 ^ count + low := by
  rcases bytes with _ | ⟨a, _ | ⟨b, rest⟩⟩
  · cases hlength
  · cases hlength
  have hrest : rest.length = count := by simpa using hlength
  have hlt := Bytes.toNatBE_lt rest
  rw [hrest] at hlt
  refine ⟨Bytes.toNatBE rest, hlt, UInt8.toNat_lt _, List.cons_ne_nil _ _, ?_⟩
  have happend := Bytes.toNatBE_append [a, b] rest
  rw [hrest] at happend
  exact happend.trans (by simp [Bytes.toNatBE])

section

variable {bytes : Bytes} (hfour : bytes.length = 4)

include hfour

theorem isPrivate_iff_of_four : isPrivate bytes = true ↔ (0x0a000000 ≤ bytes.toNatBE ∧ bytes.toNatBE
      ≤ 0x0affffff) ∨ (0xac100000 ≤ bytes.toNatBE ∧ bytes.toNatBE ≤ 0xac1fffff) ∨
      (0xc0a80000 ≤ bytes.toNatBE ∧ bytes.toNatBE ≤ 0xc0a8ffff) := by
  obtain ⟨low, hlow, hsecond, hbytes, hnumber⟩ := exists_highest hfour
  rw [isPrivate, to4_of_length hfour, if_pos hbytes, decide_eq_true_iff,
    and_eq_iff 0xf0 16 16 31 (by decide +kernel), hnumber]
  simp only [byte_eq_iff, UInt8.reduceToNat]
  refine or_congr ?_ (or_congr ?_ ?_) <;> omega

theorem isLoopback_iff_of_four : isLoopback bytes = true ↔
      0x7f000000 ≤ bytes.toNatBE ∧ bytes.toNatBE ≤ 0x7fffffff := by
  obtain ⟨low, hlow, hsecond, hbytes, hnumber⟩ := exists_highest hfour
  rw [isLoopback, to4_of_length hfour, if_pos hbytes, decide_eq_true_iff, hnumber]
  simp only [byte_eq_iff, UInt8.reduceToNat]
  omega

theorem isLinkLocalUnicast_iff_of_four : isLinkLocalUnicast bytes = true ↔
      0xa9fe0000 ≤ bytes.toNatBE ∧ bytes.toNatBE ≤ 0xa9feffff := by
  obtain ⟨low, hlow, hsecond, hbytes, hnumber⟩ := exists_highest hfour
  rw [isLinkLocalUnicast, to4_of_length hfour, if_pos hbytes, decide_eq_true_iff, hnumber]
  simp only [byte_eq_iff, UInt8.reduceToNat]
  omega

end

section

variable {bytes : Bytes} (hsixteen : bytes.length = 16) (hplain : bytes.take 12 ≠ v4InV6)

include hsixteen

include hplain

theorem isPrivate_iff_of_sixteen : isPrivate bytes = true ↔ 0xfc00 * 2 ^ 112 ≤ bytes.toNatBE ∧
        bytes.toNatBE ≤ 0xfe00 * 2 ^ 112 - 1 := by
  obtain ⟨low, hlow, hsecond, -, hnumber⟩ := exists_highest hsixteen
  rw [isPrivate, to4_of_not_mapped hsixteen hplain, if_neg (not_not.2 rfl), decide_eq_true_iff,
    and_iff_right hsixteen, and_eq_iff 0xfe 0xfc 0xfc 0xfd (by decide +kernel), hnumber]
  omega

theorem isLoopback_iff_of_sixteen : isLoopback bytes = true ↔ bytes.toNatBE = 1 := by
  have hlength : bytes.length = ipv6loopback.length := hsixteen
  rw [isLoopback, to4_of_not_mapped hsixteen hplain, if_neg (not_not.2 rfl),
    ipEqual, if_pos hlength, decide_eq_true_iff]
  constructor
  · rintro rfl
    rfl
  · exact Bytes.eq_of_toNatBE_eq hlength

theorem isLinkLocalUnicast_iff_of_sixteen : isLinkLocalUnicast bytes = true ↔ 0xfe80 * 2 ^ 112 ≤
      bytes.toNatBE ∧ bytes.toNatBE ≤ 0xfec0 * 2 ^ 112 - 1 := by
  obtain ⟨low, hlow, hsecond, -, hnumber⟩ := exists_highest hsixteen
  have hvalue : (0xfe : UInt8).toNat = 0xfe := rfl
  rw [isLinkLocalUnicast, to4_of_not_mapped hsixteen hplain, if_neg (not_not.2 rfl),
    decide_eq_true_iff, and_iff_right hsixteen, byte_eq_iff, and_eq_iff 0xc0 0x80 0x80 0xbf
    (by decide +kernel), hvalue, hnumber]
  omega

end

theorem public_iff (ip : IPAddress) : ip.Public ↔ (isPrivate ip.bytes || isLoopback ip.bytes ||
      isLinkLocalUnicast ip.bytes) = false := by
  rcases ip.canonical with hfour | ⟨hsixteen, hplain⟩
  · rw [Public, if_pos hfour, Bool.or_eq_false_iff, Bool.or_eq_false_iff, ← Bool.not_eq_true, ←
      Bool.not_eq_true, ← Bool.not_eq_true, isPrivate_iff_of_four hfour, isLoopback_iff_of_four
      hfour, isLinkLocalUnicast_iff_of_four hfour]
    simp only [reserved4, List.forall_mem_cons, List.not_mem_nil,
      IsEmpty.forall_iff, implies_true, and_true, and_assoc, not_or]
  · rw [Public, if_neg (by omega), Bool.or_eq_false_iff, Bool.or_eq_false_iff, ← Bool.not_eq_true, ←
      Bool.not_eq_true, ← Bool.not_eq_true, isPrivate_iff_of_sixteen hsixteen hplain,
      isLoopback_iff_of_sixteen hsixteen hplain, isLinkLocalUnicast_iff_of_sixteen hsixteen hplain]
    simp only [reserved6, List.forall_mem_cons, List.not_mem_nil, IsEmpty.forall_iff, implies_true,
      and_true, and_assoc, Nat.le_antisymm_iff]
    exact and_congr_right fun _ => and_congr_left fun _ =>
      not_congr and_comm

end IPAddress

end Pig.Network
