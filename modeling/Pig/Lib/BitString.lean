import Pig.Lib.Bytes

namespace Pig.BitString

/-! Numbers of a fixed width read as bit strings, most significant bit first,
and the number of leading bits that two of them share. -/

def bit (width number position : Nat) : Bool := number.testBit (width - 1 - position)

def leading (width number length : Nat) : List Bool := (List.range length).map (bit width number)

variable {width number other length shorter : Nat}

@[simp] theorem length_leading : (leading width number length).length =
    length := by
  simp [leading]

theorem leading_succ : leading width number (length + 1) =
    leading width number length ++ [bit width number length] := by
  simp [leading, List.range_succ]

theorem take_leading (h : shorter ≤ length) : (leading width number length).take shorter =
      leading width number shorter := by
  rw [leading, ← List.map_take, List.take_range, Nat.min_eq_left h, leading]

theorem leading_isPrefix (h : shorter ≤ length) :
    leading width number shorter <+: leading width number length := by
  rw [← take_leading h]
  exact List.take_prefix _ _

theorem isPrefix_leading_iff {front : List Bool} : front <+: leading width number length ↔
      front.length ≤ length ∧ front = leading width number front.length := by
  constructor
  · intro hfront
    have hle : front.length ≤ length := by simpa using hfront.length_le
    refine ⟨hle, ?_⟩
    rw [← take_leading hle]
    exact List.prefix_iff_eq_take.mp hfront
  · rintro ⟨hle, hfront⟩
    rw [hfront]
    exact leading_isPrefix hle

theorem leading_eq_iff : leading width number length = leading width other length ↔ ∀ position <
    length, bit width number position = bit width other position := by
  simp [leading]

def Masked (width number length : Nat) : Prop := ∀ position, length ≤ position → position < width →
    bit width number position = false

theorem eq_of_leading_eq (hnumber : number < 2 ^ width) (hother : other < 2 ^ width)
    (masked : Masked width number length) (maskedOther : Masked width other length)
    (heq : leading width number length = leading width other length) :
    number = other := by
  apply Nat.eq_of_testBit_eq
  intro index
  by_cases hindex : index < width
  · have hposition : width - 1 - (width - 1 - index) = index := by omega
    have hbit : bit width number (width - 1 - index) = bit width other (width - 1 - index) := by
      by_cases hfront : width - 1 - index < length
      · exact leading_eq_iff.mp heq _ hfront
      · rw [masked _ (by omega) (by omega), maskedOther _ (by omega) (by omega)]
    rwa [bit, bit, hposition] at hbit
  · have hpow : 2 ^ width ≤ 2 ^ index := Nat.pow_le_pow_right (by decide) (by omega)
    rw [Nat.testBit_lt_two_pow (Nat.lt_of_lt_of_le hnumber hpow),
      Nat.testBit_lt_two_pow (Nat.lt_of_lt_of_le hother hpow)]

def bitLen (number : Nat) : Nat := if number = 0 then 0 else number.log2 + 1

theorem bitLen_le_iff : bitLen number ≤ length ↔ number < 2 ^ length := by
  rw [bitLen]
  split
  · next hzero =>
      rw [hzero]
      exact iff_of_true (Nat.zero_le _) (Nat.two_pow_pos _)
  · next hzero => exact Nat.log2_lt hzero

def common (width number other : Nat) : Nat :=
  if bitLen (number ^^^ other) = 0 then width
  else width - bitLen (number ^^^ other)

theorem common_eq : common width number other = width - bitLen (number ^^^ other) := by
  rw [common]
  split
  · next hzero => rw [hzero, Nat.sub_zero]
  · rfl

theorem common_le : common width number other ≤ width := by
  rw [common_eq]
  exact Nat.sub_le _ _

theorem le_common_iff (hnumber : number < 2 ^ width)
    (hother : other < 2 ^ width) (hlength : length ≤ width) :
    length ≤ common width number other ↔
      leading width number length = leading width other length := by
  have hxor : number ^^^ other < 2 ^ width := Nat.xor_lt_two_pow hnumber hother
  have hbitLen := bitLen_le_iff.mpr hxor
  have hiff : length ≤ common width number other ↔ number ^^^ other < 2 ^ (width - length) := by
    rw [common_eq, ← bitLen_le_iff]
    omega
  rw [hiff, leading_eq_iff]
  constructor
  · intro hlt position hposition
    have hbit := Nat.testBit_lt_two_pow (i := width - 1 - position)
      (Nat.lt_of_lt_of_le hlt (Nat.pow_le_pow_right (by decide) (by omega)))
    simpa [bit] using hbit
  · intro heq
    apply Nat.lt_pow_two_of_testBit
    intro index hindex
    rw [Nat.testBit_xor]
    by_cases hinside : index < width
    · have hposition := heq (width - 1 - index) (by omega)
      rw [bit, bit, show width - 1 - (width - 1 - index) = index by omega] at hposition
      simp [hposition]
    · have hpow : 2 ^ width ≤ 2 ^ index := Nat.pow_le_pow_right (by decide) (by omega)
      rw [Nat.testBit_lt_two_pow (Nat.lt_of_lt_of_le hnumber hpow),
        Nat.testBit_lt_two_pow (Nat.lt_of_lt_of_le hother hpow)]
      rfl

theorem bit_common_ne (hnumber : number < 2 ^ width)
    (hother : other < 2 ^ width) (hcommon : common width number other < width) :
    bit width number (common width number other) =
      !bit width other (common width number other) := by
  have hshared := (le_common_iff hnumber hother common_le).mp (Nat.le_refl _)
  have hends : leading width number (common width number other + 1) ≠
      leading width other (common width number other + 1) := fun heq =>
    Nat.not_succ_le_self _ ((le_common_iff hnumber hother hcommon).mpr heq)
  rw [leading_succ, leading_succ, hshared, Ne, List.append_right_inj] at hends
  exact Bool.eq_not.mpr (by simpa using hends)

def ofByte (byte : UInt8) : List Bool := leading 8 byte.toNat 8

def ofBytes (bytes : Bytes) : List Bool := bytes.flatMap ofByte

@[simp] theorem ofBytes_cons (byte : UInt8) (bytes : Bytes) :
    ofBytes (byte :: bytes) = ofByte byte ++ ofBytes bytes := rfl

@[simp] theorem length_ofByte (byte : UInt8) : (ofByte byte).length = 8 := length_leading

@[simp] theorem length_ofBytes (bytes : Bytes) : (ofBytes bytes).length = 8 * bytes.length := by
  induction bytes with
  | nil => rfl
  | cons byte bytes ih => simp [ih]; omega

variable {position : Nat}

theorem bit_append_byte {byte : UInt8} (hposition : position < width) :
    bit (width + 8) (number * 256 + byte.toNat) position = bit width number position := by
  have hbyte : byte.toNat < 2 ^ 8 := byte.toNat_lt
  rw [bit, bit, Nat.mul_comm, show 256 = 2 ^ 8 from rfl,
    Nat.testBit_two_pow_mul_add _ hbyte, if_neg (by omega)]
  congr 1
  omega

theorem bit_last_byte {byte : UInt8} (hposition : position < 8) :
    bit (width + 8) (number * 256 + byte.toNat) (width + position) = bit 8 byte.toNat position := by
  have hbyte : byte.toNat < 2 ^ 8 := byte.toNat_lt
  rw [bit, bit, Nat.mul_comm, show 256 = 2 ^ 8 from rfl,
    Nat.testBit_two_pow_mul_add _ hbyte, if_pos (by omega)]
  congr 1
  omega

theorem leading_toNatBE (bytes : Bytes) :
    leading (8 * bytes.length) bytes.toNatBE (8 * bytes.length) = ofBytes bytes := by
  induction bytes using List.reverseRecOn with
  | nil => rfl
  | append_singleton bytes byte ih =>
    have hlast : ofBytes (bytes ++ [byte]) = ofBytes bytes ++ ofByte byte := by
      simp [ofBytes]
    rw [hlast, ← ih, Bytes.toNatBE_append_singleton, List.length_append, List.length_singleton,
      Nat.mul_add, Nat.mul_one, leading, List.range_add, List.map_append, List.map_map]
    congr 1
    · apply List.map_congr_left
      intro position hposition
      exact bit_append_byte (List.mem_range.mp hposition)
    · apply List.map_congr_left
      intro position hposition
      exact bit_last_byte (List.mem_range.mp hposition)

theorem toNatBE_lt_two_pow (bytes : Bytes) : bytes.toNatBE < 2 ^ (8 * bytes.length) := by
  rw [Nat.pow_mul]
  exact Bytes.toNatBE_lt bytes

theorem bit_toNatBE {bytes : Bytes}
    (hwidth : 8 * bytes.length = width) (hposition : position < width) :
    (ofBytes bytes)[position]? = some (bit width bytes.toNatBE position) := by
  subst hwidth
  rw [← leading_toNatBE, leading, List.getElem?_map, List.getElem?_range hposition]
  rfl

end Pig.BitString
