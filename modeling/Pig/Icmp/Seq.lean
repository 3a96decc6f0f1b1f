import Pig.Lib.Bytes
import Pig.Lib.Serial

namespace Pig.Icmp

def maxUint32Seq : UInt32 := 0xFFFFFFFF

def halfUint32Seq : UInt32 := 0x80000000

/-- The encapsulation header in front of the data: sequence number, then
acknowledgment number. -/
def eHeaderSize : Nat := 8

def putUint32 (value : UInt32) : Bytes := Bytes.ofNatBE 4 value.toNat

def getUint32 (bytes : Bytes) : UInt32 := UInt32.ofNat bytes.toNatBE

def getSeqAck (payload : Bytes) : UInt32 × UInt32 :=
  (getUint32 (payload.window 0 4), getUint32 (payload.window 4 4))

def isUint32SeqHigher (a b : UInt32) : Bool :=
  if a == b then false else a - b < halfUint32Seq

def uint32SeqDiff (a b : UInt32) : UInt32 := a - b

@[simp] theorem length_putUint32 (value : UInt32) : (putUint32 value).length = 4 :=
  Bytes.length_ofNatBE 4 value.toNat

theorem getUint32_putUint32 (value : UInt32) : getUint32 (putUint32 value) = value := by
  have hbound : value.toNat < 2 ^ 32 := value.toNat_lt
  apply UInt32.toNat_inj.mp
  rw [getUint32, putUint32, Bytes.toNatBE_ofNatBE, UInt32.toNat_ofNat']
  omega

theorem getSeqAck_header (seq ack : UInt32) (data : Bytes) :
    getSeqAck (putUint32 seq ++ putUint32 ack ++ data) = (seq, ack) := by
  have hseq : (putUint32 seq ++ putUint32 ack ++ data).window 0 4 = putUint32 seq := by
    simp [Bytes.window]
  have hack : (putUint32 seq ++ putUint32 ack ++ data).window 4 4 = putUint32 ack := by
    rw [List.append_assoc, Bytes.window, List.drop_left' (length_putUint32 seq),
      List.take_left' (length_putUint32 ack)]
  rw [getSeqAck, hseq, hack, getUint32_putUint32, getUint32_putUint32]

theorem isUint32SeqHigher_iff (a b : UInt32) : isUint32SeqHigher a b = true ↔
      Serial.After (w := 31) a.toBitVec b.toBitVec := by
  unfold isUint32SeqHigher Serial.After
  by_cases heq : a = b
  · simp [heq]
  · have hne : a.toBitVec ≠ b.toBitVec := fun h => heq (UInt32.eq_of_toBitVec_eq h)
    simp [heq, hne, halfUint32Seq, UInt32.lt_iff_toNat_lt, ← UInt32.toBitVec_sub]

@[simp] theorem isUint32SeqHigher_self (a : UInt32) : isUint32SeqHigher a a = false := by
  simp [isUint32SeqHigher]

theorem eq_of_uint32SeqDiff_eq_zero {a b : UInt32} (hzero : uint32SeqDiff a b = 0) : a = b := by
  rw [← UInt32.sub_add_cancel a b]
  exact (congrArg (· + b) hzero).trans (UInt32.zero_add _)

theorem uint32SeqDiff_pos {a b : UInt32} (hhigher : isUint32SeqHigher a b = true) :
    0 < (uint32SeqDiff a b).toNat := by
  rw [Nat.pos_iff_ne_zero]
  intro hzero
  obtain rfl := eq_of_uint32SeqDiff_eq_zero (UInt32.toNat_inj.mp hzero)
  simp at hhigher

theorem isUint32SeqHigher_asymm {a b : UInt32} (hhigher : isUint32SeqHigher a b = true) :
    isUint32SeqHigher b a = false := by
  have hnear : (a - b).toNat < 2 ^ 31 := by
    rw [isUint32SeqHigher_iff] at hhigher
    exact hhigher.2
  have hpos : 0 < (a - b).toNat := uint32SeqDiff_pos hhigher
  have hforth := UInt32.toNat_sub a b
  have hback := UInt32.toNat_sub b a
  have ha := a.toNat_lt
  have hb := b.toNat_lt
  by_contra hboth
  rw [Bool.not_eq_false, isUint32SeqHigher_iff] at hboth
  have hnearer : (b - a).toNat < 2 ^ 31 := hboth.2
  omega

theorem isUint32SeqHigher_ofNat_iff {a b : Nat} (ha : a < b + 2 ^ 31) (hb : b < a + 2 ^ 31) :
    isUint32SeqHigher (UInt32.ofNat a) (UInt32.ofNat b) = true ↔ b < a := by
  rw [isUint32SeqHigher_iff]
  exact Serial.after_ofNat_iff (w := 31) a b ha hb

theorem isUint32SeqHigher_iff_toNat {a b : UInt32} (ha : a.toNat < 2 ^ 31) (hb : b.toNat < 2 ^ 31) :
    isUint32SeqHigher a b = true ↔ b.toNat < a.toNat := by
  have horder := isUint32SeqHigher_ofNat_iff (a := a.toNat) (b := b.toNat) (by omega) (by omega)
  simpa using horder

theorem eq_of_not_higher {a b : UInt32} (ha : a.toNat < 2 ^ 31) (hb : b.toNat < 2 ^ 31)
    (hab : isUint32SeqHigher a b = false) (hba : isUint32SeqHigher b a = false) : a = b := by
  have hle := (isUint32SeqHigher_iff_toNat ha hb).not
  have hge := (isUint32SeqHigher_iff_toNat hb ha).not
  simp only [hab, hba, Bool.false_eq_true, not_false_eq_true, true_iff] at hle hge
  exact UInt32.toNat_inj.mp (by omega)

end Pig.Icmp
