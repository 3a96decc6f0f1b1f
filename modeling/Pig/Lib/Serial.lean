import Mathlib.Algebra.Ring.Nat
import Mathlib.Data.Nat.Basic

namespace Pig.Serial

/-! Serial-number order: `left` comes after `right` when it lies in the half of
the circle that starts just above `right`. -/

variable {w : Nat}

def After (left right : BitVec (w + 1)) : Prop := left ≠ right ∧ (left - right).toNat < 2 ^ w

instance (left right : BitVec (w + 1)) : Decidable (After left right) :=
  inferInstanceAs (Decidable (_ ∧ _))

theorem toNat_ofNat_sub_ofNat (left right : Nat) (hle : right ≤ left)
    (hnear : left < right + 2 ^ (w + 1)) :
    (BitVec.ofNat (w + 1) left - BitVec.ofNat (w + 1) right).toNat = left - right := by
  obtain ⟨distance, rfl⟩ := Nat.exists_eq_add_of_le hle
  have hsmall : distance < 2 ^ (w + 1) := by omega
  have hsum : BitVec.ofNat (w + 1) (right + distance) =
      BitVec.ofNat (w + 1) distance + BitVec.ofNat (w + 1) right := by
    rw [BitVec.ofNat_add, BitVec.add_comm]
  rw [hsum, BitVec.add_sub_cancel, BitVec.toNat_ofNat, Nat.mod_eq_of_lt hsmall]
  omega

theorem after_ofNat_iff (left right : Nat) (hleft : left < right + 2 ^ w)
    (hright : right < left + 2 ^ w) :
    After (BitVec.ofNat (w + 1) left) (BitVec.ofNat (w + 1) right) ↔ right < left := by
  constructor
  · intro hafter
    by_contra hle
    have hback := toNat_ofNat_sub_ofNat (w := w) right left (by omega) (by omega)
    have hneg : BitVec.ofNat (w + 1) left - BitVec.ofNat (w + 1) right =
        -(BitVec.ofNat (w + 1) right - BitVec.ofNat (w + 1) left) :=
      by rw [BitVec.neg_sub, BitVec.add_comm, ← BitVec.sub_eq_add_neg]
    have hdistance := hafter.2
    rw [hneg, BitVec.toNat_neg, hback] at hdistance
    by_cases heq : left = right
    · exact hafter.1 (by rw [heq])
    · rw [Nat.mod_eq_of_lt (by omega)] at hdistance
      omega
  · intro hlt
    have hforward := toNat_ofNat_sub_ofNat (w := w) left right (by omega) (by omega)
    refine ⟨?_, by omega⟩
    intro heq
    rw [heq] at hforward
    simp at hforward
    omega

end Pig.Serial
