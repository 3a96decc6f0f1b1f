import Mathlib.Algebra.Ring.Nat
import Mathlib.Data.List.Induction

namespace Pig

abbrev Bytes := List UInt8

namespace Bytes

def toNatBE (bytes : Bytes) : Nat := bytes.foldl (fun number byte => number * 256 + byte.toNat) 0

def ofNatBE : (width : Nat) → Nat → Bytes
  | 0, _ => []
  | width + 1, number => ofNatBE width (number / 256) ++ [UInt8.ofNat number]

@[simp] theorem toNatBE_nil : toNatBE [] = 0 := rfl

variable (bytes : Bytes)

@[simp] theorem toNatBE_append_singleton (byte : UInt8) :
    toNatBE (bytes ++ [byte]) = toNatBE bytes * 256 + byte.toNat := by
  simp [toNatBE]

theorem toNatBE_append (front back : Bytes) : toNatBE (front ++ back) =
      toNatBE front * 256 ^ back.length + toNatBE back := by
  induction back using List.reverseRecOn with
  | nil => simp
  | append_singleton back byte ih =>
    rw [← List.append_assoc, toNatBE_append_singleton, ih,
      toNatBE_append_singleton, List.length_append, List.length_singleton,
      Nat.pow_succ, Nat.add_mul, Nat.mul_assoc, Nat.add_assoc]

@[simp] theorem length_ofNatBE (width number : Nat) : (ofNatBE width number).length = width := by
  induction width generalizing number with
  | zero => rfl
  | succ width ih => simp [ofNatBE, ih]

theorem toNatBE_ofNatBE (width number : Nat) :
    toNatBE (ofNatBE width number) = number % 256 ^ width := by
  induction width generalizing number with
  | zero => simp [ofNatBE, Nat.mod_one]
  | succ width ih =>
    have hbyte : (UInt8.ofNat number).toNat = number % 256 := UInt8.toNat_ofNat'
    rw [ofNatBE, toNatBE_append_singleton, ih, hbyte, Nat.pow_succ', Nat.mod_mul]
    omega

theorem toNatBE_lt : toNatBE bytes < 256 ^ bytes.length := by
  induction bytes using List.reverseRecOn with
  | nil => simp
  | append_singleton bytes byte ih =>
    have hbyte : byte.toNat < 256 := byte.toNat_lt
    simp only [toNatBE_append_singleton, List.length_append, List.length_singleton, Nat.pow_succ]
    omega

theorem eq_of_toNatBE_eq {bytes other : Bytes} (hlength : bytes.length = other.length)
    (hnumber : toNatBE bytes = toNatBE other) : bytes = other := by
  induction bytes using List.reverseRecOn generalizing other with
  | nil => exact (List.eq_nil_of_length_eq_zero hlength.symm).symm
  | append_singleton bytes byte ih =>
    cases other using List.reverseRecOn with
    | nil => simp at hlength
    | append_singleton other last =>
      have hbyte := byte.toNat_lt
      have hlast := last.toNat_lt
      simp only [toNatBE_append_singleton] at hnumber
      rw [ih (by simpa using hlength) (by omega),
        UInt8.toNat_inj.1 (by omega : byte.toNat = last.toNat)]

def window (bytes : Bytes) (start count : Nat) : Bytes := (bytes.drop start).take count

theorem length_window (start count : Nat) (h : start + count ≤ bytes.length) :
    (bytes.window start count).length = count := by
  simp only [window, List.length_take, List.length_drop]
  omega

theorem window_append_left (bytes more : Bytes) (start count : Nat)
    (h : start + count ≤ bytes.length) :
    (bytes ++ more).window start count = bytes.window start count := by
  unfold window
  rw [List.drop_append_of_le_length (by omega),
    List.take_append_of_le_length (by rw [List.length_drop]; omega)]

theorem window_take {start count length : Nat} (h : start + count ≤ length) :
    window (bytes.take length) start count = bytes.window start count := by
  rw [window, window, List.drop_take, List.take_take]
  congr 1
  omega

theorem window_window {start length inner count : Nat} (h : inner + count ≤ length) :
    window (bytes.window start length) inner count = bytes.window (start + inner) count := by
  rw [window, window, window, List.drop_take, List.take_take, List.drop_drop]
  congr 1
  omega

theorem window_middle {front middle back : Bytes} {start count : Nat}
    (hfront : front.length = start) (hmiddle : middle.length = count) :
    (front ++ middle ++ back).window start count = middle := by
  rw [window, List.append_assoc, List.drop_left' hfront]
  exact List.take_left' hmiddle

theorem take_append_window (start count : Nat) :
    bytes.take start ++ bytes.window start count = bytes.take (start + count) :=
  (List.take_add ..).symm

end Bytes

end Pig
