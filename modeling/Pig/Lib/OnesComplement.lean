import Pig.Lib.Bytes

namespace Pig.OnesComplement

/-! The 16-bit ones-complement sum over a byte string, and when it comes out as
all ones. -/

def add (first second : Nat) : Nat :=
  if first + second < 65536 then first + second else first + second - 65535

def words : Bytes → List Nat
  | [] => []
  | [last] => [last.toNat * 256]
  | high :: low :: rest => (high.toNat * 256 + low.toNat) :: words rest

def sum (bytes : Bytes) : Nat := (words bytes).foldl add 0

def Verifies (bytes : Bytes) : Prop := sum bytes = 0xffff

instance (bytes : Bytes) : Decidable (Verifies bytes) := inferInstanceAs (Decidable (_ = _))

def total (bytes : Bytes) : Nat := (words bytes).sum

def reduce (total : Nat) : Nat :=
  if total = 0 then 0 else (total - 1) % 65535 + 1

theorem add_reduce (total : Nat) {word : Nat} (hword : word < 65536) :
    add (reduce total) word = reduce (total + word) := by
  simp only [add, reduce]
  split <;> split <;> split <;> omega

variable (bytes : Bytes)

theorem lt_of_mem_words : ∀ word ∈ words bytes, word < 65536 := by
  induction bytes using words.induct with
  | case1 => simp [words]
  | case2 last =>
    have hlast := last.toNat_lt
    simp only [words, List.mem_singleton, forall_eq]
    omega
  | case3 high low rest ih =>
    have hhigh := high.toNat_lt
    have hlow := low.toNat_lt
    simp only [words, List.forall_mem_cons]
    exact ⟨by omega, ih⟩

theorem foldl_add_reduce {list : List Nat} (hlist : ∀ word ∈ list, word < 65536) (start : Nat) :
    list.foldl add (reduce start) = reduce (start + list.sum) := by
  induction list generalizing start with
  | nil => rfl
  | cons word rest ih =>
    obtain ⟨hword, hrest⟩ := List.forall_mem_cons.1 hlist
    rw [List.foldl_cons, add_reduce start hword, ih hrest, List.sum_cons, Nat.add_assoc]

theorem sum_eq : sum bytes = reduce (total bytes) := by
  have hfold := foldl_add_reduce (lt_of_mem_words bytes) 0
  rw [Nat.zero_add] at hfold
  exact hfold

theorem verifies_iff :
    Verifies bytes ↔ 0 < total bytes ∧ total bytes % 65535 = 0 := by
  rw [Verifies, sum_eq, reduce]
  split <;> omega

theorem total_le : total bytes ≤ (bytes.length + 1) / 2 * 65535 := by
  rw [total]
  induction bytes using words.induct with
  | case1 => simp [words]
  | case2 last =>
    have hlast := last.toNat_lt
    simp only [words, List.sum_singleton, List.length_singleton]
    omega
  | case3 high low rest ih =>
    have hhigh := high.toNat_lt
    have hlow := low.toNat_lt
    simp only [words, List.sum_cons, List.length_cons]
    omega

theorem complement_reduce (total : Nat) : 0 < total + (65535 - reduce total) ∧
      (total + (65535 - reduce total)) % 65535 = 0 := by
  rw [reduce]
  split <;> omega

theorem reduce_eq_fold {high low : Nat} (hhigh : high < 65536) (hlow : low < 65536) :
    reduce (high * 65536 + low) = (high + low + (high + low) / 65536) % 65536 := by
  rw [reduce]
  split
  · omega
  · have hshift : high * 65536 + low - 1 = high + low - 1 + 65535 * high := by
      omega
    rw [hshift, Nat.add_mul_mod_self_left]
    by_cases hcarry : high + low < 65536
    · omega
    · have hrest : high + low - 1 = high + low - 65536 + 65535 := by omega
      omega

theorem total_append {front : Bytes} (heven : front.length % 2 = 0)
    (back : Bytes) : total (front ++ back) = total front + total back := by
  induction front using words.induct with
  | case1 => simp [total, words]
  | case2 last => simp at heven
  | case3 high low rest ih =>
    have hrest : rest.length % 2 = 0 := by
      simp only [List.length_cons] at heven
      omega
    have hsum := ih hrest
    simp only [total] at hsum
    simp only [total, List.cons_append, words, List.sum_cons, hsum, Nat.add_assoc]

end Pig.OnesComplement
