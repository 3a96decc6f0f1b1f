import Mathlib.Algebra.Ring.Parity
import Pig.Lib.OnesComplement
import Pig.Network.Checksum

namespace Pig.Network

open Go OnesComplement

/-! What the wrapping sums of the checksum code amount to, as totals over the
bytes of a packet. -/

def wordSum (p : Slice) (start : Nat) : (count : Nat) → Nat
  | 0 => 0
  | count + 1 => wordAt p start + wordSum p (start + 2) count

variable (p : Slice)

theorem wordAt_le (position : Nat) : wordAt p position ≤ 65535 := by
  have hhigh := (p.byte position).toNat_lt
  have hlow := (p.byte (position + 1)).toNat_lt
  rw [wordAt]
  omega

theorem wordSum_le (start count : Nat) : wordSum p start count ≤ count * 65535 := by
  induction count generalizing start with
  | zero => simp [wordSum]
  | succ count ih =>
    have hword := wordAt_le p start
    have hrest := ih (start + 2)
    rw [wordSum]
    omega

variable {position : Nat}

theorem wordAt_congr {p q : Slice} (hhigh : q.byte position = p.byte position)
    (hlow : q.byte (position + 1) = p.byte (position + 1)) :
    wordAt q position = wordAt p position := by
  rw [wordAt, wordAt, hhigh, hlow]

theorem wordSum_congr {p q : Slice} {start count : Nat}
    (hbyte : ∀ index, start ≤ index → index < start + 2 * count → q.byte index = p.byte index) :
    wordSum q start count = wordSum p start count := by
  induction count generalizing start with
  | zero => rfl
  | succ count ih =>
    rw [wordSum, wordSum, ih fun index hlow hhigh =>
        hbyte index (by omega) (by omega),
      wordAt_congr (hbyte start (by omega) (by omega)) (hbyte (start + 1) (by omega) (by omega))]

theorem wordSum_of_changedAt {p q : Slice} (start place count : Nat)
    (changed : p.ChangedAt (WordPlaces (start + 2 * place)) q)
    (hplace : place < count) (hzero : wordAt p (start + 2 * place) = 0) :
    wordSum q start count = wordSum p start count + wordAt q (start + 2 * place) := by
  have hother : ∀ index, index < start + 2 * place ∨
      start + 2 * place + 1 < index → q.byte index = p.byte index := by
    intro index houtside
    apply changed.byte_eq
    rintro (rfl | rfl) <;> omega
  induction count generalizing start place with
  | zero => omega
  | succ count ih =>
    rw [wordSum, wordSum]
    cases place with
    | zero =>
      have hrest : wordSum q (start + 2) count = wordSum p (start + 2) count :=
        wordSum_congr fun index hlow _ => hother index (.inr (by omega))
      simp only [Nat.mul_zero, Nat.add_zero] at hzero ⊢
      omega
    | succ place =>
      have hstart : start + 2 * (place + 1) = start + 2 + 2 * place := by
        omega
      rw [hstart] at changed hzero hother ⊢
      rw [ih (start + 2) place changed (by omega) hzero hother,
        wordAt_congr (hother start (.inl (by omega))) (hother (start + 1) (.inl (by omega)))]
      omega

theorem window_succ_succ {start : Nat} (count : Nat) (hcap : start + 1 < p.cap) :
    p.array.window start (count + 2) = p.byte start :: p.byte (start + 1) ::
        p.array.window (start + 2) count := by
  have hfirst : start < p.array.length := by
    rw [Slice.cap] at hcap
    omega
  have hsecond : start + 1 < p.array.length := hcap
  simp only [Bytes.window, Slice.byte, List.getD_eq_getElem?_getD, List.getElem?_eq_getElem hfirst,
    List.getElem?_eq_getElem hsecond, Option.getD_some]
  rw [List.drop_eq_getElem_cons hfirst, List.drop_eq_getElem_cons hsecond]
  rfl

theorem total_window (start count : Nat) (hcap : start + 2 * count ≤ p.cap) :
    total (p.array.window start (2 * count)) = wordSum p start count := by
  induction count generalizing start with
  | zero => rfl
  | succ count ih =>
    rw [show 2 * (count + 1) = 2 * count + 2 by omega,
      window_succ_succ p _ (by omega), wordSum, ← ih (start + 2) (by omega)]
    rfl

theorem total_window_odd (start count : Nat) (hcap : start + 2 * count + 1 ≤ p.cap) :
    total (p.array.window start (2 * count + 1)) =
      wordSum p start count + (p.byte (start + 2 * count)).toNat * 256 := by
  have hlast : start + 2 * count < p.array.length := hcap
  have hsplit : p.array.window start (2 * count + 1) =
      p.array.window start (2 * count) ++ [p.byte (start + 2 * count)] := by
    simp only [Bytes.window, Slice.byte, List.getD_eq_getElem?_getD,
      List.getElem?_eq_getElem hlast, Option.getD_some]
    rw [List.take_add, List.drop_drop, List.drop_eq_getElem_cons hlast]
    rfl
  have hlength := p.array.length_window start (2 * count) (Nat.le_of_lt hcap)
  rw [hsplit, total_append (by omega), total_window p _ _ (by omega)]
  simp [total, words]

theorem total_window_of_changedAt {p q : Slice} (start place length : Nat)
    (changed : p.ChangedAt (WordPlaces (start + 2 * place)) q) (hplace : 2 * place + 1 < length)
    (hcap : start + length ≤ p.cap) (hzero : wordAt p (start + 2 * place) = 0) :
    total (q.array.window start length) =
      total (p.array.window start length) + wordAt q (start + 2 * place) := by
  have hcapAfter : start + length ≤ q.cap := by
    rw [changed.cap_eq]
    exact hcap
  obtain ⟨count, rfl | rfl⟩ := Nat.even_or_odd' length
  · rw [total_window q _ _ hcapAfter, total_window p _ _ hcap,
      wordSum_of_changedAt start place count changed (by omega) hzero]
  · have hlast : q.byte (start + 2 * count) = p.byte (start + 2 * count) := by
      apply changed.byte_eq
      rintro (hfirst | hsecond) <;> omega
    rw [total_window_odd q _ _ hcapAfter, total_window_odd p _ _ hcap, hlast,
      wordSum_of_changedAt start place count changed (by omega) hzero]
    omega

theorem toUInt32_word (high low : UInt8) : high.toUInt32 <<< 8 + low.toUInt32 =
      UInt32.ofNat (high.toNat * 256 + low.toNat) := by
  apply UInt32.toNat_inj.1
  simp [UInt32.toNat_add, UInt32.toNat_shiftLeft, Nat.shiftLeft_eq]

theorem sumWords_eq {start count : Nat} (sum : Nat) (hlen : start + 2 * count ≤ p.len) :
    sumWords p start count (UInt32.ofNat sum) =
      .ok (UInt32.ofNat (sum + wordSum p start count)) := by
  induction count generalizing start sum with
  | zero => rfl
  | succ count ih =>
    have hsum : UInt32.ofNat sum + (p.byte start).toUInt32 <<< 8 + (p.byte (start + 1)).toUInt32 =
          UInt32.ofNat (sum + wordAt p start) := by
      rw [UInt32.add_assoc, toUInt32_word, ← UInt32.ofNat_add]
      rfl
    rw [sumWords, p.get_bind_eq_ok]
    refine ⟨by omega, ?_⟩
    rw [p.get_bind_eq_ok]
    refine ⟨by omega, ?_⟩
    rw [hsum, ih _ (by omega), wordSum, Nat.add_assoc]

theorem sumWords_zero {start count : Nat} (hlen : start + 2 * count ≤ p.len) :
    sumWords p start count 0 = .ok (UInt32.ofNat (wordSum p start count)) := by
  have hsum := sumWords_eq p 0 hlen
  rw [Nat.zero_add] at hsum
  exact hsum

theorem foldSum_eq {sum : Nat} (hsum : sum < 4294967296) :
    (foldSum (UInt32.ofNat sum)).toNat = 65535 - reduce sum := by
  have hmask : sum &&& 65535 = sum % 65536 := Nat.and_two_pow_sub_one_eq_mod sum 16
  have hsplit : sum = sum / 65536 * 65536 + sum % 65536 := by omega
  have hhigh : sum / 65536 < 65536 := by omega
  have hlow : sum % 65536 < 65536 := Nat.mod_lt _ (by decide)
  have hreduce := reduce_eq_fold hhigh hlow
  rw [← hsplit] at hreduce
  rw [foldSum, hreduce]
  simp only [UInt16.toNat_not, UInt32.toNat_toUInt16, UInt32.toNat_add, UInt32.toNat_shiftRight,
    UInt32.toNat_and, UInt32.toNat_ofNat', UInt32.reduceToNat, UInt16.size, Nat.reduceMod,
    Nat.reducePow, Nat.shiftRight_eq_div_pow, Nat.mod_eq_of_lt hsum, hmask]
  generalize sum / 65536 = high at hhigh
  generalize sum % 65536 = low at hlow
  omega

theorem sumTransport_eq {offset length : Nat} (sum : Nat) (hlen : offset + length ≤ p.len) :
    sumTransport p offset length (UInt32.ofNat sum) =
      .ok (UInt32.ofNat (sum + total (p.array.window offset length))) := by
  have hcap : offset + length ≤ p.cap := Nat.le_trans hlen p.len_le
  obtain ⟨count, rfl | rfl⟩ := Nat.even_or_odd' length
  · have hcount : (((2 * count : Nat) : Int) / 2).toNat = count := by omega
    have heven : ¬ ((2 * count : Nat) : Int).tmod 2 = 1 := by
      rw [Int.tmod_eq_emod_of_nonneg (by omega)]
      omega
    rw [sumTransport, hcount, sumWords_eq p sum hlen, ok_bind, if_neg heven,
      total_window p _ _ hcap]
    rfl
  · have hcount : (((2 * count + 1 : Nat) : Int) / 2).toNat = count := by omega
    have hodd : ((2 * count + 1 : Nat) : Int).tmod 2 = 1 := by
      rw [Int.tmod_eq_emod_of_nonneg (by omega)]
      omega
    have hindex : offset + ((2 * count + 1 : Nat) : Int).toNat - 1 = offset + 2 * count := by omega
    have hlast : (p.byte (offset + 2 * count)).toUInt32 <<< 8 =
        UInt32.ofNat ((p.byte (offset + 2 * count)).toNat * 256) := by
      have hword := toUInt32_word (p.byte (offset + 2 * count)) 0
      simpa using hword
    rw [sumTransport, hcount, sumWords_eq p sum (by omega), ok_bind,
      if_pos hodd, p.get_bind_eq_ok, hindex]
    refine ⟨by omega, ?_⟩
    rw [hlast, ← UInt32.ofNat_add, total_window_odd p _ _ hcap, Nat.add_assoc]
    rfl

theorem wordAt_cleared (hcap : position + 1 < p.cap) :
    wordAt (cleared p position) position = 0 := by
  have hfirst : (cleared p position).byte position = 0 := by
    rw [cleared, Slice.byte_put_of_ne _ (by omega), Slice.byte_put_self _ (by omega)]
  have hsecond : (cleared p position).byte (position + 1) = 0 := by
    rw [cleared, Slice.byte_put_self]
    rw [Slice.cap_put]
    exact hcap
  rw [wordAt, hfirst, hsecond]
  rfl

theorem wordAt_storeChecksum {p after : Slice} {checksum : UInt16}
    (hstore : storeChecksum p position checksum = .ok after) :
    wordAt after position = checksum.toNat := by
  simp only [storeChecksum, p.set_bind_eq_ok, Slice.set_eq_ok_iff] at hstore
  obtain ⟨hfirst, hsecond, rfl⟩ := hstore
  have hcap := Nat.lt_of_lt_of_le hsecond p.len_le
  rw [wordAt, Slice.byte_put_of_ne _ (by omega), Slice.byte_put_self _ (by rw [Slice.cap]; omega),
    Slice.byte_put_self _ (by rw [Slice.cap_put]; exact hcap)]
  have hchecksum := checksum.toNat_lt
  simp only [UInt16.toNat_toUInt8, UInt16.toNat_shiftRight, UInt16.reduceToNat, Nat.reduceMod,
    Nat.reducePow, Nat.shiftRight_eq_div_pow]
  omega

theorem resum_eq_ok {p after : Slice} {checksum : Slice → Checked UInt16}
    (hresum : resum p position checksum = .ok after) :
    ∃ found, checksum (cleared p position) = .ok found ∧ wordAt (cleared p position) position = 0 ∧
      wordAt after position = found.toNat ∧
      (cleared p position).ChangedAt (WordPlaces position) after := by
  rw [resum, p.set_bind_eq_ok, Slice.set_bind_eq_ok, bind_eq_ok] at hresum
  obtain ⟨-, hlen, found, hfound, hstore⟩ := hresum
  exact ⟨found, hfound, wordAt_cleared p (Nat.lt_of_lt_of_le hlen p.len_le),
    wordAt_storeChecksum hstore, changedAt_storeChecksum hstore⟩

end Pig.Network
