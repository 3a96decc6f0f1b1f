import Mathlib.Data.List.Basic

namespace Pig.LongestPrefix

/-! Tables of prefixes: partial functions on strings, and the entry at the
longest string among those that cover something. -/

variable {Symbol Value : Type}

abbrev Entries (Symbol Value : Type) := List Symbol → Option Value

/-- The entry at a longest string among the covering ones, and no result only
without any. -/
structure IsLongest (entries : Entries Symbol Value)
    (covers : List Symbol → Prop) (result : Option Value) : Prop where
  none_iff : result = none ↔ ∀ front, covers front → entries front = none
  longest : ∀ value, result = some value → ∃ front, covers front ∧ entries front = some value ∧
    ∀ other, covers other → entries other ≠ none → other.length ≤ front.length

def upTo (entries : Entries Symbol Value) (key : List Symbol) : Nat → Option Value
  | 0 => entries []
  | bound + 1 => (entries (key.take (bound + 1))).or (upTo entries key bound)

def longest (entries : Entries Symbol Value) (key : List Symbol) : Option Value :=
  upTo entries key key.length

variable {entries inner : Entries Symbol Value} {key front : List Symbol}
  {bound : Nat} {value : Value}

theorem upTo_eq_none_iff : upTo entries key bound = none ↔
    ∀ length ≤ bound, entries (key.take length) = none := by
  induction bound with
  | zero => simp [upTo]
  | succ bound ih =>
    rw [upTo, Option.or_eq_none_iff, ih]
    constructor
    · rintro ⟨hlast, hbefore⟩ length hlength
      obtain hlt | rfl := Nat.lt_or_eq_of_le hlength
      · exact hbefore length (Nat.le_of_lt_succ hlt)
      · exact hlast
    · intro h
      exact ⟨h _ (Nat.le_refl _),
        fun length hlength => h length (Nat.le_succ_of_le hlength)⟩

theorem exists_of_upTo (h : upTo entries key bound = some value) :
    ∃ length ≤ bound, entries (key.take length) = some value ∧
      ∀ other ≤ bound, entries (key.take other) ≠ none → other ≤ length := by
  induction bound with
  | zero => exact ⟨0, Nat.le_refl 0, h, fun other hother _ => hother⟩
  | succ bound ih =>
    rw [upTo] at h
    cases hlast : entries (key.take (bound + 1)) with
    | some last =>
      rw [hlast, Option.some_or] at h
      cases h
      exact ⟨bound + 1, Nat.le_refl _, hlast, fun other hother _ => hother⟩
    | none =>
      rw [hlast, Option.none_or] at h
      obtain ⟨length, hlength, hvalue, hlongest⟩ := ih h
      refine ⟨length, Nat.le_succ_of_le hlength, hvalue, ?_⟩
      intro other hother hsome
      obtain hlt | rfl := Nat.lt_or_eq_of_le hother
      · exact hlongest other (Nat.le_of_lt_succ hlt) hsome
      · exact absurd hlast hsome

theorem isLongest_longest (entries : Entries Symbol Value) (key : List Symbol) :
    IsLongest entries (· <+: key) (longest entries key) where
  none_iff := by
    rw [longest, upTo_eq_none_iff]
    constructor
    · intro h front hfront
      rw [List.prefix_iff_eq_take.mp hfront]
      exact h _ hfront.length_le
    · intro h length _
      exact h _ (List.take_prefix _ _)
  longest := by
    intro value hvalue
    obtain ⟨length, hlength, hentry, hlongest⟩ := exists_of_upTo hvalue
    refine ⟨key.take length, List.take_prefix _ _, hentry, ?_⟩
    intro other hother hsome
    rw [List.length_take, Nat.min_eq_left hlength]
    apply hlongest _ hother.length_le
    rwa [← List.prefix_iff_eq_take.mp hother]

theorem longest_eq_none (h : ∀ front, front <+: key → entries front = none) :
    longest entries key = none :=
  (isLongest_longest entries key).none_iff.mpr h

structure Below (front key : List Symbol)
    (entries inner : Entries Symbol Value) : Prop where
  isPrefix : front <+: key
  shorter : ∀ other, other.length < front.length → entries other = none
  same : ∀ other, other <+: key → front.length < other.length → entries other = inner other
  inner_none : ∀ other, other.length ≤ front.length → inner other = none

theorem Below.upTo_eq (below : Below front key entries inner) :
    ∀ more, front.length + more ≤ key.length → upTo entries key (front.length + more) =
        (upTo inner key (front.length + more)).or (entries front) := by
  have htake : key.take front.length = front := (List.prefix_iff_eq_take.mp below.isPrefix).symm
  intro more
  induction more with
  | zero =>
    intro _
    have hinner : upTo inner key (front.length + 0) = none :=
      upTo_eq_none_iff.mpr fun length hlength =>
        below.inner_none _ (by rw [List.length_take]; omega)
    rw [hinner, Option.none_or, Nat.add_zero]
    cases hlength : front.length with
    | zero => rw [List.eq_nil_of_length_eq_zero hlength, upTo]
    | succ length =>
      have hshorter : upTo entries key length = none := upTo_eq_none_iff.mpr fun other hother =>
          below.shorter _ (by rw [List.length_take]; omega)
      rw [upTo, hshorter, Option.or_none, ← hlength, htake]
  | succ more ih =>
    intro hle
    have hlen : (key.take (front.length + more + 1)).length = front.length + more + 1 := by
      rw [List.length_take]
      omega
    rw [← Nat.add_assoc, upTo, upTo, ih (by omega), Option.or_assoc,
      below.same _ (List.take_prefix _ _) (by omega)]

theorem Below.longest_eq (below : Below front key entries inner) :
    longest entries key = (longest inner key).or (entries front) := by
  have hle := below.isPrefix.length_le
  have h := below.upTo_eq (key.length - front.length) (by omega)
  rwa [Nat.add_sub_cancel' hle] at h

end Pig.LongestPrefix
