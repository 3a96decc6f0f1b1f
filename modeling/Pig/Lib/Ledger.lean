import Mathlib.Data.Finset.Erase
import Mathlib.Data.Finset.Insert
import Mathlib.Logic.Function.Basic

namespace Pig

/-! Marks on keys, each held by at most one holder, and one key marked for
nobody. -/

section

variable {Key Holder : Type} {marked : Finset Key} {own key other : Key}
  {held : Holder → Option Key} {holder : Holder}

structure Ledger (marked : Finset Key) (own : Key)
    (held : Holder → Option Key) : Prop where
  mem_iff : ∀ key, key ∈ marked ↔ key = own ∨ ∃ holder, held holder = some key
  reserved : ∀ holder, held holder ≠ some own
  unique : ∀ first second key, held first = some key → held second = some key → first = second

namespace Ledger

theorem start (own : Key) : Ledger {own} own (fun _ : Holder => none) where
  mem_iff := by simp
  reserved := by simp
  unique := by simp

theorem marked_of_held (ledger : Ledger marked own held) (hheld : held holder = some key) : key ∈
  marked := (ledger.mem_iff key).2 (.inr ⟨holder, hheld⟩)

variable [DecidableEq Key]

theorem not_marked_of_erase (ledger : Ledger marked own held)
    (hafter : ∀ key, key ∈ marked.erase other ↔ key = own ∨ ∃ holder, held holder = some key) :
    other ∉ marked := by
  intro hmem
  have hleft : other ∈ marked.erase other := (hafter other).2 ((ledger.mem_iff other).1 hmem)
  exact Finset.notMem_erase other marked hleft

variable [DecidableEq Holder]

omit [DecidableEq Key] in
theorem update_eq_some_iff (ledger : Ledger marked own held)
    (hheld : held holder = some key) (owner : Holder) (candidate : Key) :
    Function.update held holder none owner = some candidate ↔
      held owner = some candidate ∧ candidate ≠ key := by
  by_cases heq : owner = holder
  · subst heq
    simp [hheld, eq_comm]
  · rw [Function.update_of_ne heq]
    refine ⟨fun h => ⟨h, ?_⟩, And.left⟩
    rintro rfl
    exact heq (ledger.unique owner holder candidate h hheld)

theorem grant (ledger : Ledger marked own held) (hkey : key ∉ marked) (hfree : held holder = none) :
    Ledger (insert key marked) own (Function.update held holder (some key)) where
  mem_iff candidate := by
    rw [Finset.mem_insert, ledger.mem_iff]
    constructor
    · rintro (rfl | rfl | ⟨owner, howner⟩)
      · exact .inr ⟨holder, Function.update_self ..⟩
      · exact .inl rfl
      · have hne : owner ≠ holder := by
          rintro rfl
          simp [hfree] at howner
        exact .inr ⟨owner, by rwa [Function.update_of_ne hne]⟩
    · rintro (rfl | ⟨owner, howner⟩)
      · exact .inr (.inl rfl)
      · by_cases heq : owner = holder
        · subst heq
          rw [Function.update_self] at howner
          exact .inl (Option.some.inj howner).symm
        · rw [Function.update_of_ne heq] at howner
          exact .inr (.inr ⟨owner, howner⟩)
  reserved owner := by
    by_cases heq : owner = holder
    · subst heq
      rw [Function.update_self]
      rintro ⟨⟩
      exact hkey ((ledger.mem_iff own).2 (.inl rfl))
    · rw [Function.update_of_ne heq]
      exact ledger.reserved owner
  unique first second candidate hfirst hsecond := by
    by_cases hone : first = holder <;> by_cases htwo : second = holder
    · rw [hone, htwo]
    · subst hone
      rw [Function.update_self] at hfirst
      rw [Function.update_of_ne htwo] at hsecond
      obtain rfl := Option.some.inj hfirst
      exact absurd (ledger.marked_of_held hsecond) hkey
    · subst htwo
      rw [Function.update_self] at hsecond
      rw [Function.update_of_ne hone] at hfirst
      obtain rfl := Option.some.inj hsecond
      exact absurd (ledger.marked_of_held hfirst) hkey
    · rw [Function.update_of_ne hone] at hfirst
      rw [Function.update_of_ne htwo] at hsecond
      exact ledger.unique first second candidate hfirst hsecond

theorem revoke (ledger : Ledger marked own held) (hheld : held holder = some key) :
    Ledger (marked.erase key) own (Function.update held holder none) where
  mem_iff candidate := by
    simp only [Finset.mem_erase, ledger.mem_iff, ledger.update_eq_some_iff hheld]
    have hown : own ≠ key := fun h => ledger.reserved holder (h ▸ hheld)
    constructor
    · rintro ⟨hne, rfl | ⟨owner, howner⟩⟩
      · exact .inl rfl
      · exact .inr ⟨owner, howner, hne⟩
    · rintro (rfl | ⟨owner, howner, hne⟩)
      · exact ⟨hown, .inl rfl⟩
      · exact ⟨hne, .inr ⟨owner, howner⟩⟩
  reserved owner howner := ledger.reserved owner
      ((ledger.update_eq_some_iff hheld owner own).1 howner).1
  unique first second candidate hfirst hsecond := ledger.unique first second candidate
      ((ledger.update_eq_some_iff hheld first candidate).1 hfirst).1
      ((ledger.update_eq_some_iff hheld second candidate).1 hsecond).1

theorem eq_of_erase (ledger : Ledger marked own held) (hheld : held holder = some key)
    (hafter : ∀ candidate, candidate ∈ marked.erase other ↔ candidate = own ∨
        ∃ owner, Function.update held holder none owner = some candidate) :
    other = key := by
  by_contra hne
  have hmem : key ∈ marked.erase other :=
    Finset.mem_erase.2 ⟨Ne.symm hne, ledger.marked_of_held hheld⟩
  obtain rfl | ⟨owner, howner⟩ := (hafter key).1 hmem
  · exact ledger.reserved holder hheld
  · exact ((ledger.update_eq_some_iff hheld owner key).1 howner).2 rfl

end Ledger

end

end Pig
