import Mathlib.Data.List.Basic

namespace Pig.CompressedTrie

/-! Tries whose nodes are labelled with whole strings. A trie in which every
node without a member of its own branches is determined by its members. -/

inductive Trie (Symbol : Type) where
  | nil
  | node (front : List Symbol) (occupied : Bool) (children : Symbol → Trie Symbol)

variable {Symbol : Type}

inductive Member : List Symbol → Trie Symbol → Prop
  | here (front : List Symbol) (children : Symbol → Trie Symbol) :
      Member front (.node front true children)
  | inside {member : List Symbol} (front : List Symbol) (occupied : Bool)
      {children : Symbol → Trie Symbol} (symbol : Symbol)
      (hmember : Member member (children symbol)) :
      Member member (.node front occupied children)

/-- All labels extend `bound`, those of a child also the label of its node by
the symbol that it hangs from, and a node that is not a member has two
children. -/
inductive Compressed : List Symbol → Trie Symbol → Prop
  | nil (bound : List Symbol) : Compressed bound .nil
  | node {bound front : List Symbol} {occupied : Bool}
      {children : Symbol → Trie Symbol} (hbound : bound <+: front)
      (hkept : occupied = true ∨ ∃ left right, left ≠ right ∧
        children left ≠ .nil ∧ children right ≠ .nil)
      (hchildren : ∀ symbol, Compressed (front ++ [symbol]) (children symbol)) :
      Compressed bound (.node front occupied children)

variable {bound other front member : List Symbol} {trie : Trie Symbol}
  {occupied : Bool} {children : Symbol → Trie Symbol} {symbol : Symbol}

theorem Compressed.bound_isPrefix (compressed : Compressed bound trie)
    (hmember : Member member trie) : bound <+: member := by
  induction compressed with
  | nil bound => cases hmember
  | @node bound front occupied children hbound hkept hchildren ih =>
    cases hmember with
    | here => exact hbound
    | inside _ _ symbol hinside =>
      have hlonger := ih symbol hinside
      exact hbound.trans ((List.prefix_append _ _).trans hlonger)

theorem Compressed.exists_member (compressed : Compressed bound trie)
    (hne : trie ≠ .nil) : ∃ member, Member member trie := by
  induction compressed with
  | nil bound => exact absurd rfl hne
  | @node bound front occupied children hbound hkept hchildren ih =>
    rcases hkept with rfl | ⟨left, right, -, hleft, -⟩
    · exact ⟨front, .here _ _⟩
    · obtain ⟨member, hmember⟩ := ih left hleft
      exact ⟨member, .inside _ _ left hmember⟩

theorem Compressed.front_isPrefix (compressed : Compressed bound (.node front occupied children))
    (hmember : Member member (.node front occupied children)) :
    front <+: member := by
  cases compressed with
  | node hbound hkept hchildren =>
    exact (Compressed.node (List.prefix_refl _) hkept hchildren).bound_isPrefix hmember

theorem eq_of_append_isPrefix {left right : Symbol} (hleft : front ++ [left] <+: member)
    (hright : front ++ [right] <+: member) : left = right := by
  have hsame := (List.prefix_of_prefix_length_le hleft hright (by simp)).eq_of_length (by simp)
  simpa using hsame

section

variable (compressed : Compressed bound (.node front occupied children))

include compressed

theorem Compressed.isPrefix_front (hall : ∀ member, Member member (.node front occupied children) →
    other <+: member) : other <+: front := by
  cases compressed with
  | node hbound hkept hchildren =>
    rcases hkept with rfl | ⟨left, right, hne, hleft, hright⟩
    · exact hall front (.here _ _)
    · obtain ⟨inLeft, hinLeft⟩ := (hchildren left).exists_member hleft
      obtain ⟨inRight, hinRight⟩ := (hchildren right).exists_member hright
      have hextendsLeft := (hchildren left).bound_isPrefix hinLeft
      have hextendsRight := (hchildren right).bound_isPrefix hinRight
      have hotherLeft := hall inLeft (.inside _ _ left hinLeft)
      have hotherRight := hall inRight (.inside _ _ right hinRight)
      rcases List.prefix_or_prefix_of_prefix hotherLeft
        ((List.prefix_append _ _).trans hextendsLeft) with hshort | hlong
      · exact hshort
      -- A longer string would leave the root to one side only.
      · obtain ⟨more, rfl⟩ := hlong
        cases more with
        | nil => simp
        | cons symbol more =>
          have hsymbol : front ++ [symbol] <+: front ++ symbol :: more := ⟨more, by simp⟩
          have hsameLeft := eq_of_append_isPrefix (hsymbol.trans hotherLeft) hextendsLeft
          have hsameRight := eq_of_append_isPrefix (hsymbol.trans hotherRight) hextendsRight
          exact absurd (hsameLeft.symm.trans hsameRight) hne

theorem Compressed.member_front_iff :
    Member front (.node front occupied children) ↔ occupied = true := by
  constructor
  · intro hmember
    cases hmember with
    | here => rfl
    | inside _ _ symbol hinside =>
      cases compressed with
      | node hbound hkept hchildren =>
        have hle := ((hchildren symbol).bound_isPrefix hinside).length_le
        rw [List.length_append, List.length_singleton] at hle
        omega
  · rintro rfl
    exact .here _ _

theorem Compressed.member_child_iff :
    Member member (children symbol) ↔ Member member (.node front occupied children) ∧
        front ++ [symbol] <+: member := by
  cases compressed with
  | node hbound hkept hchildren =>
    constructor
    · intro hmember
      exact ⟨.inside _ _ symbol hmember, (hchildren symbol).bound_isPrefix hmember⟩
    · rintro ⟨hmember, hextends⟩
      cases hmember with
      | here =>
        have hle := hextends.length_le
        rw [List.length_append, List.length_singleton] at hle
        omega
      | inside _ _ found hinside =>
        cases eq_of_append_isPrefix hextends ((hchildren found).bound_isPrefix hinside)
        exact hinside

end

theorem Compressed.eq_of_members {another : Trie Symbol} (compressed : Compressed bound trie)
    (compressedOther : Compressed other another)
    (hmembers : ∀ member, Member member trie ↔ Member member another) :
    trie = another := by
  induction compressed generalizing other another with
  | nil bound =>
    by_contra hne
    obtain ⟨member, hmember⟩ := compressedOther.exists_member (Ne.symm hne)
    cases (hmembers member).mpr hmember
  | @node bound front occupied children hbound hkept hchildren ih =>
    have compressed := Compressed.node hbound hkept hchildren
    cases another with
    | nil =>
      obtain ⟨member, hmember⟩ := compressed.exists_member nofun
      cases (hmembers member).mp hmember
    | node frontOther occupiedOther childrenOther =>
      have hfront : front = frontOther := by
        have hone := compressed.isPrefix_front fun member hmember =>
          compressedOther.front_isPrefix ((hmembers member).mp hmember)
        have htwo := compressedOther.isPrefix_front fun member hmember =>
          compressed.front_isPrefix ((hmembers member).mpr hmember)
        exact htwo.eq_of_length_le hone.length_le
      subst hfront
      have hoccupied : occupied = occupiedOther := by
        rw [Bool.eq_iff_iff, ← compressed.member_front_iff, ← compressedOther.member_front_iff]
        exact hmembers front
      have hsame : children = childrenOther := by
        funext symbol
        have hchild : Compressed (front ++ [symbol]) (childrenOther symbol) := by
          cases compressedOther with
          | node hbound hkept hchildren => exact hchildren symbol
        refine ih symbol hchild fun member => ?_
        rw [compressed.member_child_iff, compressedOther.member_child_iff, hmembers]
      rw [hoccupied, hsame]

end Pig.CompressedTrie
