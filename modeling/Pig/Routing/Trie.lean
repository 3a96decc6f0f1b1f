import Mathlib.Logic.Function.Basic
import Pig.Lib.LongestPrefix
import Pig.Routing.Table

namespace Pig.Routing

open Go Network BitString LongestPrefix

/-! The trie read as a table of prefixes. Every node holds the routes of one
bit string, and what is below it extends that string. -/

variable {family : Family} {key other prefixLen position : Nat}

theorem commonBits_some : commonBits family (some key) (some other) =
    .ok (common family.bitWidth key other) := rfl

theorem getBit_some (h : position < family.bitWidth) : getBit family (some key) position =
      .ok (bit family.bitWidth key position) := by
  simp [getBit, h]

theorem testBit_clearBit {number index inner : Nat} (hne : index ≠ inner) :
    (clearBit number index).testBit inner = number.testBit inner := by
  simp [clearBit, Nat.testBit_two_pow_of_ne hne]

theorem clearBit_lt {number index bound : Nat} (h : number < 2 ^ bound) :
    clearBit number index < 2 ^ bound :=
  Nat.xor_lt_two_pow h (Nat.lt_of_le_of_lt Nat.and_le_left h)

theorem foldl_clearBit {width n : Nat} (positions : List Nat) (number : Nat)
    (hnumber : number < 2 ^ width) (hpositions : ∀ pos ∈ positions, n ≤ pos ∧ pos < width) :
    positions.foldl (fun out pos => clearBit out (width - 1 - pos)) number < 2 ^ width ∧
      leading width (positions.foldl (fun out pos => clearBit out (width - 1 - pos)) number) n =
        leading width number n := by
  induction positions generalizing number with
  | nil => exact ⟨hnumber, rfl⟩
  | cons pos positions ih =>
    obtain ⟨hlow, hhigh⟩ := hpositions pos (List.mem_cons_self ..)
    obtain ⟨hlt, hleading⟩ := ih (clearBit number (width - 1 - pos)) (clearBit_lt hnumber)
      fun pos hpos => hpositions pos (List.mem_cons_of_mem _ hpos)
    refine ⟨hlt, hleading.trans (leading_eq_iff.mpr ?_)⟩
    intro position hposition
    exact testBit_clearBit (by omega)

theorem of_testBit_foldl_clearBit {width index : Nat} (positions : List Nat) (number : Nat)
    (hbit : (positions.foldl (fun out pos => clearBit out (width - 1 - pos))
      number).testBit index = true) :
    number.testBit index = true ∧ ∀ pos ∈ positions, width - 1 - pos ≠ index := by
  induction positions generalizing number with
  | nil => exact ⟨hbit, nofun⟩
  | cons pos positions ih =>
    obtain ⟨hcleared, hrest⟩ := ih (clearBit number (width - 1 - pos)) hbit
    by_cases hsame : width - 1 - pos = index
    · simp [clearBit, hsame] at hcleared
    · rw [testBit_clearBit hsame] at hcleared
      refine ⟨hcleared, ?_⟩
      rintro other hother
      rcases List.mem_cons.mp hother with rfl | hlater
      · exact hsame
      · exact hrest other hlater

theorem maskPrefix_some {n : Nat} (hkey : key < 2 ^ family.bitWidth) :
    ∃ masked, maskPrefix family (some key) n = .ok (some masked) ∧ masked < 2 ^ family.bitWidth ∧
      leading family.bitWidth masked n = leading family.bitWidth key n := by
  refine ⟨_, rfl, foldl_clearBit _ key hkey fun pos hpos => ?_⟩
  rw [List.mem_range'_1] at hpos
  omega

theorem masked_of_maskPrefix {n : Nat} {masked : Option Nat}
    (hmask : maskPrefix family (some key) n = .ok masked) :
    ∃ number, masked = some number ∧ Masked family.bitWidth number n := by
  cases hmask
  refine ⟨_, rfl, fun position hlow hhigh => ?_⟩
  by_contra hset
  obtain ⟨-, hcleared⟩ := of_testBit_foldl_clearBit _ key ((Bool.not_eq_false _).mp hset)
  exact hcleared position (List.mem_range'_1.mpr (by omega)) rfl

namespace RtNode

def find (width : Nat) : RtNode → Entries Bool Route
  | .nil, _ => none
  | .node left right prefixKey value bitLen, front =>
    if prefixKey.map (leading width · bitLen) = some front then value.head?
    else (find width left front).or (find width right front)

/-- The keys have the width of the family, every child extends the bit string
of its node by the bit it stands for, and only the default route, which is kept
elsewhere, has the empty bit string. -/
inductive Sound (width : Nat) : List Bool → RtNode → Prop
  | nil (front : List Bool) : Sound width front .nil
  | node {front : List Bool} {left right : RtNode} {key bitLen : Nat}
      {value : List Route} (hkey : key < 2 ^ width) (hlen : bitLen ≤ width)
      (hfront : front <+: leading width key bitLen)
      (hvalue : value ≠ [] → 0 < bitLen)
      (hleft : Sound width (leading width key bitLen ++ [false]) left)
      (hright : Sound width (leading width key bitLen ++ [true]) right) :
      Sound width front (.node left right (some key) value bitLen)

variable {width bitLen : Nat} {front spelled : List Bool}
  {left right child sibling tree : RtNode} {value : List Route} {side : Bool}

theorem Sound.shorten {shorter : List Bool} (sound : Sound width front tree)
    (h : shorter <+: front) : Sound width shorter tree := by
  cases sound with
  | nil => exact .nil _
  | node hkey hlen hfront hvalue hleft hright =>
    exact .node hkey hlen (h.trans hfront) hvalue hleft hright

theorem Sound.branch (hkey : key < 2 ^ width) (hlen : bitLen ≤ width)
    (hfront : front <+: leading width key bitLen) (hvalue : value ≠ [] → 0 < bitLen)
    (hchild : Sound width (leading width key bitLen ++ [side]) child)
    (hsibling : Sound width (leading width key bitLen ++ [!side]) sibling) :
    Sound width front (.branch side child sibling (some key) value bitLen) := by
  cases side with
  | false => exact .node hkey hlen hfront hvalue hchild hsibling
  | true => exact .node hkey hlen hfront hvalue hsibling hchild

theorem Sound.leaf (route : Route) (hkey : key < 2 ^ width) (hlen : bitLen ≤ width)
    (hfront : front <+: leading width key bitLen) (hpositive : 0 < bitLen) :
    Sound width front (.leaf (some key) route bitLen) :=
  .node hkey hlen hfront (fun _ => hpositive) (.nil _) (.nil _)

theorem find_node : find width (.node left right (some key) value bitLen) spelled =
    if leading width key bitLen = spelled then value.head?
    else (find width left spelled).or (find width right spelled) := by
  simp [find]

theorem Sound.find_eq_none (sound : Sound width front tree)
    (h : ¬ front <+: spelled) : find width tree spelled = none := by
  induction sound with
  | nil => rfl
  | @node front left right key bitLen value hkey hlen hfront hvalue hleft hright ihleft ihright =>
    have hne : leading width key bitLen ≠ spelled := by
      rintro rfl
      exact h hfront
    have hbelow : ∀ side, ¬ leading width key bitLen ++ [side] <+:
        spelled := fun side hside =>
      h (hfront.trans ((List.prefix_append _ _).trans hside))
    rw [find_node, if_neg hne, ihleft (hbelow false), ihright (hbelow true), Option.or_none]

theorem find_self : find width (.node left right (some key) value bitLen)
    (leading width key bitLen) = value.head? := by
  rw [find_node, if_pos rfl]

theorem not_isPrefix_other_side {front spelled : List Bool} {side : Bool}
    (h : front ++ [side] <+: spelled) : ¬ front ++ [!side] <+: spelled := by
  intro hother
  have heq := List.prefix_of_prefix_length_le h hother (by simp)
  simpa using heq.eq_of_length (by simp)

theorem ne_of_isPrefix_append {front spelled : List Bool} {side : Bool}
    (h : front ++ [side] <+: spelled) : front ≠ spelled := by
  rintro rfl
  have hlen := h.length_le
  rw [List.length_append, List.length_singleton] at hlen
  omega

theorem Sound.find_eq_none_or (hchild : Sound width (spelled ++ [side]) child)
    (hsibling : Sound width (spelled ++ [!side]) sibling) (other : List Bool) :
    find width child other = none ∨ find width sibling other = none := by
  by_cases h : spelled ++ [side] <+: other
  · exact .inr (hsibling.find_eq_none (not_isPrefix_other_side h))
  · exact .inl (hchild.find_eq_none h)

theorem find_branch (hchild : Sound width (leading width key bitLen ++ [side]) child)
    (hsibling : Sound width (leading width key bitLen ++ [!side]) sibling) :
    find width (.branch side child sibling (some key) value bitLen) spelled =
      if leading width key bitLen = spelled then value.head?
      else (find width child spelled).or (find width sibling spelled) := by
  cases side with
  | false => exact find_node
  | true =>
    change find width (.node sibling child _ _ _) spelled = _
    rw [find_node]
    obtain hnone | hnone := hchild.find_eq_none_or hsibling spelled
    · rw [hnone, Option.or_none, Option.none_or]
    · rw [hnone, Option.or_none, Option.none_or]

section

variable (sound : Sound width front (.node left right (some key) value bitLen))

include sound

theorem Sound.find_eq_none_of_node (h : ¬ leading width key bitLen <+: spelled) :
    find width (.node left right (some key) value bitLen) spelled = none := by
  cases sound with
  | node hkey hlen hfront hvalue hleft hright =>
    exact (Sound.node hkey hlen (List.prefix_refl _) hvalue hleft hright).find_eq_none h

end

theorem Sound.of_branch (sound : Sound width front (.branch side child sibling (some key) value
    bitLen)) : key < 2 ^ width ∧ bitLen ≤ width ∧ front <+: leading width key bitLen ∧ (value ≠ [] →
      0 < bitLen) ∧ Sound width (leading width key bitLen ++ [side]) child ∧
      Sound width (leading width key bitLen ++ [!side]) sibling := by
  cases side <;> cases sound with
  | node hkey hlen hfront hvalue hleft hright =>
    exact ⟨hkey, hlen, hfront, hvalue, ‹_›, ‹_›⟩

theorem find_below (h : leading width key bitLen ++ [side] <+: spelled)
    (sound : Sound width front (.branch side child sibling (some key) value bitLen)) :
    find width (.branch side child sibling (some key) value bitLen) spelled =
      find width child spelled := by
  obtain ⟨-, -, -, -, hchild, hsibling⟩ := sound.of_branch
  rw [find_branch hchild hsibling, if_neg (ne_of_isPrefix_append h),
    hsibling.find_eq_none (not_isPrefix_other_side h), Option.or_none]

end RtNode

end Pig.Routing
