import Pig.Routing.Trie

namespace Pig.Routing.RtNode

open Go Network BitString LongestPrefix

variable {family : Family} {key prefixLen : Nat} {front spelled : List Bool}
  {left right child tree after : RtNode} {value : List Route} {route : Route}
  {bitLen width nodeKey : Nat} {side : Bool}

theorem head?_addRoute (routes : List Route) (route : Route) :
    (addRoute routes route).head? = some route := by
  cases routes with
  | nil | cons first rest => rfl

theorem find_leaf : find width (.leaf (some key) route bitLen) = Function.update (fun _ => none)
    (leading width key bitLen) (some route) := by
  funext spelled
  rw [leaf, find_node, Function.update_apply]
  by_cases heq : leading width key bitLen = spelled
  · simp [heq]
  · rw [if_neg heq, if_neg (Ne.symm heq)]
    rfl

theorem find_branch_above (hchild : Sound width (leading width key bitLen ++ [side]) child) :
    find width (.branch side child .nil (some key) [route] bitLen) = Function.update
      (find width child) (leading width key bitLen) (some route) := by
  funext spelled
  rw [find_branch hchild (.nil _), Function.update_apply]
  by_cases heq : leading width key bitLen = spelled
  · simp [heq]
  · rw [if_neg heq, if_neg (Ne.symm heq)]
    exact Option.or_none

theorem find_replace (value replaced : List Route) :
    find width (.node left right (some key) replaced bitLen) =
      Function.update (find width (.node left right (some key) value bitLen))
        (leading width key bitLen) replaced.head? := by
  funext spelled
  rw [find_node, Function.update_apply, find_node]
  by_cases heq : leading width key bitLen = spelled
  · simp [heq]
  · rw [if_neg heq, if_neg (Ne.symm heq), if_neg heq]

theorem find_branch_beside {branchKey length : Nat} (hchild : Sound width
    (leading width branchKey bitLen ++ [side]) child) (hkey : leading width branchKey bitLen ++
    [!side] <+: leading width key length) (hsibling : Sound width (leading width branchKey bitLen ++
    [!side]) (.leaf (some key) route length)) :
    find width (.branch side child (.leaf (some key) route length) (some branchKey) [] bitLen) =
      Function.update (find width child) (leading width key length) (some route) := by
  funext spelled
  rw [find_branch hchild hsibling, find_leaf, Function.update_apply, Function.update_apply]
  by_cases hbranch : leading width branchKey bitLen = spelled
  · subst hbranch
    have hne : leading width branchKey bitLen ≠ leading width key length :=
      ne_of_isPrefix_append hkey
    rw [if_pos rfl, if_neg hne, hchild.find_eq_none fun h =>
      ne_of_isPrefix_append h rfl]
    rfl
  · rw [if_neg hbranch]
    by_cases heq : spelled = leading width key length
    · subst heq
      have hnone : ¬ leading width branchKey bitLen ++ [side] <+: leading width key length := by
        simpa using not_isPrefix_other_side hkey
      rw [if_pos rfl, if_pos rfl, hchild.find_eq_none hnone, Option.none_or]
    · rw [if_neg heq, if_neg heq, Option.or_none]

theorem length_le_common {other : Nat} (hkey : key < 2 ^ width) (hother : other < 2 ^ width)
    (hbitLen : bitLen ≤ width) (hfront : front <+: leading width key prefixLen)
    (hnode : front <+: leading width other bitLen) :
    front.length ≤ common width key other := by
  obtain ⟨-, hfront⟩ := isPrefix_leading_iff.mp hfront
  obtain ⟨hle, hnode⟩ := isPrefix_leading_iff.mp hnode
  exact (le_common_iff hkey hother (by omega)).mpr (hfront.symm.trans hnode)

theorem isPrefix_leading_of_eq {number other length shorter : Nat} (hle : shorter < length)
    (heq : leading width number shorter = leading width other shorter) :
    leading width number shorter ++ [bit width other shorter] <+: leading width other length := by
  rw [heq, ← leading_succ]
  exact leading_isPrefix hle

structure Updated (width : Nat) (front spelled : List Bool)
    (entry : Option Route) (tree after : RtNode) : Prop where
  sound : Sound width front after
  find_eq : find width after = Function.update (find width tree) spelled entry

variable {entry : Option Route}

theorem Updated.below {sibling : RtNode} (hspelled : leading width key bitLen ++ [side] <+: spelled)
    (sound : Sound width front (.branch side child sibling (some key) value bitLen))
    (updated : Updated width (leading width key bitLen ++ [side]) spelled entry child after) :
    Updated width front spelled entry (.branch side child sibling (some key) value bitLen)
      (.branch side after sibling (some key) value bitLen) := by
  obtain ⟨hkey, hlen, hfront, hvalue, hchild, hsibling⟩ := sound.of_branch
  refine ⟨.branch hkey hlen hfront hvalue updated.sound hsibling, ?_⟩
  funext other
  rw [find_branch updated.sound hsibling, updated.find_eq, Function.update_apply,
    Function.update_apply, find_branch hchild hsibling]
  by_cases heq : other = spelled
  · subst heq
    rw [if_neg (ne_of_isPrefix_append hspelled), if_pos rfl, if_pos rfl, hsibling.find_eq_none
      (not_isPrefix_other_side hspelled), Option.or_none]
  · rw [if_neg heq, if_neg heq]

section

variable (hkey : key < 2 ^ family.bitWidth) (hprefixLen : prefixLen ≤ family.bitWidth)
  (hpositive : 0 < prefixLen) (hfront : front <+: leading family.bitWidth key prefixLen)

include hkey hprefixLen hpositive hfront

theorem insertAt_beside (sound : Sound family.bitWidth front
    (.node left right (some nodeKey) value bitLen))
    (hnodeEnds : common family.bitWidth key nodeKey < bitLen)
    (hkeyEnds : common family.bitWidth key nodeKey < prefixLen) :
    ∃ after, Table.insertAt family (some key) prefixLen route (.node left right (some nodeKey) value
      bitLen) = .ok after ∧ Updated family.bitWidth front (leading family.bitWidth key prefixLen)
      (some route) (.node left right (some nodeKey) value bitLen) after := by
  cases sound with
  | node hnode hbitLen hnodeFront hvalue hleft hright =>
    have hmin : min (common family.bitWidth key nodeKey) bitLen =
        common family.bitWidth key nodeKey := by omega
    have heq := (le_common_iff hkey hnode common_le).mp (Nat.le_refl _)
    obtain ⟨branchKey, hmask, hbranchKey, hbranch⟩ :=
      maskPrefix_some (n := common family.bitWidth key nodeKey) hkey
    have hchild : Sound family.bitWidth _ (.node left right (some nodeKey) value bitLen) :=
      .node hnode hbitLen (isPrefix_leading_of_eq hnodeEnds (hbranch.trans heq)) hvalue hleft hright
    have hkeyBelow := isPrefix_leading_of_eq hkeyEnds hbranch
    rw [bit_common_ne hkey hnode (by omega)] at hkeyBelow
    have hsibling := Sound.leaf route hkey hprefixLen hkeyBelow hpositive
    have hbranchFront : front <+: leading family.bitWidth branchKey
        (common family.bitWidth key nodeKey) := by
      rw [hbranch, isPrefix_leading_iff]
      exact ⟨length_le_common hkey hnode hbitLen hfront hnodeFront,
        (isPrefix_leading_iff.mp hfront).2⟩
    simp only [Table.insertAt, commonBits_some, ok_bind, hmin]
    rw [if_neg (by omega), if_neg (by omega), if_neg (by omega), hmask,
      ok_bind, getBit_some (by omega), ok_bind]
    exact ⟨_, rfl, .branch hbranchKey common_le hbranchFront (fun h => absurd rfl h) hchild
      hsibling, find_branch_beside hchild hkeyBelow hsibling⟩

/-- An insertion below what the key extends sets the entry of its prefix. -/
theorem insertAt_sound (route : Route) (sound : Sound family.bitWidth front tree) :
    ∃ after, Table.insertAt family (some key) prefixLen route tree = .ok after ∧ Updated
      family.bitWidth front (leading family.bitWidth key prefixLen) (some route) tree after := by
  induction sound with
  | nil front =>
    exact ⟨_, rfl, .leaf route hkey hprefixLen hfront hpositive, find_leaf⟩
  | @node front left right nodeKey bitLen value hnode hbitLen hnodeFront hvalue
      hleft hright ihleft ihright =>
    have sound := Sound.node hnode hbitLen hnodeFront hvalue hleft hright
    have hshared := fun length => @le_common_iff family.bitWidth key nodeKey length hkey hnode
    by_cases hbeside : common family.bitWidth key nodeKey < bitLen ∧
        common family.bitWidth key nodeKey < prefixLen
    · exact insertAt_beside hkey hprefixLen hpositive hfront sound hbeside.1 hbeside.2
    simp only [Table.insertAt, commonBits_some, ok_bind]
    by_cases hbelow : bitLen < prefixLen
    · -- The node is an ancestor of the new prefix.
      have heq := (hshared bitLen hbitLen).mp (by omega)
      have hspelled : leading family.bitWidth nodeKey bitLen ++ [bit family.bitWidth key bitLen] <+:
        leading family.bitWidth key prefixLen := isPrefix_leading_of_eq hbelow heq.symm
      rw [if_neg (by omega), if_neg (by omega), if_pos (by omega), getBit_some (by omega), ok_bind]
      cases hside : bit family.bitWidth key bitLen with
      | false =>
        rw [hside] at hspelled
        obtain ⟨after, hafter, updated⟩ := ihleft hspelled
        rw [hafter]
        exact ⟨_, rfl, .below hspelled sound updated⟩
      | true =>
        rw [hside] at hspelled
        obtain ⟨after, hafter, updated⟩ := ihright hspelled
        rw [if_pos rfl, hafter]
        exact ⟨_, rfl, .below hspelled sound updated⟩
    have heq := (hshared prefixLen hprefixLen).mp (by omega)
    by_cases habove : prefixLen < bitLen
    · have hchild := Sound.node hnode hbitLen
        (isPrefix_leading_of_eq habove heq) hvalue hleft hright
      rw [if_pos (by omega), getBit_some (by omega)]
      exact ⟨_, rfl, .branch hkey hprefixLen hfront (fun _ => hpositive)
        hchild (.nil _), find_branch_above hchild⟩
    · have hsame : bitLen = prefixLen := by omega
      subst hsame
      rw [if_neg (by omega), if_pos (by omega), heq]
      refine ⟨_, rfl, .node hnode hbitLen hnodeFront (fun _ => hpositive) hleft hright, ?_⟩
      rw [find_replace value, head?_addRoute]

end

theorem find_child {side : Bool} (hchild : Sound width (leading width key bitLen ++ [side]) child) :
    find width (.branch side child .nil (some key) [] bitLen) = find width child := by
  funext spelled
  rw [find_branch hchild (.nil _)]
  by_cases heq : leading width key bitLen = spelled
  · subst heq
    rw [if_pos rfl, hchild.find_eq_none fun h => ne_of_isPrefix_append h rfl]
    rfl
  · rw [if_neg heq]
    exact Option.or_none

theorem compress_sound (sound : Sound width front (.node left right (some key) value bitLen)) :
    Sound width front (Table.compress left right (some key) value bitLen).1 ∧
      find width (Table.compress left right (some key) value bitLen).1 =
        find width (.node left right (some key) value bitLen) := by
  rw [Table.compress]
  split
  · exact ⟨sound, rfl⟩
  · next hcollapse =>
      simp only [ne_eq, not_or, not_and, Decidable.not_not] at hcollapse
      obtain ⟨rfl, hchildren⟩ := hcollapse
      cases sound with
      | node hkey hlen hfront hvalue hleft hright =>
        have hshorter := fun side =>
          hfront.trans (List.prefix_append _ [side])
        split
        · next hne =>
            obtain rfl := hchildren hne
            exact ⟨hleft.shorten (hshorter false), (find_child hleft).symm⟩
        · next hnil =>
            obtain rfl := Decidable.not_not.mp hnil
            exact ⟨hright.shorten (hshorter true), (find_child hright).symm⟩

theorem Updated.compress (updated : Updated width front spelled entry tree
      (.node left right (some key) value bitLen)) :
    Updated width front spelled entry tree
      (Table.compress left right (some key) value bitLen).1 := by
  obtain ⟨hsound, hfind⟩ := compress_sound updated.sound
  exact ⟨hsound, hfind.trans updated.find_eq⟩

theorem Updated.ascend (again : Bool)
    (updated : Updated width front spelled entry tree (.node left right (some key) value bitLen)) :
    Updated width front spelled entry tree
      (Table.ascend left right (some key) value bitLen again).1 := by
  cases again with
  | false => exact updated
  | true => exact updated.compress

inductive Removed (width : Nat) (front spelled : List Bool) (tree : RtNode) :
    Option (RtNode × Bool) → Prop
  | absent (habsent : find width tree spelled = none) : Removed width front spelled tree none
  | found {after : RtNode × Bool} (hpresent : find width tree spelled ≠ none)
      (updated : Updated width front spelled none tree after.1) :
      Removed width front spelled tree (some after)

theorem Removed.below {sibling : RtNode} {result : Option (RtNode × Bool)}
    (hspelled : leading width key bitLen ++ [side] <+: spelled)
    (sound : Sound width front (.branch side child sibling (some key) value bitLen))
    (removed : Removed width (leading width key bitLen ++ [side]) spelled child result) :
    Removed width front spelled (.branch side child sibling (some key) value bitLen)
      (result.map fun (child, again) => Table.ascend (if side then sibling else child)
        (if side then child else sibling) (some key) value bitLen again) := by
  have hfind := find_below hspelled sound
  cases removed with
  | absent habsent => exact .absent (hfind.trans habsent)
  | found hpresent updated =>
    refine .found (hfind.trans_ne hpresent) ?_
    have hbelow := updated.below hspelled sound
    cases side with
    | false | true => exact hbelow.ascend _

theorem removeAt_sound (hkey : key < 2 ^ family.bitWidth) (hprefixLen : prefixLen ≤ family.bitWidth)
    (sound : Sound family.bitWidth front tree) :
    ∃ result, Table.removeAt family (some key) prefixLen tree = .ok result ∧ Removed family.bitWidth
      front (leading family.bitWidth key prefixLen) tree result := by
  induction sound with
  | nil front => exact ⟨none, rfl, .absent rfl⟩
  | @node front left right nodeKey bitLen value hnode hbitLen hnodeFront hvalue
      hleft hright ihleft ihright =>
    have sound := Sound.node hnode hbitLen hnodeFront hvalue hleft hright
    have hbelow := @isPrefix_leading_iff family.bitWidth key prefixLen
      (leading family.bitWidth nodeKey bitLen)
    rw [length_leading] at hbelow
    have habsent := fun h => sound.find_eq_none_of_node (hbelow.not.mpr h)
    simp only [Table.removeAt, commonBits_some, ok_bind]
    by_cases hshared : common family.bitWidth key nodeKey < bitLen
    · have hne := (le_common_iff hkey hnode hbitLen).not.mp (by omega)
      rw [if_pos hshared]
      exact ⟨none, rfl, .absent (habsent fun h => hne h.2.symm)⟩
    have heq := (le_common_iff hkey hnode hbitLen).mp (by omega)
    rw [if_neg hshared]
    by_cases hsame : bitLen = prefixLen
    · subst hsame
      rw [if_pos rfl, heq]
      cases value with
      | nil => exact ⟨none, rfl, .absent find_self⟩
      | cons first rest =>
        have hcleared : Updated family.bitWidth front (leading family.bitWidth nodeKey bitLen) none
          (.node left right (some nodeKey) (first :: rest) bitLen)
          (.node left right (some nodeKey) [] bitLen) := ⟨.node hnode hbitLen hnodeFront
          (fun h => absurd rfl h) hleft hright, find_replace (first :: rest) []⟩
        refine ⟨_, rfl, .found ?_ hcleared.compress⟩
        rw [find_self]
        exact Option.some_ne_none first
    rw [if_neg hsame]
    by_cases habove : prefixLen < bitLen
    · rw [if_pos habove]
      exact ⟨none, rfl, .absent (habsent fun h => by omega)⟩
    have hspelled : leading family.bitWidth nodeKey bitLen ++ [bit family.bitWidth key bitLen] <+:
      leading family.bitWidth key prefixLen := isPrefix_leading_of_eq (by omega) heq.symm
    rw [if_neg habove, getBit_some (by omega), ok_bind]
    cases hside : bit family.bitWidth key bitLen with
    | false =>
      rw [hside] at hspelled
      obtain ⟨result, hresult, removed⟩ := ihleft
      rw [hresult]
      exact ⟨_, rfl, .below hspelled sound removed⟩
    | true =>
      rw [hside] at hspelled
      obtain ⟨result, hresult, removed⟩ := ihright
      rw [if_pos rfl, hresult]
      exact ⟨_, rfl, .below hspelled sound removed⟩

end Pig.Routing.RtNode
