import Pig.Lib.CompressedTrie
import Pig.Routing.LongestMatch

namespace Pig.Routing

open Go Network BitString LongestPrefix CompressedTrie

/-! The trie has the same nodes after any history that leaves the same
networks in it. -/

namespace RtNode

inductive Shape where
  | nil
  | node (left right : Shape) (prefixKey : Option Nat) (bitLen : Nat)
  deriving DecidableEq, Repr

def shape : RtNode → Shape
  | .nil => .nil
  | .node left right prefixKey _ bitLen =>
    .node (shape left) (shape right) prefixKey bitLen

inductive Tidy (width : Nat) : RtNode → Prop
  | nil : Tidy width .nil
  | node {left right : RtNode} {key bitLen : Nat} {value : List Route}
      (hmasked : Masked width key bitLen)
      (hkept : value ≠ [] ∨ (left ≠ .nil ∧ right ≠ .nil))
      (hleft : Tidy width left) (hright : Tidy width right) :
      Tidy width (.node left right (some key) value bitLen)

variable {family : Family} {width key prefixLen bitLen : Nat}
  {left right tree after child sibling another : RtNode} {value : List Route}
  {route : Route} {side again : Bool} {front other : List Bool}

variable {prefixKey : Option Nat}

theorem node_ne_nil : node left right prefixKey value bitLen ≠ .nil := by
  intro h
  cases h

theorem branch_ne_nil :
    branch side child sibling prefixKey value bitLen ≠ .nil := by
  cases side with
  | false | true => exact node_ne_nil

theorem Tidy.branch (hmasked : Masked width key bitLen) (hkept : value ≠ [] ∨
    (child ≠ .nil ∧ sibling ≠ .nil)) (hchild : Tidy width child) (hsibling : Tidy width sibling) :
    Tidy width (.branch side child sibling (some key) value bitLen) := by
  cases side with
  | false => exact .node hmasked hkept hchild hsibling
  | true => exact .node hmasked (hkept.imp_right And.symm) hsibling hchild

theorem Tidy.leaf (hmasked : Masked width key bitLen) :
    Tidy width (.leaf (some key) route bitLen) :=
  .node hmasked (.inl (List.cons_ne_nil _ _)) .nil .nil

theorem insertAt_tidy (hmasked : Masked family.bitWidth key prefixLen)
    (tidy : Tidy family.bitWidth tree)
    (hinsert : Table.insertAt family (some key) prefixLen route tree = .ok after) :
    Tidy family.bitWidth after ∧ after ≠ .nil := by
  induction tidy generalizing after with
  | nil =>
    cases hinsert
    exact ⟨.leaf hmasked, node_ne_nil⟩
  | @node left right nodeKey bitLen value hnode hkept hleft hright ihleft ihright =>
    have tidy := Tidy.node hnode hkept hleft hright
    simp only [Table.insertAt, commonBits_some, ok_bind] at hinsert
    split at hinsert
    · -- The node comes under a new one that has a route.
      obtain ⟨side, -, hafter⟩ := bind_eq_ok.mp hinsert
      cases hafter
      exact ⟨.branch hmasked (.inl (List.cons_ne_nil _ _)) tidy .nil, branch_ne_nil⟩
    · split at hinsert
      · cases hinsert
        exact ⟨.node hnode (.inl (by simp [addRoute])) hleft hright, node_ne_nil⟩
      · split at hinsert
        · obtain ⟨side, -, hinsert⟩ := bind_eq_ok.mp hinsert
          split at hinsert
          · obtain ⟨child, hchild, hafter⟩ := bind_eq_ok.mp hinsert
            cases hafter
            obtain ⟨htidy, hne⟩ := ihright hchild
            exact ⟨.node hnode (hkept.imp_right fun hboth =>
              ⟨hboth.1, hne⟩) hleft htidy, node_ne_nil⟩
          · obtain ⟨child, hchild, hafter⟩ := bind_eq_ok.mp hinsert
            cases hafter
            obtain ⟨htidy, hne⟩ := ihleft hchild
            exact ⟨.node hnode (hkept.imp_right fun hboth =>
              ⟨hne, hboth.2⟩) htidy hright, node_ne_nil⟩
        · -- Both come under a node without routes.
          obtain ⟨branchKey, hmask, hinsert⟩ := bind_eq_ok.mp hinsert
          obtain ⟨side, -, hafter⟩ := bind_eq_ok.mp hinsert
          obtain ⟨number, rfl, hnumber⟩ := masked_of_maskPrefix hmask
          cases hafter
          exact ⟨.branch hnumber (.inr ⟨node_ne_nil, node_ne_nil⟩) tidy
            (.leaf hmasked), branch_ne_nil⟩

theorem compress_tidy (hmasked : Masked width key bitLen)
    (hleft : Tidy width left) (hright : Tidy width right) :
    Tidy width (Table.compress left right (some key) value bitLen).1 ∧
      ((Table.compress left right (some key) value bitLen).2 = false →
        (Table.compress left right (some key) value bitLen).1 ≠ .nil) := by
  rw [Table.compress]
  split
  · next hkept =>
      exact ⟨.node hmasked hkept hleft hright, fun _ => node_ne_nil⟩
  · split
    · exact ⟨hleft, fun h => absurd h Bool.noConfusion⟩
    · exact ⟨hright, fun h => absurd h Bool.noConfusion⟩

theorem ascend_tidy (hmasked : Masked width key bitLen) (hkept : again = false → value ≠ [] ∨
    (left ≠ .nil ∧ right ≠ .nil)) (hleft : Tidy width left) (hright : Tidy width right) :
    Tidy width (Table.ascend left right (some key) value bitLen again).1 ∧
      ((Table.ascend left right (some key) value bitLen again).2 = false →
        (Table.ascend left right (some key) value bitLen again).1 ≠ .nil) := by
  cases again with
  | false =>
    exact ⟨.node hmasked (hkept rfl) hleft hright, fun _ => node_ne_nil⟩
  | true => exact compress_tidy hmasked hleft hright

theorem removeAt_tidy (tidy : Tidy family.bitWidth tree)
    (hremove : Table.removeAt family (some key) prefixLen tree = .ok (some (after, again))) :
    Tidy family.bitWidth after ∧ (again = false → after ≠ .nil) := by
  induction tidy generalizing after again with
  | nil => cases hremove
  | @node left right nodeKey bitLen value hnode hkept hleft hright ihleft ihright =>
    simp only [Table.removeAt, commonBits_some, ok_bind] at hremove
    split at hremove
    · cases hremove
    split at hremove
    · split at hremove
      · cases hremove
      · have hresult := Option.some.inj (Except.ok.inj hremove)
        have hcompress := @compress_tidy family.bitWidth nodeKey bitLen left
          right [] hnode hleft hright
        rwa [hresult] at hcompress
    split at hremove
    · cases hremove
    obtain ⟨side, -, hremove⟩ := bind_eq_ok.mp hremove
    split at hremove
    · obtain ⟨removed, hremoved, hafter⟩ := bind_eq_ok.mp hremove
      obtain ⟨⟨child, further⟩, rfl, hresult⟩ := Option.map_eq_some_iff.mp (Except.ok.inj hafter)
      obtain ⟨htidy, hne⟩ := ihright hremoved
      have hascend := @ascend_tidy family.bitWidth nodeKey bitLen left child value further hnode
        (fun hstays => hkept.imp_right fun hboth => ⟨hboth.1, hne hstays⟩) hleft htidy
      rwa [hresult] at hascend
    · obtain ⟨removed, hremoved, hafter⟩ := bind_eq_ok.mp hremove
      obtain ⟨⟨child, further⟩, rfl, hresult⟩ := Option.map_eq_some_iff.mp (Except.ok.inj hafter)
      obtain ⟨htidy, hne⟩ := ihleft hremoved
      have hascend := @ascend_tidy family.bitWidth nodeKey bitLen child right value further hnode
        (fun hstays => hkept.imp_right fun hboth => ⟨hne hstays, hboth.2⟩) htidy hright
      rwa [hresult] at hascend

def skeleton (width : Nat) : RtNode → Trie Bool
  | .nil => .nil
  | .node left right prefixKey value bitLen =>
    .node ((prefixKey.map (leading width · bitLen)).getD []) (!value.isEmpty)
      fun side => if side then skeleton width right else skeleton width left

theorem skeleton_ne_nil (hne : tree ≠ .nil) : skeleton width tree ≠ .nil := by
  cases tree with
  | nil => exact absurd rfl hne
  | node => exact nofun

theorem compressed_skeleton (sound : Sound width front tree)
    (tidy : Tidy width tree) : Compressed front (skeleton width tree) := by
  induction sound with
  | nil front => exact .nil front
  | @node front left right key bitLen value hkey hlen hfront hvalue hleft hright ihleft ihright =>
    cases tidy with
    | node hmasked hkept tidyLeft tidyRight =>
      refine .node hfront ?_ ?_
      · refine hkept.imp (fun hne => ?_) fun hboth => ?_
        · simpa using hne
        · exact ⟨false, true, nofun, skeleton_ne_nil hboth.1, skeleton_ne_nil hboth.2⟩
      · rintro (_ | _)
        · exact ihleft tidyLeft
        · exact ihright tidyRight

theorem member_node_iff : Member other (skeleton width (.node left right (some key) value bitLen)) ↔
      (leading width key bitLen = other ∧ value ≠ []) ∨ Member other (skeleton width left) ∨
        Member other (skeleton width right) := by
  rw [skeleton, Option.map_some, Option.getD_some]
  constructor
  · intro hmember
    generalize hoccupied : (!value.isEmpty) = occupied at hmember
    cases hmember with
    | here => exact .inl ⟨rfl, by simpa using hoccupied⟩
    | inside _ _ side hinside =>
      cases side with
      | false => exact .inr (.inl hinside)
      | true => exact .inr (.inr hinside)
  · rintro (⟨rfl, hne⟩ | hleft | hright)
    · have hoccupied : (!value.isEmpty) = true := by simpa using hne
      rw [hoccupied]
      exact .here _ _
    · exact .inside _ _ false hleft
    · exact .inside _ _ true hright

theorem Sound.member_skeleton_iff (sound : Sound width front tree) :
    Member other (skeleton width tree) ↔ find width tree other ≠ none := by
  induction sound with
  | nil front => exact iff_of_false nofun fun h => h rfl
  | @node front left right key bitLen value hkey hlen hfront hvalue hleft hright ihleft ihright =>
    rw [member_node_iff, find_node, ihleft, ihright]
    by_cases hsame : leading width key bitLen = other
    · subst hsame
      have hnone : ∀ side, ¬ leading width key bitLen ++ [side] <+:
          leading width key bitLen := fun side h =>
        ne_of_isPrefix_append h rfl
      rw [hleft.find_eq_none (hnone false), hright.find_eq_none (hnone true), if_pos rfl]
      simp
    · rw [if_neg hsame, ne_eq (Option.or _ _), Option.or_eq_none_iff, not_and_or]
      exact or_iff_right fun hboth => hsame hboth.1

theorem shape_eq_of_skeleton_eq (sound : Sound width front tree) (tidy : Tidy width tree)
    (soundOther : Sound width other another) (tidyOther : Tidy width another)
    (heq : skeleton width tree = skeleton width another) :
    shape tree = shape another := by
  induction sound generalizing other another with
  | nil front =>
    cases another with
    | nil => rfl
    | node => cases heq
  | @node front left right key bitLen value hkey hlen hfront hvalue hleft hright ihleft ihright =>
    cases soundOther with
    | nil => cases heq
    | @node _ leftOther rightOther keyOther bitLenOther _ hkeyOther _ _ _ hleftOther hrightOther =>
      cases tidy with
      | node hmasked _ tidyLeft tidyRight =>
        cases tidyOther with
        | node hmaskedOther _ tidyLeftOther tidyRightOther =>
          simp only [skeleton, Option.map_some, Option.getD_some, Trie.node.injEq] at heq
          obtain ⟨hfronts, -, hchildren⟩ := heq
          have hlength : bitLen = bitLenOther := by
            simpa using congrArg List.length hfronts
          subst hlength
          rw [shape, shape, eq_of_leading_eq hkey hkeyOther hmasked hmaskedOther hfronts,
            ihleft tidyLeft hleftOther tidyLeftOther (congrFun hchildren false),
            ihright tidyRight hrightOther tidyRightOther (congrFun hchildren true)]

theorem shape_eq_of_find (sound : Sound width front tree) (tidy : Tidy width tree)
    (soundOther : Sound width other another) (tidyOther : Tidy width another)
    (hsame : ∀ spelled, find width tree spelled ≠ none ↔ find width another spelled ≠ none) :
    shape tree = shape another := by
  apply shape_eq_of_skeleton_eq sound tidy soundOther tidyOther
  apply (compressed_skeleton sound tidy).eq_of_members (compressed_skeleton soundOther tidyOther)
  intro spelled
  rw [sound.member_skeleton_iff, soundOther.member_skeleton_iff, hsame]

def Hangs (width key bitLen : Nat) (side : Bool) : RtNode → Prop
  | .nil => True
  | .node _ _ childKey _ childLen => bitLen < childLen ∧ ∃ number, childKey = some number ∧
        leading width number bitLen = leading width key bitLen ∧
        bit width number bitLen = side

def Regular (width : Nat) : RtNode → Prop
  | .nil => True
  | .node left right prefixKey value bitLen =>
    ∃ key, prefixKey = some key ∧ Hangs width key bitLen false left ∧ Hangs width key bitLen true
      right ∧ (value = [] → left ≠ .nil ∧ right ≠ .nil) ∧ Regular width left ∧ Regular width right

theorem Sound.hangs (sound : Sound width (leading width key bitLen ++ [side]) tree) :
    Hangs width key bitLen side tree := by
  cases sound with
  | nil => trivial
  | @node _ left right childKey childLen value hkey hlen hfront =>
    obtain ⟨hle, heq⟩ := isPrefix_leading_iff.mp hfront
    rw [List.length_append, length_leading, List.length_singleton] at hle heq
    rw [leading_succ] at heq
    obtain ⟨hbits, hside⟩ := List.append_inj' heq rfl
    exact ⟨by omega, childKey, rfl, hbits.symm, by simpa using hside.symm⟩

theorem regular_of_sound (sound : Sound width front tree)
    (tidy : Tidy width tree) : Regular width tree := by
  induction sound with
  | nil front => trivial
  | @node front left right key bitLen value hkey hlen hfront hvalue hleft hright ihleft ihright =>
    cases tidy with
    | node hmasked hkept tidyLeft tidyRight =>
      exact ⟨key, rfl, hleft.hangs, hright.hangs,
        fun hempty => hkept.resolve_left (not_not.mpr hempty),
        ihleft tidyLeft, ihright tidyRight⟩

end RtNode

section

variable {t after : Table} {done : Bool}

theorem perform_tidy {operation : Operation} (canonical : operation.route.Canonical t.family)
    (tidy : t.root.Tidy t.family.bitWidth) (hperform : t.perform operation = .ok (after, done)) :
    after.root.Tidy t.family.bitWidth := by
  obtain ⟨key, hkey, -, -, hmasked⟩ := canonical.exists_key
  obtain rfl | rfl | ⟨root, rfl, hroot⟩ := Table.of_perform hperform
  · exact tidy
  · exact tidy
  · cases operation with
    | insert route =>
      dsimp only [Operation.route] at hkey hroot
      rw [hkey] at hroot
      exact (RtNode.insertAt_tidy hmasked tidy hroot).1
    | remove route =>
      dsimp only [Operation.route] at hkey hroot
      obtain ⟨again, hroot⟩ := hroot
      rw [hkey] at hroot
      exact (RtNode.removeAt_tidy tidy hroot).1

end

theorem tidy_run {family : Family} (operations : List Operation)
    (hcanonical : ∀ operation ∈ operations, operation.route.Canonical family) :
    ∃ t, (newTable family).run operations = .ok t ∧ t.family = family ∧
      t.Represents (present operations) ∧ t.root.Tidy family.bitWidth := by
  refine represents_run (·.root.Tidy family.bitWidth) operations hcanonical .nil ?_
  rintro t after operation done rfl canonical tidy hperform
  exact perform_tidy canonical tidy hperform

/-- Two histories that leave the same networks leave the same nodes. -/
theorem shape_eq_of_present (family : Family) (first second : List Operation)
    (hfirst : ∀ operation ∈ first, operation.route.Canonical family)
    (hsecond : ∀ operation ∈ second, operation.route.Canonical family)
    (hsame : ∀ front, (present first front).isSome = (present second front).isSome) :
    ∃ t u, (newTable family).run first = .ok t ∧ (newTable family).run second = .ok u ∧ t.root.shape
      = u.root.shape ∧ t.root.Regular family.bitWidth ∧ u.root.Regular family.bitWidth := by
  obtain ⟨t, hrun, hfamily, represents, tidy⟩ := tidy_run first hfirst
  obtain ⟨u, hrunOther, hfamilyOther, representsOther, tidyOther⟩ := tidy_run second hsecond
  have sound := represents.sound
  have soundOther := representsOther.sound
  rw [hfamily] at sound
  rw [hfamilyOther] at soundOther
  refine ⟨t, u, hrun, hrunOther, ?_, RtNode.regular_of_sound sound tidy,
    RtNode.regular_of_sound soundOther tidyOther⟩
  apply RtNode.shape_eq_of_find sound tidy soundOther tidyOther
  intro front
  by_cases hne : front = []
  · rw [hne, sound.find_nil, soundOther.find_nil]
  · have hfind := represents.find_eq hne
    have hfindOther := representsOther.find_eq hne
    rw [hfamily] at hfind
    rw [hfamilyOther] at hfindOther
    rw [hfind, hfindOther, Option.ne_none_iff_isSome, Option.ne_none_iff_isSome, hsame]

def sampleReordered : List Operation :=
  let wide : Route := ⟨⟨[10, 0, 0, 0], [255, 0, 0, 0]⟩, [], "eth0", []⟩
  let narrow : Route := ⟨⟨[10, 1, 2, 0], [255, 255, 255, 0]⟩, [], "eth1", []⟩
  let beside : Route := ⟨⟨[10, 1, 3, 0], [255, 255, 255, 0]⟩, [], "eth1", []⟩
  [.insert wide, .insert beside, .insert narrow, .remove beside]

theorem shape_eq_of_present_sampleOperations :
    ∃ t u, (newTable .inet).run sampleOperations = .ok t ∧ (newTable .inet).run sampleReordered =
      .ok u ∧ t.root.shape = u.root.shape ∧ t.root.Regular 32 ∧ u.root.Regular 32 := by
  refine shape_eq_of_present .inet sampleOperations sampleReordered (by decide)
    (by decide) fun front => ?_
  have hmember : ∀ front ∈ (sampleOperations ++ sampleReordered).map (·.route.network),
      (present sampleOperations front).isSome = (present sampleReordered front).isSome := by
    decide +kernel
  by_cases hmem : front ∈ (sampleOperations ++ sampleReordered).map (·.route.network)
  · exact hmember front hmem
  · rw [List.map_append, List.mem_append, not_or] at hmem
    rw [present_eq_none hmem.1, present_eq_none hmem.2]

end Pig.Routing
