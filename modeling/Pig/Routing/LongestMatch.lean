import Pig.Routing.Network
import Pig.Routing.Update

namespace Pig.Routing

open Go Network BitString LongestPrefix RtNode

variable {family : Family} {front : List Bool} {tree : RtNode}
  {entries : Entries Bool Route} {t : Table}

variable {best : Option Route × Int}

variable {bitLen : Nat}

theorem consider_of_le (routes : List Route) (h : (bitLen : Int) ≤ best.2) :
    Table.consider [] bitLen routes best = best := by
  induction routes with
  | nil => rfl
  | cons route rest ih =>
    rw [Table.consider, if_neg List.not_mem_nil, if_neg (by omega), ih]

theorem consider_of_lt {routes : List Route} (h : routes ≠ [] → best.2 < bitLen) :
    (Table.consider [] bitLen routes best).1 = routes.head?.or best.1 ∧
      ((Table.consider [] bitLen routes best).2 = best.2 ∨
        (Table.consider [] bitLen routes best).2 = bitLen) := by
  cases routes with
  | nil => exact ⟨rfl, .inl rfl⟩
  | cons route rest =>
    rw [Table.consider, if_neg List.not_mem_nil,
      if_pos (h (List.cons_ne_nil _ _)), consider_of_le rest (Int.le_refl _)]
    exact ⟨rfl, .inr rfl⟩

theorem RtNode.Sound.entries_below {width key nodeKey : Nat} {left right : RtNode}
    {value : List Route} (sound : Sound width front (.node left right (some nodeKey) value bitLen))
    (heq : leading width key bitLen = leading width nodeKey bitLen) (hbitLen : bitLen ≤ width) :
    Below (leading width nodeKey bitLen) (leading width key width)
      (find width (.node left right (some nodeKey) value bitLen))
      (find width (if bit width key bitLen then right else left)) := by
  have hspelled : ∀ other, other <+: leading width key width → bitLen < other.length →
      leading width nodeKey bitLen ++ [bit width key bitLen] <+: other := by
    intro other hother hlength
    obtain ⟨-, hother⟩ := isPrefix_leading_iff.mp hother
    rw [hother]
    exact isPrefix_leading_of_eq hlength heq.symm
  refine ⟨heq ▸ leading_isPrefix hbitLen, ?_, ?_, ?_⟩
  · intro other hshorter
    exact sound.find_eq_none_of_node fun h =>
      absurd h.length_le (Nat.not_le.mpr hshorter)
  · intro other hother hlength
    rw [length_leading] at hlength
    have hspelled := hspelled other hother hlength
    cases hside : bit width key bitLen with
    | false | true =>
      rw [hside] at hspelled
      exact find_below hspelled sound
  · intro other hshorter
    cases sound with
    | node hkey hlen hfront hvalue hleft hright =>
      have hnot : ∀ side, ¬ leading width nodeKey bitLen ++ [side] <+:
          other := by
        intro side h
        have hle := h.length_le
        rw [List.length_append, List.length_singleton] at hle
        omega
      split
      · exact hright.find_eq_none (hnot true)
      · exact hleft.find_eq_none (hnot false)

theorem lookupFrom_eq {dstKey : Nat} (hdst : dstKey < 2 ^ family.bitWidth)
    (sound : Sound family.bitWidth front tree)
    (hbest : best.2 ≤ 0 ∨ best.2 < front.length) :
    Table.lookupFrom family [] (some dstKey) tree best = .ok ((longest (find family.bitWidth tree)
        (leading family.bitWidth dstKey family.bitWidth)).or best.1) := by
  induction sound generalizing best with
  | nil front =>
    have hnone : longest (find family.bitWidth .nil) (leading family.bitWidth dstKey
      family.bitWidth) = none := longest_eq_none fun _ _ => rfl
    rw [hnone, Option.none_or]
    rfl
  | @node front left right nodeKey bitLen value hnode hbitLen hnodeFront hvalue
      hleft hright ihleft ihright =>
    have sound := Sound.node hnode hbitLen hnodeFront hvalue hleft hright
    have hfrontLen : front.length ≤ bitLen := by
      simpa using hnodeFront.length_le
    simp only [Table.lookupFrom, commonBits_some, ok_bind]
    by_cases hshared : common family.bitWidth dstKey nodeKey < bitLen
    · have hne := (le_common_iff hdst hnode hbitLen).not.mp (by omega)
      rw [if_pos hshared, longest_eq_none, Option.none_or]
      · rfl
      · intro other hother
        apply sound.find_eq_none_of_node
        intro h
        have hprefix := isPrefix_leading_iff.mp (h.trans hother)
        rw [length_leading] at hprefix
        exact hne hprefix.2.symm
    have heq := (le_common_iff hdst hnode hbitLen).mp (by omega)
    obtain ⟨hroute, hlength⟩ := @consider_of_lt best bitLen value fun hne =>
      by have hpositive := hvalue hne; omega
    rw [if_neg hshared]
    have hbelow := sound.entries_below heq hbitLen
    rw [hbelow.longest_eq, find_self, Option.or_assoc, ← hroute]
    by_cases hwhole : family.bitWidth ≤ bitLen
    · rw [if_pos hwhole, longest_eq_none, Option.none_or]
      · rfl
      · intro other hother
        apply hbelow.inner_none
        have hle := hother.length_le
        rw [length_leading] at hle ⊢
        omega
    rw [if_neg hwhole, getBit_some (Nat.not_le.mp hwhole), ok_bind]
    cases hside : bit family.bitWidth dstKey bitLen with
    | false =>
      apply ihleft
      rw [List.length_append, length_leading, List.length_singleton]
      omega
    | true =>
      apply ihright
      rw [List.length_append, length_leading, List.length_singleton]
      omega

theorem RtNode.Sound.find_nil {width : Nat} (sound : Sound width front tree) :
    find width tree [] = none := by
  cases sound with
  | nil => rfl
  | @node front left right key bitLen value hkey hlen hfront hvalue hleft hright =>
    have hnot : ∀ side, ¬ leading width key bitLen ++ [side] <+: [] := by
      simp
    rw [find_node, hleft.find_eq_none (hnot false), hright.find_eq_none (hnot true)]
    split
    · next hnil =>
        have hzero : bitLen = 0 := by
          simpa using congrArg List.length hnil
        by_cases hempty : value = []
        · rw [hempty]
          rfl
        · exact absurd (hvalue hempty) (by omega)
    · rfl

inductive Operation where
  | insert (route : Route)
  | remove (route : Route)
  deriving DecidableEq, Repr

namespace Operation

def route : Operation → Route
  | .insert route => route
  | .remove route => route

def leaves : Operation → Option Route
  | .insert route => some route
  | .remove _ => none

end Operation

def Table.perform (t : Table) : Operation → Checked (Table × Bool)
  | .insert route => t.insert route
  | .remove route => t.remove route

theorem Table.of_perform {after : Table} {operation : Operation} {done : Bool}
    (h : t.perform operation = .ok (after, done)) :
    after = t ∨ after = { t with defaultRoute := operation.leaves } ∨ ∃ root, after = { t with root
      := root } ∧ match operation with
      | .insert route => insertAt t.family (routeToTablePrefix route) (routeToPrefixBits route)
          route t.root = .ok root
      | .remove route => ∃ again, removeAt t.family (routeToTablePrefix route)
          (routeToPrefixBits route) t.root = .ok (some (root, again)) := by
  cases operation with
  | insert route =>
    simp only [Table.perform, Table.insert] at h
    split_ifs at h
    · cases h
      exact .inl rfl
    · cases h
      exact .inr (.inl rfl)
    · obtain ⟨root, hroot, hafter⟩ := bind_eq_ok.mp h
      cases hafter
      exact .inr (.inr ⟨root, rfl, hroot⟩)
  | remove route =>
    simp only [Table.perform, Table.remove] at h
    split_ifs at h
    · cases h
      exact .inl rfl
    · cases h
      exact .inr (.inl rfl)
    · obtain ⟨_ | ⟨root, again⟩, hremoved, hafter⟩ := bind_eq_ok.mp h
      · cases hafter
        exact .inl rfl
      · cases hafter
        exact .inr (.inr ⟨root, rfl, again, hremoved⟩)

structure Table.Represents (t : Table) (entries : Entries Bool Route) :
    Prop where
  sound : Sound t.family.bitWidth [] t.root
  ignore_eq : t.ignore = []
  entries_eq : entries = Function.update (find t.family.bitWidth t.root) [] t.defaultRoute

theorem Table.Represents.find_eq (represents : t.Represents entries) (hne : front ≠ []) :
    t.root.find t.family.bitWidth front = entries front := by
  rw [represents.entries_eq, Function.update_of_ne hne]

theorem represents_newTable (family : Family) : (newTable family).Represents fun _ => none where
  sound := .nil _
  ignore_eq := rfl
  entries_eq := by
    funext front
    rw [Function.update_apply]
    split <;> rfl

theorem Table.Represents.perform (represents : t.Represents entries)
    {operation : Operation} (canonical : operation.route.Canonical t.family) :
    ∃ after done, t.perform operation = .ok (after, done) ∧ after.family = t.family ∧
      after.Represents (Function.update entries operation.route.network operation.leaves) := by
  obtain ⟨sound, hignore, rfl⟩ := represents
  obtain ⟨key, hkey, hlt, hnetwork, -⟩ := canonical.exists_key
  have hfamily : ¬ operation.route.family ≠ some t.family := not_not.mpr canonical.family_eq
  have hle := canonical.prefixBits_le
  by_cases hzero : routeToPrefixBits operation.route = 0
  · have hnil : operation.route.network = [] := by
      rw [Route.network, hzero, List.take_zero]
    have hdefault : ({ t with defaultRoute := operation.leaves } : Table).Represents _ :=
      ⟨sound, hignore, rfl⟩
    rw [hnil, Function.update_idem]
    cases operation with
    | insert route | remove route =>
      exact ⟨_, _, (if_neg hfamily).trans (if_pos hzero), rfl, hdefault⟩
  · have hpositive := Nat.pos_of_ne_zero hzero
    have hne : operation.route.network ≠ [] := by
      rw [← hnetwork]
      exact List.ne_nil_of_length_pos (by rwa [length_leading])
    rw [Function.update_comm hne.symm, ← hnetwork]
    cases operation with
    | insert route =>
      obtain ⟨after, hafter, updated⟩ :=
        insertAt_sound hlt hle hpositive List.nil_prefix route sound
      refine ⟨{ t with root := after }, true, ?_, rfl, updated.sound, hignore, ?_⟩
      · refine (if_neg hfamily).trans ((if_neg hzero).trans ?_)
        simp only [Operation.route] at hkey hafter
        rw [hkey, hafter]
        rfl
      · rw [updated.find_eq]
        rfl
    | remove route =>
      obtain ⟨result, hresult, removed⟩ := removeAt_sound hlt hle sound
      simp only [Operation.route] at hkey hresult
      have hremove : t.remove route = _ := (if_neg hfamily).trans (if_neg hzero)
      rw [hkey, hresult] at hremove
      cases removed with
      | absent habsent =>
        refine ⟨_, _, hremove, rfl, sound, hignore, ?_⟩
        rw [Operation.leaves, ← habsent, Function.update_eq_self]
      | found hpresent updated =>
        exact ⟨_, _, hremove, rfl, updated.sound, hignore, by rw [updated.find_eq]; rfl⟩

theorem Table.destinationKey_eq (t : Table) {dst : Bytes} (h : familyOf dst = some t.family) :
    ∃ address : Bytes, 8 * address.length = t.family.bitWidth ∧ t.destinationKey dst = some
      address.toNatBE ∧ addressBits dst = ofBytes address := by
  unfold Table.destinationKey addressBits
  cases hfamily : t.family with
  | inet =>
    have h4 := familyOf_eq_inet.mp (h.trans (congrArg some hfamily))
    refine ⟨to4 dst, by rw [length_to4 h4]; rfl, if_neg h4, if_pos h4⟩
  | inet6 =>
    obtain ⟨h4, h16⟩ := familyOf_eq_inet6.mp (h.trans (congrArg some hfamily))
    have hlen := length_of_to16 h4 h16
    refine ⟨to16 dst, by rw [to16_of_length hlen, hlen]; rfl, ?_, ?_⟩
    · exact (if_neg (not_not.mpr h4)).trans (if_neg h16)
    · exact if_neg (not_not.mpr h4)

theorem Table.destinationKey_eq_none (t : Table) {dst : Bytes}
    (h : familyOf dst ≠ some t.family) : t.destinationKey dst = none := by
  unfold Table.destinationKey
  cases hfamily : t.family with
  | inet =>
    rw [hfamily, Ne, familyOf_eq_inet, not_not] at h
    exact if_pos h
  | inet6 =>
    rw [hfamily, Ne, familyOf_eq_inet6, not_and, not_not] at h
    by_cases h4 : to4 dst = []
    · exact (if_neg (not_not.mpr h4)).trans (if_pos (h h4))
    · exact if_pos h4

def Covers (family : Family) (dst : Bytes) (front : List Bool) : Prop :=
  familyOf dst = some family ∧ front <+: addressBits dst

theorem Table.Represents.lookup (represents : t.Represents entries) (dst : Bytes) :
    ∃ result, t.lookup dst = .ok result ∧ IsLongest entries (Covers t.family dst) result := by
  by_cases hfamily : familyOf dst = some t.family
  · obtain ⟨address, hwidth, hkey, hbits⟩ := t.destinationKey_eq hfamily
    obtain ⟨sound, hignore, rfl⟩ := represents
    have hlt : address.toNatBE < 2 ^ t.family.bitWidth := by
      rw [← hwidth]
      exact toNatBE_lt_two_pow address
    have hspelled : leading t.family.bitWidth address.toNatBE
        t.family.bitWidth = addressBits dst := by
      rw [hbits, ← leading_toNatBE, hwidth]
    have hcovers : Covers t.family dst = (· <+: addressBits dst) := by
      funext front
      simp [Covers, hfamily]
    have hbelow : Below [] (addressBits dst) (Function.update (find t.family.bitWidth t.root) []
        t.defaultRoute) (find t.family.bitWidth t.root) := by
      refine ⟨List.nil_prefix, fun _ h => absurd h (Nat.not_lt_zero _), ?_, ?_⟩
      · intro other _ hlength
        exact Function.update_of_ne (List.ne_nil_of_length_pos hlength) _ _
      · intro other hlength
        rw [List.eq_nil_of_length_eq_zero (Nat.le_zero.mp hlength)]
        exact sound.find_nil
    have hlookup : ∀ best : Option Route × Int, best.2 ≤ 0 → best.1 = t.defaultRoute →
        lookupFrom t.family t.ignore (some address.toNatBE) t.root best =
          .ok (longest (Function.update (find t.family.bitWidth t.root) []
            t.defaultRoute) (addressBits dst)) := by
      intro best hlength hbest
      rw [hignore, lookupFrom_eq hlt sound (.inl hlength), hspelled,
        hbelow.longest_eq, Function.update_self, hbest]
    refine ⟨_, ?_, hcovers ▸ isLongest_longest _ (addressBits dst)⟩
    unfold Table.lookup
    rw [hkey]
    cases hdefault : t.defaultRoute with
    | none =>
      rw [hdefault] at hlookup
      exact hlookup (none, -1) (by decide) rfl
    | some route =>
      rw [hdefault] at hlookup
      exact hlookup (some route, 0) (Int.le_refl 0) rfl
  · refine ⟨none, ?_, ?_, fun _ h => by cases h⟩
    · rw [Table.lookup, t.destinationKey_eq_none hfamily]
    · exact iff_of_true rfl fun _ h => absurd h.1 hfamily

def Table.run : Table → List Operation → Checked Table
  | t, [] => .ok t
  | t, operation :: operations => do
      let (t, _) ← t.perform operation
      t.run operations

/-- The route that a network has: that of the last operation on it, if it was
an insertion. -/
def present (operations : List Operation) : Entries Bool Route := fun front =>
  (operations.reverse.find? (·.route.network == front)).bind Operation.leaves

theorem present_eq_none {operations : List Operation}
    (h : front ∉ operations.map (·.route.network)) :
    present operations front = none := by
  have hnone : operations.reverse.find? (·.route.network == front) = none := by
    rw [List.find?_eq_none]
    intro operation hmem heq
    exact h (List.mem_map.mpr ⟨operation, List.mem_reverse.mp hmem, beq_iff_eq.mp heq⟩)
  rw [present, hnone]
  rfl

theorem present_append (operations : List Operation) (operation : Operation) :
    present (operations ++ [operation]) = Function.update (present operations)
      operation.route.network operation.leaves := by
  funext front
  rw [present, List.reverse_append, List.reverse_singleton,
    List.singleton_append, List.find?_cons, Function.update_apply]
  by_cases heq : front = operation.route.network
  · simp [heq]
  · have hne : (operation.route.network == front) = false := beq_eq_false_iff_ne.mpr (Ne.symm heq)
    rw [hne, if_neg heq]
    rfl

theorem Table.run_append (t : Table) (before : List Operation) (operation : Operation) :
    t.run (before ++ [operation]) = t.run before >>= fun t => t.perform operation >>= fun (t, _) =>
        pure t := by
  induction before generalizing t with
  | nil =>
    rfl
  | cons first before ih =>
    rw [List.cons_append, Table.run, Table.run]
    cases t.perform first with
    | error fault => rfl
    | ok after => exact ih after.1

theorem represents_run (kept : Table → Prop) (operations : List Operation)
    (hcanonical : ∀ operation ∈ operations, operation.route.Canonical family)
    (hnew : kept (newTable family)) (hkept : ∀ t after operation done, t.family = family →
    operation.route.Canonical family → kept t → t.perform operation = .ok (after, done) →
    kept after) : ∃ t, (newTable family).run operations = .ok t ∧ t.family = family ∧
      t.Represents (present operations) ∧ kept t := by
  induction operations using List.reverseRecOn with
  | nil => exact ⟨_, rfl, rfl, represents_newTable family, hnew⟩
  | append_singleton operations operation ih =>
    obtain ⟨t, hrun, rfl, represents, holds⟩ := ih fun operation hmem =>
      hcanonical operation (List.mem_append_left _ hmem)
    have canonical := hcanonical operation (List.mem_append_right _ (List.mem_singleton.mpr rfl))
    obtain ⟨after, done, hperform, hfamily, hafter⟩ := represents.perform canonical
    refine ⟨after, ?_, hfamily, ?_, hkept t after operation done rfl canonical holds hperform⟩
    · rw [Table.run_append, hrun, ok_bind, hperform]
      rfl
    · rw [present_append]
      exact hafter

/-- A lookup finds the route of the longest network in the table that contains
the address, and nothing only if there is no such network. -/
theorem lookup_isLongest (family : Family) (operations : List Operation)
    (hcanonical : ∀ operation ∈ operations, operation.route.Canonical family) (dst : Bytes) :
    ∃ t result, (newTable family).run operations = .ok t ∧ t.lookup dst = .ok result ∧
      IsLongest (present operations) (Covers family dst) result := by
  obtain ⟨t, hrun, rfl, represents, -⟩ := represents_run (fun _ => True) operations hcanonical
    trivial fun _ _ _ _ _ _ _ _ => trivial
  obtain ⟨result, hlookup, hlongest⟩ := represents.lookup dst
  exact ⟨t, result, hrun, hlookup, hlongest⟩

def sampleOperations : List Operation :=
  let wide : Route := ⟨⟨[10, 0, 0, 0], [255, 0, 0, 0]⟩, [], "eth0", []⟩
  let narrow : Route := ⟨⟨[10, 1, 2, 0], [255, 255, 255, 0]⟩, [], "eth1", []⟩
  let host : Route := ⟨⟨[10, 1, 2, 3], [255, 255, 255, 255]⟩, [], "lo", []⟩
  [.insert narrow, .insert wide, .insert host,
    .insert { narrow with interface := "eth2" }, .remove host]

theorem lookup_isLongest_sampleOperations :
    ∃ t result, (newTable .inet).run sampleOperations = .ok t ∧ t.lookup [10, 1, 2, 3] = .ok result
      ∧ IsLongest (present sampleOperations) (Covers .inet [10, 1, 2, 3]) result ∧
      result.map (·.interface) = some "eth2" := by
  obtain ⟨t, result, hrun, hlookup, hlongest⟩ :=
    lookup_isLongest .inet sampleOperations (by decide) [10, 1, 2, 3]
  have hresult : ((newTable .inet).run sampleOperations >>=
      fun t => t.lookup [10, 1, 2, 3]).map (·.map (·.interface)) =
      .ok (some "eth2") := by
    decide +kernel
  rw [hrun, ok_bind, hlookup] at hresult
  exact ⟨t, result, hrun, hlookup, hlongest, Except.ok.inj hresult⟩

end Pig.Routing
