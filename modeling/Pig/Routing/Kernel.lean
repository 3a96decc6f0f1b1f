import Pig.Routing.Netlink

namespace Pig.Routing

open Go Network BitString LongestPrefix RtNode

structure KernelRoute where
  family : Family
  dst : Bytes
  dstLen : Nat
  scope : RouteScope
  gateway : Bytes
  oif : Nat
  sized : dst = [] ∧ dstLen = 0 ∨ 8 * dst.length = family.bitWidth ∧ dstLen ≤ family.bitWidth
  unmapped : family = .inet6 → to4 dst = []
  deriving DecidableEq, Repr

namespace KernelRoute

def network (route : KernelRoute) : List Bool := (ofBytes route.dst).take route.dstLen

def address (route : KernelRoute) : List Bool := ofBytes (fullAddress route.family route.dst)

def hop (system : System) (route : KernelRoute) : Hop :=
  NetlinkRoute.hop system route.family route.gateway route.oif

def message (type : MessageType) (route : KernelRoute) : NetlinkRoute where
  hdrType := type
  msg := ⟨some route.family, route.dstLen, .main, route.scope, .unicast⟩
  dst := route.dst
  gateway := route.gateway
  oif := route.oif

/-- Routes that go through a gateway have a scope wider than the link. -/
def Gatewayed (route : KernelRoute) : Prop :=
  route.gateway ≠ [] ∧ (route.scope = .universe ∨ route.scope = .site)

def Is (family : Family) (front : List Bool) (route : KernelRoute) : Prop :=
  route.family = family ∧ route.network = front

instance (family : Family) (front : List Bool) (route : KernelRoute) : Decidable
  (route.Is family front) := inferInstanceAs (Decidable (_ ∧ _))

variable {family : Family} {front : List Bool} {route : KernelRoute}

theorem dst_eq (route : KernelRoute) :
    route.dst = [] ∨ 8 * route.dst.length = route.family.bitWidth :=
  route.sized.imp And.left And.left

theorem dstLen_le (route : KernelRoute) : route.dstLen ≤ route.family.bitWidth := by
  rcases route.sized with ⟨-, hzero⟩ | ⟨-, hle⟩
  · omega
  · exact hle

theorem spells (route : KernelRoute) :
    Spells route.family (attrIP route.family route.dst (zeroIP route.family))
      (fullAddress route.family route.dst) :=
  spells_attrIP route.dst_eq route.unmapped

theorem length_address (route : KernelRoute) : route.address.length = route.family.bitWidth := by
  rw [address, length_ofBytes, route.spells.width_eq]

theorem network_eq (route : KernelRoute) : route.network = route.address.take route.dstLen := by
  rw [network, address, fullAddress]
  rcases route.sized with ⟨hnil, hzero⟩ | ⟨hwidth, -⟩
  · rw [hzero, List.take_zero, List.take_zero]
  · rw [if_neg]
    intro hnil
    rw [hnil] at hwidth
    cases hfamily : route.family <;> simp [hfamily, Family.bitWidth] at hwidth

theorem network_isPrefix (route : KernelRoute) : route.network <+: route.address := by
  rw [network_eq]
  exact List.take_prefix _ _

theorem address_eq_of_length (h : route.network.length = route.family.bitWidth) :
    route.address = route.network :=
  (route.network_isPrefix.eq_of_length (h.trans route.length_address.symm)).symm

theorem to4_fullAddress (route : KernelRoute) (h : route.family = .inet6) :
    to4 (fullAddress route.family route.dst) = [] := by
  rw [fullAddress]
  split
  · rw [h]
    decide
  · exact route.unmapped h

end KernelRoute

inductive Change where
  | add (route : KernelRoute)
  | delete (route : KernelRoute)
  deriving DecidableEq, Repr

namespace Change

def route : Change → KernelRoute
  | .add route => route
  | .delete route => route

def leaves : Change → Option KernelRoute
  | .add route => some route
  | .delete _ => none

def message : Change → NetlinkRoute
  | .add route => route.message .newRoute
  | .delete route => route.message .delRoute

end Change

structure Kernel where
  routes : List KernelRoute
  distinct : routes.Pairwise fun route other =>
    ¬ other.Is route.family route.network

namespace Kernel

def entries (kernel : Kernel) (family : Family) : Entries Bool KernelRoute :=
  fun front => kernel.routes.find? (·.Is family front)

def apply (kernel : Kernel) (change : Change) : Kernel where
  routes := kernel.routes.filter (¬ ·.Is change.route.family change.route.network) ++
    change.leaves.toList
  distinct := by
    refine List.pairwise_append.mpr ⟨kernel.distinct.filter _, ?_, ?_⟩
    · cases change with
      | add route => exact List.pairwise_singleton _ _
      | delete route => exact List.Pairwise.nil
    · intro route hroute other hother his
      cases change with
      | add added =>
        cases List.mem_singleton.mp hother
        have hkept := (List.mem_filter.mp hroute).2
        exact of_decide_eq_true hkept ⟨his.1.symm, his.2.symm⟩
      | delete deleted => exact absurd hother List.not_mem_nil

def after (kernel : Kernel) (changes : List Change) : Kernel := changes.foldl apply kernel

def dump (kernel : Kernel) : List NetlinkRoute := kernel.routes.map (·.message .newRoute)

/-- The route in use for an address, reported as a route to that host. -/
def query (kernel : Kernel) (family : Family) (dst : Bytes) : Option NetlinkRoute :=
  (longest (kernel.entries family) (ofBytes dst)).map fun route =>
    { hdrType := .newRoute
      msg := ⟨some family, family.bitWidth, .main, .universe, .unicast⟩
      dst := dst
      gateway := route.gateway
      oif := route.oif }

def loaded (system : System) (kernel : Kernel) (family : Family) : Entries Bool Hop := fun front =>
  ((kernel.entries family front).filter (·.scope ≠ .host)).map (KernelRoute.hop system)

variable {kernel : Kernel} {family : Family} {front : List Bool}
  {change : Change} {route : KernelRoute} {system : System}

theorem of_entries (h : kernel.entries family front = some route) : route.Is family front := by
  have hfound := List.find?_some h
  exact of_decide_eq_true hfound

theorem entries_apply : (kernel.apply change).entries family front =
    if change.route.Is family front then change.leaves
    else kernel.entries family front := by
  rw [entries, apply, List.find?_append]
  split
  · next his =>
      have hnone : (kernel.routes.filter (¬ ·.Is change.route.family change.route.network)).find?
            (·.Is family front) = none := by
        rw [List.find?_eq_none]
        intro route hroute hfound
        have hkept := of_decide_eq_true (List.mem_filter.mp hroute).2
        have hroute := of_decide_eq_true hfound
        rw [his.1, his.2] at hkept
        exact hkept hroute
      rw [hnone, Option.none_or]
      cases change with
      | add route => exact List.find?_cons_of_pos (decide_eq_true his)
      | delete route => rfl
  · next his =>
      have hfilter : (kernel.routes.filter (¬ ·.Is change.route.family change.route.network)).find?
            (·.Is family front) = kernel.entries family front := by
        rw [List.find?_filter]
        congr 1
        funext route
        by_cases hroute : route.Is family front
        · have hkept : ¬ route.Is change.route.family change.route.network := by
            rintro ⟨hfamily, hnetwork⟩
            exact his ⟨hfamily.symm.trans hroute.1, hnetwork.symm.trans hroute.2⟩
          simp [hroute, hkept]
        · simp [hroute]
      have hlast : change.leaves.toList.find? (·.Is family front) = none := by
        cases change with
        | add route => 
          exact List.find?_cons_of_neg (by simpa [Change.route] using his)
        | delete route => rfl
      rw [hfilter, hlast, Option.or_none]

theorem after_append (before later : List Change) :
    kernel.after (before ++ later) = (kernel.after before).after later :=
  List.foldl_append

theorem entries_after {changes : List Change}
    (h : ∀ change ∈ changes, ¬ change.route.Is family front) :
    (kernel.after changes).entries family front = kernel.entries family front := by
  induction changes generalizing kernel with
  | nil => rfl
  | cons change changes ih =>
    have hrest := @ih (kernel.apply change) fun change hchange =>
      h change (List.mem_cons_of_mem _ hchange)
    rw [after, List.foldl_cons]
    rw [after] at hrest
    rw [hrest, entries_apply, if_neg (h change (List.mem_cons_self ..))]

theorem entries_after_last {before later : List Change} (his : change.route.Is family front)
    (hlater : ∀ change ∈ later, ¬ change.route.Is family front) :
    (kernel.after (before ++ change :: later)).entries family front = change.leaves := by
  rw [after_append]
  change (((kernel.after before).apply change).after later).entries _ _ = _
  rw [entries_after hlater, entries_apply, if_pos his]

theorem loaded_of_entries (gatewayed : route.Gatewayed)
    (h : kernel.entries family front = some route) :
    kernel.loaded system family front = some (route.hop system) := by
  have hscope : route.scope ≠ .host := by
    rcases gatewayed.2 with hscope | hscope <;> rw [hscope] <;> decide
  rw [loaded, h, Option.filter_some, if_pos (decide_eq_true hscope), Option.map_some]

theorem longest_eq (h : kernel.entries family front = some route) :
    longest (kernel.entries family) front = some route := by
  have hlongest := isLongest_longest (kernel.entries family) front
  cases hresult : longest (kernel.entries family) front with
  | none =>
    have hnone := hlongest.none_iff.mp hresult front (List.prefix_refl _)
    rw [h] at hnone
    exact absurd hnone (Option.some_ne_none route)
  | some found =>
    obtain ⟨other, hother, hfound, hmax⟩ := hlongest.longest found hresult
    have hlength := hmax front (List.prefix_refl _) (Option.ne_none_iff_exists'.mpr ⟨route, h⟩)
    rw [hother.eq_of_length_le hlength] at hfound
    rw [← hfound, h]

theorem of_loaded (h : kernel.loaded system family front ≠ none) :
    ∃ route, kernel.entries family front = some route ∧
      kernel.loaded system family front = some (route.hop system) := by
  obtain ⟨hop, hhop⟩ := Option.ne_none_iff_exists'.mp h
  obtain ⟨route, hroute, rfl⟩ := Option.map_eq_some_iff.mp hhop
  exact ⟨route, (Option.filter_eq_some_iff.mp hroute).1, hhop⟩

end Kernel

end Pig.Routing
