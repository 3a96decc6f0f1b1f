import Pig.Lib.Run
import Pig.Routing.Kernel

namespace Pig.Routing

open Go Network BitString LongestPrefix RtNode

def Table.entries (t : Table) : Entries Bool Route :=
  Function.update (find t.family.bitWidth t.root) [] t.defaultRoute

abbrev Hops := Family → Entries Bool Hop

def Tables.hops (tables : Tables) : Hops := fun family front =>
  ((tables.forFamily family).entries front).map Route.hop

def Hops.put (hops : Hops) (family : Family) (front : List Bool) (hop : Option Hop) : Hops :=
  Function.update hops family (Function.update (hops family) front hop)

theorem Hops.put_apply (hops : Hops) (family other : Family)
    (front spelled : List Bool) (hop : Option Hop) :
    hops.put family front hop other spelled =
      if other = family ∧ spelled = front then hop else hops other spelled := by
  rw [Hops.put]
  by_cases hfamily : other = family
  · subst hfamily
    rw [Function.update_self, Function.update_apply]
    simp
  · rw [Function.update_of_ne hfamily, if_neg fun h => hfamily h.1]

structure Tables.Shows (tables : Tables) (hops : Hops) : Prop where
  family_eq : ∀ family, (tables.forFamily family).family = family
  represents : ∀ family, ∃ entries, (tables.forFamily family).Represents entries ∧
      hops family = fun front => (entries front).map Route.hop

variable {tables : Tables}

variable {hops : Hops}

theorem Tables.Shows.hops_eq (shows : tables.Shows hops) : tables.hops = hops := by
  funext family
  obtain ⟨entries, represents, hhops⟩ := shows.represents family
  rw [hhops]
  rw [represents.entries_eq]
  rfl

theorem Tables.shows_new : Tables.new.Shows fun _ _ => none where
  family_eq := by
    intro family
    cases family <;> rfl
  represents := by
    intro family
    refine ⟨fun _ => none, ?_, rfl⟩
    cases family
    · exact represents_newTable .inet
    · exact represents_newTable .inet6

variable {family : Family}

theorem Tables.Shows.perform (shows : tables.Shows hops) (operation : Operation)
    (canonical : operation.route.Canonical family) :
    ∃ after, tables.modify family (·.perform operation) = .ok after ∧ after.Shows
      (hops.put family operation.route.network (operation.leaves.map Route.hop)) := by
  obtain ⟨entries, represents, hhops⟩ := shows.represents family
  obtain ⟨t, done, hdone, hfamily, hafter⟩ :=
    represents.perform ((shows.family_eq family).symm ▸ canonical)
  rw [shows.family_eq] at hfamily
  have hput : hops.put family operation.route.network (operation.leaves.map Route.hop) family =
      fun spelled => (Function.update entries operation.route.network operation.leaves
        spelled).map Route.hop := by
    funext spelled
    rw [Hops.put_apply, hhops, Function.update_apply]
    simp only [true_and]
    split <;> rfl
  cases family with
  | inet =>
    refine ⟨{ tables with v4 := t }, ?_, ?_, ?_⟩
    · rw [Tables.modify, hdone]
      rfl
    · intro other
      cases other
      · exact hfamily
      · exact shows.family_eq .inet6
    · intro other
      cases other
      · exact ⟨_, hafter, hput⟩
      · exact shows.represents .inet6
  | inet6 =>
    refine ⟨{ tables with v6 := t }, ?_, ?_, ?_⟩
    · rw [Tables.modify, hdone]
      rfl
    · intro other
      cases other
      · exact shows.family_eq .inet
      · exact hfamily
    · intro other
      cases other
      · exact shows.represents .inet
      · exact ⟨_, hafter, hput⟩

section

variable {rt : Route}

theorem Tables.Shows.insert (shows : tables.Shows hops) (canonical : rt.Canonical family) :
    ∃ after, tables.modify family (·.insert rt) = .ok after ∧
      after.Shows (hops.put family rt.network (some rt.hop)) :=
  shows.perform (.insert rt) canonical

theorem Tables.Shows.remove (shows : tables.Shows hops) (canonical : rt.Canonical family) :
    ∃ after, tables.modify family (·.remove rt) = .ok after ∧
      after.Shows (hops.put family rt.network none) :=
  shows.perform (.remove rt) canonical

end

variable (system : System)

theorem KernelRoute.converts (type : MessageType) (route : KernelRoute) :
    ∃ rt, convertNetlinkRoute system (route.message type) = some rt ∧ rt.Canonical route.family ∧
      Spells route.family rt.destination.ip (fullAddress route.family route.dst) ∧
      rt.network = route.network ∧ rt.hop = route.hop system := by
  obtain ⟨rt, hconvert, canonical, spells, hnetwork, hhop⟩ := @convertNetlinkRoute_eq system
    (route.message type) route.family rfl route.dstLen_le route.dst_eq route.unmapped
  exact ⟨rt, hconvert, canonical, spells, hnetwork.trans route.network_eq.symm, hhop⟩

theorem includeLoadedRoute_message (type : MessageType) (route : KernelRoute) :
    includeLoadedRoute (route.message type).msg = decide (route.scope ≠ .host) := by
  cases hscope : route.scope <;>
    simp [includeLoadedRoute, isLinkScopeNeighbor, KernelRoute.message, hscope]

def listed (system : System) (routes : List KernelRoute) : Hops :=
  fun family front =>
    ((routes.find? (·.Is family front)).filter (·.scope ≠ .host)).map (KernelRoute.hop system)

theorem loadRoutes_cons (route : KernelRoute) (messages : List NetlinkRoute)
    {rt : Route} (hconvert : convertNetlinkRoute system (route.message .newRoute) = some rt) :
    loadRoutes system (route.message .newRoute :: messages) =
      if route.scope ≠ .host then rt :: loadRoutes system messages
      else loadRoutes system messages := by
  have hmain : ¬ (route.message .newRoute).msg.table ≠ .main := not_not.mpr rfl
  rw [loadRoutes, List.filterMap_cons, if_neg hmain, hconvert, includeLoadedRoute_message]
  by_cases hscope : route.scope ≠ .host <;> simp [hscope, Option.filter, loadRoutes]

variable {routes : List KernelRoute}

variable {front : List Bool}

theorem listed_cons_of_not {route : KernelRoute} (h : ¬ route.Is family front) :
    listed system (route :: routes) family front = listed system routes family front := by
  rw [listed, listed, List.find?_cons_of_neg (by simpa using h)]

theorem listed_eq_none (h : ∀ route ∈ routes, ¬ route.Is family front) :
    listed system routes family front = none := by
  have hnone : routes.find? (·.Is family front) = none := by
    rw [List.find?_eq_none]
    intro route hroute
    simpa using h route hroute
  rw [listed, hnone]
  rfl

theorem listed_cons_of_is {route : KernelRoute} (h : route.Is family front) :
    listed system (route :: routes) family front =
      if route.scope ≠ .host then some (route.hop system) else none := by
  rw [listed, List.find?_cons_of_pos (by simpa using h)]
  by_cases hscope : route.scope ≠ .host <;> simp [hscope, Option.filter]

theorem Tables.Shows.insertAll (shows : tables.Shows hops)
    (system : System) (distinct : routes.Pairwise fun route other =>
      ¬ other.Is route.family route.network) :
    ∃ after, tables.insertAll (loadRoutes system (routes.map (·.message .newRoute))) = .ok after ∧
      after.Shows fun family front =>
        (listed system routes family front).or (hops family front) := by
  induction routes generalizing tables hops with
  | nil => exact ⟨tables, rfl, shows⟩
  | cons route routes ih =>
    obtain ⟨hfresh, distinct⟩ := List.pairwise_cons.mp distinct
    obtain ⟨rt, hconvert, canonical, -, hnetwork, hhop⟩ := route.converts system .newRoute
    rw [List.map_cons, loadRoutes_cons system route _ hconvert]
    have hrest : ∀ family front, route.Is family front →
        listed system routes family front = none := by
      rintro family front ⟨rfl, rfl⟩
      exact listed_eq_none system hfresh
    by_cases hscope : route.scope ≠ .host
    · obtain ⟨middle, hmiddle, showsMiddle⟩ := shows.insert canonical
      obtain ⟨after, hafter, showsAfter⟩ := ih showsMiddle distinct
      refine ⟨after, ?_, ?_⟩
      · rw [if_pos hscope, Tables.insertAll, canonical.family_eq]
        simp only [hmiddle, ok_bind]
        exact hafter
      · convert showsAfter using 3 with family front
        rw [Hops.put_apply, hnetwork, hhop]
        by_cases his : route.Is family front
        · rw [listed_cons_of_is system his, if_pos hscope,
            hrest family front his, if_pos ⟨his.1.symm, his.2.symm⟩]
          rfl
        · rw [listed_cons_of_not system his, if_neg fun h => his ⟨h.1.symm, h.2.symm⟩]
    · obtain ⟨after, hafter, showsAfter⟩ := ih shows distinct
      refine ⟨after, ?_, ?_⟩
      · rw [if_neg hscope]
        exact hafter
      · convert showsAfter using 3 with family front
        by_cases his : route.Is family front
        · rw [listed_cons_of_is system his, if_neg hscope, hrest family front his]
        · rw [listed_cons_of_not system his]

theorem shows_initFromOS (kernel : Kernel) :
    ∃ tables, initFromOS system kernel.dump = .ok tables ∧ tables.Shows (kernel.loaded system) := by
  obtain ⟨tables, htables, shows⟩ := Tables.shows_new.insertAll system kernel.distinct
  refine ⟨tables, htables, ?_⟩
  convert shows using 3 with family front
  rw [Option.or_none]
  rfl

def mirror (system : System) (hops : Hops) : Change × Kernel → Hops
  | (.add route, kernel) =>
    match longest (kernel.entries route.family) route.address with
    | none => hops
    | some used => hops.put route.family route.address (some (used.hop system))
  | (.delete route, _) => hops.put route.family route.network none

theorem query_spells (kernel : Kernel) (route : KernelRoute) :
    match longest (kernel.entries route.family) route.address with
    | none => kernel.query route.family (fullAddress route.family route.dst) = none
    | some used => ∃ rt, (kernel.query route.family (fullAddress route.family route.dst)).bind
            (convertNetlinkRoute system) = some rt ∧
        rt.Canonical route.family ∧ rt.network = route.address ∧
        rt.hop = used.hop system := by
  split
  · next hnone => rw [Kernel.query, ← KernelRoute.address, hnone]; rfl
  · next used hused =>
      have hfamily : used.family = route.family := by
        obtain ⟨front, -, hentry, -⟩ := (isLongest_longest _ _).longest used hused
        exact (Kernel.of_entries hentry).1
      have hwidth := route.spells.width_eq
      have hfull : fullAddress route.family (fullAddress route.family route.dst) = fullAddress
        route.family route.dst := if_neg route.spells.ne_nil
      rw [Kernel.query, ← KernelRoute.address, hused, Option.map_some, Option.bind_some]
      obtain ⟨rt, hconvert, canonical, -, hnetwork, hhop⟩ := @convertNetlinkRoute_eq system
          { hdrType := .newRoute
            msg := ⟨some route.family, route.family.bitWidth, .main, .universe, .unicast⟩
            dst := fullAddress route.family route.dst
            gateway := used.gateway
            oif := used.oif } route.family rfl (Nat.le_refl _) (.inr hwidth)
          route.to4_fullAddress
      refine ⟨rt, hconvert, canonical, ?_, ?_⟩
      · rw [hnetwork, hfull]
        exact List.take_of_length_le (Nat.le_of_eq route.length_address)
      · rw [hhop, KernelRoute.hop, hfamily]

theorem not_foreign_link (type : MessageType) (route : KernelRoute) :
    ¬ (¬ isLinkScopeNeighbor (route.message type).msg = true ∧
      (route.message type).msg.scope = .link) := by
  simp [isLinkScopeNeighbor, KernelRoute.message]

theorem Tables.Shows.handleRouteMessage (shows : tables.Shows hops)
    (system : System) (kernel : Kernel) (change : Change) :
    ∃ after, handleRouteMessage system kernel.query change.message tables = .ok after ∧
      after.Shows (mirror system hops (change, kernel)) := by
  cases change with
  | add route =>
    obtain ⟨rt, hconvert, -, spells, -, -⟩ := route.converts system .newRoute
    have hquery := query_spells system kernel route
    simp only [Routing.handleRouteMessage, Change.message, hconvert, spells.tableFamily,
      spells.getSystemRoute_eq, if_neg (not_foreign_link .newRoute route)]
    rw [if_neg (by simp [KernelRoute.message]), if_neg (by simp [KernelRoute.message]),
      if_pos (by rfl), if_neg (by simp [KernelRoute.message]), mirror]
    cases hused : longest (kernel.entries route.family) route.address with
    | none =>
      rw [hused] at hquery
      rw [hquery]
      exact ⟨tables, rfl, shows⟩
    | some used =>
      rw [hused] at hquery
      obtain ⟨answer, hanswer, canonical, hnetwork, hhop⟩ := hquery
      have hinsert := shows.insert canonical
      rw [hnetwork, hhop] at hinsert
      rw [hanswer]
      exact hinsert
  | delete route =>
    obtain ⟨rt, hconvert, canonical, spells, hnetwork, -⟩ := route.converts system .delRoute
    simp only [Routing.handleRouteMessage, Change.message, hconvert,
      spells.tableFamily, if_neg (not_foreign_link .delRoute route)]
    rw [if_neg (by simp [KernelRoute.message]), if_neg (by simp [KernelRoute.message]),
      if_neg (by simp [KernelRoute.message]), mirror, ← hnetwork]
    exact shows.remove canonical

structure Monitor where
  kernel : Kernel
  pending : List NetlinkRoute
  tables : Checked Tables

inductive MonitorEvent where
  | change (change : Change)
  | notify

namespace Monitor

def start (system : System) (kernel : Kernel) : Monitor where
  kernel := kernel
  pending := []
  tables := initFromOS system kernel.dump

def step (system : System) (monitor : Monitor) : MonitorEvent → Option Monitor
  | .change change =>
    some { monitor with
      kernel := monitor.kernel.apply change
      pending := monitor.pending ++ [change.message] }
  | .notify =>
    match monitor.pending with
    | [] => none
    | nr :: rest =>
      some { monitor with
        pending := rest
        tables := monitor.tables >>=
          handleRouteMessage system monitor.kernel.query nr }

end Monitor

def MonitorEvent.changes : MonitorEvent → List Change
  | .change made => [made]
  | .notify => []

/-- Whenever these changes have been made and all notifications of them handled,
the tables hold what a new load would put into them. -/
def Follows (system : System) (initial : Kernel) (changes : List Change) : Prop := ∀ events last,
  Run (Monitor.step system) (fun _ _ => True) (Monitor.start system initial) events last →
  events.flatMap MonitorEvent.changes = changes → last.pending = [] → ∃ tables reloaded, last.tables
  = .ok tables ∧ initFromOS system last.kernel.dump = .ok reloaded ∧ tables.hops = reloaded.hops

end Pig.Routing
