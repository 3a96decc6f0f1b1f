import Mathlib.Data.List.Nodup
import Pig.Routing.Manager

namespace Pig.Routing

open Go Network BitString LongestPrefix RtNode

def Table.Reachable (family : Family) (t : Table) : Prop :=
  ∃ actions, (∀ operation ∈ changes family actions, operation.route.Canonical family) ∧
    (newTable family).actAll actions = .ok t

structure Tables.Reachable (tables : Tables) : Prop where
  v4 : tables.v4.Reachable .inet
  v6 : tables.v6.Reachable .inet6

theorem Table.Reachable.lookup {family : Family} {t : Table}
    (reachable : t.Reachable family) (dst : Bytes) :
    ∃ result, t.lookup dst = .ok result := by
  obtain ⟨actions, hcanonical, hrun⟩ := reachable
  obtain ⟨found, result, hfound, hlookup, -⟩ := exists_lookup family actions hcanonical dst
  cases hrun.symm.trans hfound
  exact ⟨result, hlookup⟩

theorem Tables.Reachable.findBestRoute {tables : Tables}
    (reachable : tables.Reachable) (dst : Bytes) :
    ∃ result, tables.findBestRoute dst = .ok result := by
  rw [Tables.findBestRoute]
  split
  · exact ⟨_, rfl⟩
  split
  · obtain ⟨result, hresult⟩ := reachable.v4.lookup (to4 dst)
    rw [hresult]
    exact ⟨_, rfl⟩
  split
  · obtain ⟨result, hresult⟩ := reachable.v6.lookup (to16 dst)
    rw [hresult]
    exact ⟨_, rfl⟩
  · exact ⟨_, rfl⟩

def Tables.placed (tables : Tables) (rt : Route) : Option Route :=
  match tables.fillGateway rt with
  | .ok (.ok filled) => some filled
  | _ => none

section

variable {tables : Tables} {rt filled : Route}

theorem Tables.placed_of_gateway (h : rt.gateway ≠ []) : tables.placed rt = some rt := by
  rw [Tables.placed, Tables.fillGateway, if_neg h]

theorem Tables.Reachable.fillGateway (reachable : tables.Reachable) (rt : Route) :
    ∃ result, tables.fillGateway rt = .ok result ∧ tables.placed rt = result.toOption := by
  rw [Tables.placed, Tables.fillGateway]
  split
  · obtain ⟨result, hresult⟩ := reachable.findBestRoute rt.destination.ip
    rw [hresult]
    cases result with
    | error error => exact ⟨_, rfl, rfl⟩
    | ok best =>
      simp only [ok_bind]
      split <;> exact ⟨_, rfl, rfl⟩
  · exact ⟨_, rfl, rfl⟩

theorem Tables.placed_bypass (hgateway : rt.gateway = []) : tables.placed rt =
      match tables.findBestRoute rt.destination.ip with
      | .ok (.ok best) =>
        if best.isDirectlyConnected then none
        else some { rt with
          gateway := best.gateway, interface := best.interface }
      | _ => none := by
  rw [Tables.placed, Tables.fillGateway, if_pos hgateway]
  cases tables.findBestRoute rt.destination.ip with
  | error fault => rfl
  | ok result =>
    cases result with
    | error error => rfl
    | ok best =>
      simp only [ok_bind]
      cases best.isDirectlyConnected with
      | false | true => rfl

theorem Tables.placed_eq_none_iff (hgateway : rt.gateway = []) : tables.placed rt = none ↔
      ∀ best, tables.findBestRoute rt.destination.ip = .ok (.ok best) →
        best.isDirectlyConnected = true := by
  rw [Tables.placed_bypass hgateway]
  cases tables.findBestRoute rt.destination.ip with
  | error fault => simp
  | ok result =>
    cases result with
    | error error | ok best => simp

theorem Route.gateway_ne_nil {route : Route}
    (h : ¬ route.isDirectlyConnected = true) : route.gateway ≠ [] := by
  intro hnil
  simp [Route.isDirectlyConnected, hnil] at h

theorem Tables.of_placed (h : tables.placed rt = some filled) :
    filled.destination = rt.destination ∧ filled.gateway ≠ [] := by
  by_cases hgateway : rt.gateway = []
  · rw [Tables.placed_bypass hgateway] at h
    split at h
    · split at h
      · cases h
      · next hconnected =>
          cases h
          exact ⟨rfl, Route.gateway_ne_nil hconnected⟩
    · cases h
  · cases (Tables.placed_of_gateway hgateway).symm.trans h
    exact ⟨rfl, hgateway⟩

end

section

variable {texts : Texts} {adapter : Adapter} {tunIfName : String}
  {m n : Manager} {r : ConfigRoute} {routes : List ConfigRoute}

def intended (texts : Texts) (adapter : Adapter) (tunIfName : String) (r : ConfigRoute) : Option
  Route := (buildRoute texts adapter r tunIfName).toOption

theorem handleRouteRemove_eq : m.handleRouteRemove texts adapter tunIfName routes =
      (routes.filterMap (intended texts adapter tunIfName)).foldl
        (Manager.removeRoute texts) m := by
  induction routes generalizing m with
  | nil => rfl
  | cons r routes ih =>
    rw [Manager.handleRouteRemove, List.filterMap_cons, intended]
    cases buildRoute texts adapter r tunIfName with
    | error error | ok rt => exact ih

theorem handleRouteAdd_eq (reachable : m.tables.Reachable) :
    m.handleRouteAdd texts adapter tunIfName routes = .ok ((routes.filterMap fun r =>
        (intended texts adapter tunIfName r).bind m.tables.placed).foldl
          (Manager.install texts) m) := by
  induction routes generalizing m with
  | nil => rfl
  | cons r routes ih =>
    rw [Manager.handleRouteAdd, List.filterMap_cons, intended]
    cases buildRoute texts adapter r tunIfName with
    | error error => exact ih reachable
    | ok rt =>
      obtain ⟨result, hresult, hplaced⟩ := reachable.fillGateway rt
      simp only [Manager.addRoute, hresult, ok_bind, Except.toOption, Option.bind_some, hplaced]
      cases result with
      | error error => exact ih reachable
      | ok filled => exact @ih (m.install texts filled) reachable

end

theorem eq_of_append_separator {separator : Char} {front other rest tail : List Char}
    (hfront : separator ∉ front) (hother : separator ∉ other) (h : front ++ separator :: rest =
    other ++ separator :: tail) :
    front = other := by
  induction front generalizing other with
  | nil =>
    cases other with
    | nil => rfl
    | cons first other =>
      cases h
      exact absurd (List.mem_cons_self ..) hother
  | cons first front ih =>
    cases other with
    | nil =>
      cases h
      exact absurd (List.mem_cons_self ..) hfront
    | cons another other =>
      obtain ⟨rfl, hrest⟩ := List.cons.inj h
      rw [ih (fun hmem => hfront (List.mem_cons_of_mem _ hmem))
        (fun hmem => hother (List.mem_cons_of_mem _ hmem)) hrest]

/-- The texts of networks are without the bar that ends them in a key. -/
def Texts.Separated (texts : Texts) : Prop := ∀ net, '|' ∉ (texts.netString net).toList

section

variable {texts : Texts} {m n other : Manager} {rt : Route}
  {destination key : String} {system : SystemRoute} {family : Family}

def Route.keyTail (texts : Texts) (r : Route) : String :=
  if r.gateway ≠ [] then r.interface ++ "|" ++ texts.ipString r.gateway
  else r.interface

theorem Route.string_eq (texts : Texts) (r : Route) : r.string texts =
      texts.netString r.destination ++ "|" ++ r.keyTail texts := by
  rw [Route.string, Route.keyTail]
  split
  · simp [String.append_assoc]
  · rfl

theorem string_ne (separated : texts.Separated) (hdestination : '|' ∉ destination.toList)
    (hne : texts.netString rt.destination ≠ destination) (tail : String) :
    destination ++ "|" ++ tail ≠ rt.string texts := by
  intro h
  rw [Route.string_eq] at h
  apply hne
  have hlist := congrArg String.toList h
  simp only [String.toList_append] at hlist
  rw [List.append_assoc, List.append_assoc] at hlist
  exact (String.toList_injective (eq_of_append_separator hdestination (separated _) hlist)).symm

def Manager.put (texts : Texts) (m : Manager) (rt : Route) (present : Bool)
    (entry : Option Route) : Manager :=
  { m with
    installed := Function.update m.installed rt.system present
    tracked := Function.update m.tracked rt.trackedFamily
      (Function.update (m.tracked rt.trackedFamily) (rt.string texts) entry) }

theorem installed_put {present : Bool} {entry : Option Route} :
    (m.put texts rt present entry).installed system =
      if system = rt.system then present else m.installed system :=
  Function.update_apply ..

theorem tracked_put {present : Bool} {entry : Option Route} :
    (m.put texts rt present entry).tracked family key =
      if family = rt.trackedFamily ∧ key = rt.string texts then entry
      else m.tracked family key := by
  rw [Manager.put]
  by_cases hfamily : family = rt.trackedFamily
  · subst hfamily
    simp [Function.update_apply]
  · simp [hfamily]

theorem install_eq_put : m.install texts rt = m.put texts rt true (some rt) := rfl

theorem uninstall_eq_put : m.uninstall texts rt = m.put texts rt false none := rfl

structure Agree (texts : Texts) (destination : String) (m n : Manager) :
    Prop where
  installed : ∀ system : SystemRoute, texts.netString system.destination = destination →
    m.installed system = n.installed system
  tracked : ∀ family tail, m.tracked family (destination ++ "|" ++ tail) =
    n.tracked family (destination ++ "|" ++ tail)

theorem Agree.refl (m : Manager) : Agree texts destination m m := ⟨fun _ _ => rfl, fun _ _ => rfl⟩

section

variable (agree : Agree texts destination m n)

include agree

theorem Agree.symm : Agree texts destination n m :=
  ⟨fun system h => (agree.installed system h).symm,
    fun family tail => (agree.tracked family tail).symm⟩

theorem Agree.trans (next : Agree texts destination n other) :
    Agree texts destination m other :=
  ⟨fun system h => (agree.installed system h).trans (next.installed system h),
    fun family tail =>
      (agree.tracked family tail).trans (next.tracked family tail)⟩

theorem Agree.put (rt : Route) (present : Bool) (entry : Option Route) :
    Agree texts destination (m.put texts rt present entry) (n.put texts rt present entry) := by
  refine ⟨fun system h => ?_, fun family tail => ?_⟩
  · rw [installed_put, installed_put, agree.installed system h]
  · rw [tracked_put, tracked_put, agree.tracked]

end

theorem Agree.removeRoute (agree : Agree texts (texts.netString rt.destination) m n) :
    Agree texts (texts.netString rt.destination) (m.removeRoute texts rt)
      (n.removeRoute texts rt) := by
  have hkey : m.tracked rt.trackedFamily (rt.string texts) =
      n.tracked rt.trackedFamily (rt.string texts) := by
    rw [Route.string_eq]
    exact agree.tracked _ _
  rw [Manager.removeRoute, Manager.removeRoute, hkey]
  cases n.tracked rt.trackedFamily (rt.string texts) with
  | none => exact agree
  | some tracked => exact agree.put rt false none

theorem agree_put (separated : texts.Separated) (hdestination : '|' ∉ destination.toList)
    (hne : texts.netString rt.destination ≠ destination) (present : Bool) (entry : Option Route) :
    Agree texts destination (m.put texts rt present entry) m := by
  refine ⟨fun system h => ?_, fun family tail => ?_⟩
  · rw [installed_put, if_neg]
    rintro rfl
    exact hne h
  · rw [tracked_put, if_neg]
    intro h
    exact string_ne separated hdestination hne tail h.2

theorem agree_removeRoute (separated : texts.Separated) (hdestination : '|' ∉ destination.toList)
    (hne : texts.netString rt.destination ≠ destination) :
    Agree texts destination (m.removeRoute texts rt) m := by
  rw [Manager.removeRoute]
  split
  · exact .refl m
  · exact agree_put separated hdestination hne false none

theorem foldl_frame (related : Manager → Manager → Prop) (hrefl : ∀ m, related m m)
    (htrans : ∀ l m n, related l m → related m n → related l n) (act : Manager → Route → Manager)
    {list : List Route} (hact : ∀ rt ∈ list, ∀ m, related (act m rt) m) (m : Manager) :
    related (list.foldl act m) m := by
  induction list generalizing m with
  | nil => exact hrefl m
  | cons rt list ih =>
    have hrest := ih (fun rt hrt => hact rt (List.mem_cons_of_mem _ hrt)) (act m rt)
    exact htrans _ _ _ hrest (hact rt (List.mem_cons_self ..) m)

theorem tracked_removeRoute (h : rt.string texts ≠ key) :
    (m.removeRoute texts rt).tracked family key = m.tracked family key := by
  rw [Manager.removeRoute]
  split
  · rfl
  · rw [uninstall_eq_put, tracked_put, if_neg fun heq => h heq.2.symm]

end

section

variable {texts : Texts} {adapter : Adapter} {tunIfName : String}
  {m : Manager} {r : ConfigRoute} {net : IPNet} {rt : Route}

structure Manager.Fresh (texts : Texts) (m : Manager) (destination : String) :
    Prop where
  installed : ∀ system : SystemRoute, texts.netString system.destination = destination →
    m.installed system = false
  tracked : ∀ family tail, m.tracked family (destination ++ "|" ++ tail) = none

def Unrouted (texts : Texts) (tables : Tables) (r : ConfigRoute) : Prop := r.type = .bypass →
    ∀ net, ipNetFromAddrString texts r.destination = some net →
      ∀ best, tables.findBestRoute net.ip = .ok (.ok best) → best.isDirectlyConnected = true

theorem of_intended (h : intended texts adapter tunIfName r = some rt) :
    ipNetFromAddrString texts r.destination = some rt.destination ∧
      (r.type = .bypass → rt = ⟨rt.destination, [], "", []⟩) ∧
      (r.type ≠ .bypass → rt.gateway ≠ []) := by
  rw [intended, buildRoute] at h
  split at h
  · cases h
  · next net hnet =>
      split at h
      · next htype =>
          cases h
          exact ⟨hnet, fun _ => rfl, fun hne => absurd htype hne⟩
      · next htype =>
          simp only at h
          split at h
          · cases h
          · next hgw =>
              cases h
              exact ⟨hnet, fun heq => by simp [htype] at heq, fun _ => hgw⟩
      · next htype =>
          simp only at h
          generalize (if to4 net.ip = [] then adapter.ip6 else adapter.ip) = dest at h
          split at h
          · cases h
          · next hdest =>
              cases h
              exact ⟨hnet, fun heq => by simp [htype] at heq, fun _ => hdest⟩
      · cases h

theorem agree_remove_install (fresh : m.Fresh texts (texts.netString rt.destination)) :
    Agree texts (texts.netString rt.destination) ((m.install texts rt).removeRoute texts rt) m := by
  rw [install_eq_put, Manager.removeRoute, tracked_put, if_pos ⟨rfl, rfl⟩]
  refine ⟨fun system h => ?_, fun family tail => ?_⟩
  · rw [uninstall_eq_put, installed_put, installed_put, fresh.installed system h]
    split <;> rfl
  · rw [uninstall_eq_put, tracked_put, tracked_put, fresh.tracked]
    split <;> rfl

theorem keyTail_ne {filled : Route} (hdestination : filled.destination = net)
    (hgateway : filled.gateway ≠ []) :
    Route.string texts ⟨net, [], "", []⟩ ≠ filled.string texts := by
  intro h
  have hlength := congrArg String.length h
  rw [Route.string_eq, Route.string_eq, hdestination, Route.keyTail,
    Route.keyTail, if_pos hgateway] at hlength
  simp [String.length_append] at hlength

theorem removeRoute_bypass {filled : Route} (fresh : m.Fresh texts (texts.netString net))
    (hdestination : filled.destination = net) (hgateway : filled.gateway ≠ []) :
    (m.install texts filled).removeRoute texts ⟨net, [], "", []⟩ =
      m.install texts filled := by
  have hnone : (m.install texts filled).tracked (Route.trackedFamily ⟨net, [], "", []⟩)
      (Route.string texts ⟨net, [], "", []⟩) = none := by
    rw [install_eq_put, tracked_put, if_neg fun h => keyTail_ne hdestination hgateway h.2,
      Route.string_eq]
    exact fresh.tracked _ _
  rw [Manager.removeRoute, hnone]

theorem unrouted_iff_placed (hnet : ipNetFromAddrString texts r.destination =
      some net) (htype : r.type = .bypass) :
    Unrouted texts m.tables r ↔
      m.tables.placed ⟨net, [], "", []⟩ = none := by
  rw [Tables.placed_eq_none_iff rfl]
  constructor
  · intro unrouted best hbest
    exact unrouted htype net hnet best hbest
  · intro h _ other hother best hbest
    cases hnet.symm.trans hother
    exact h best hbest

theorem agree_iff_unrouted (hnet : ipNetFromAddrString texts r.destination =
      some net) (fresh : m.Fresh texts (texts.netString net)) :
    Agree texts (texts.netString net) ((intended texts adapter tunIfName r).toList.foldl
      (Manager.removeRoute texts) (((intended texts adapter tunIfName r).bind
      m.tables.placed).toList.foldl (Manager.install texts) m)) m ↔ Unrouted texts m.tables r := by
  by_cases htype : r.type = .bypass
  · have hintended : intended texts adapter tunIfName r = some ⟨net, [], "", []⟩ := by
      rw [intended, buildRoute, hnet, htype]
      rfl
    rw [unrouted_iff_placed hnet htype, hintended]
    cases hfilled : m.tables.placed ⟨net, [], "", []⟩ with
    | none =>
      refine iff_of_true ?_ rfl
      have hnone : m.tracked (Route.trackedFamily ⟨net, [], "", []⟩)
          (Route.string texts ⟨net, [], "", []⟩) = none := by
        exact fresh.tracked _ _
      simp only [Option.bind_some, hfilled, Option.toList_none, Option.toList_some, List.foldl_nil,
        List.foldl_cons, Manager.removeRoute, hnone]
      exact .refl m
    | some filled =>
      refine iff_of_false (fun agree => ?_) (Option.some_ne_none filled)
      obtain ⟨hdestination, hgateway⟩ := Tables.of_placed hfilled
      simp only [Option.bind_some, hfilled, Option.toList_some, List.foldl_nil, List.foldl_cons,
        removeRoute_bypass fresh hdestination hgateway] at agree
      have hsystem : texts.netString filled.system.destination =
          texts.netString net := congrArg texts.netString hdestination
      have hinstalled := agree.installed filled.system hsystem
      rw [install_eq_put, installed_put, if_pos rfl, fresh.installed _ hsystem] at hinstalled
      exact Bool.noConfusion hinstalled
  · refine iff_of_true ?_ fun h => absurd h htype
    cases hintended : intended texts adapter tunIfName r with
    | none => exact .refl m
    | some rt =>
      obtain ⟨hdestination, -, hgateway⟩ := of_intended hintended
      cases hnet.symm.trans hdestination
      simp only [Option.bind_some, Tables.placed_of_gateway (hgateway htype),
        Option.toList_some, List.foldl_nil, List.foldl_cons]
      exact agree_remove_install fresh

end

section

variable {texts : Texts} {adapter : Adapter} {tunIfName : String}
  {m : Manager} {routes : List ConfigRoute}

def destinationText (texts : Texts) (r : ConfigRoute) : Option String :=
  (ipNetFromAddrString texts r.destination).map texts.netString

def addedRemoved (texts : Texts) (adapter : Adapter) (tunIfName : String) (m : Manager)
  (routes : List ConfigRoute) : Manager := (routes.filterMap (intended texts adapter
  tunIfName)).foldl (Manager.removeRoute texts) ((routes.filterMap fun r =>
      (intended texts adapter tunIfName r).bind m.tables.placed).foldl (Manager.install texts) m)

variable {r : ConfigRoute}

theorem destinationText_of_intended {rt : Route}
    (h : intended texts adapter tunIfName r = some rt) :
    destinationText texts r = some (texts.netString rt.destination) := by
  rw [destinationText, (of_intended h).1, Option.map_some]

theorem destinationText_of_placed {rt : Route}
    {tables : Tables} (h : (intended texts adapter tunIfName r).bind tables.placed = some rt) :
    destinationText texts r = some (texts.netString rt.destination) := by
  obtain ⟨built, hbuilt, hplaced⟩ := Option.bind_eq_some_iff.mp h
  rw [(Tables.of_placed hplaced).1]
  exact destinationText_of_intended hbuilt

section

variable {destination : String} (act : Manager → Route → Manager)
  (build : ConfigRoute → Option Route)
  (hframe : ∀ m rt, texts.netString rt.destination ≠ destination →
    Agree texts destination (act m rt) m)
  (hbuild : ∀ r rt, build r = some rt →
    destinationText texts r = some (texts.netString rt.destination))

include hframe hbuild

theorem agree_skip {list : List ConfigRoute}
    (hother : ∀ other ∈ list, destinationText texts other ≠ some destination) (m : Manager) :
    Agree texts destination ((list.filterMap build).foldl act m) m := by
  refine foldl_frame (Agree texts destination) .refl (fun _ _ _ => .trans) act
    (fun rt hrt m => hframe m rt fun heq => ?_) m
  obtain ⟨other, hmem, hrt⟩ := List.mem_filterMap.mp hrt
  exact hother other hmem (heq ▸ hbuild other rt hrt)

theorem agree_filterMap {n : Manager} (hlocal : ∀ m n rt, texts.netString rt.destination =
    destination → Agree texts destination m n → Agree texts destination (act m rt) (act n rt))
    {before after : List ConfigRoute} {r : ConfigRoute}
    (hr : destinationText texts r = some destination) (hother : ∀ other ∈ before ++ after,
    destinationText texts other ≠ some destination) (agree : Agree texts destination m n) :
    Agree texts destination (((before ++ r :: after).filterMap build).foldl act m)
      ((build r).toList.foldl act n) := by
  rw [List.forall_mem_append] at hother
  have hbefore := (agree_skip act build hframe hbuild hother.1 m).trans agree
  have hafter := agree_skip act build hframe hbuild hother.2
  rw [List.filterMap_append, List.foldl_append, List.filterMap_cons]
  cases hbuilt : build r with
  | none => exact (hafter _).trans hbefore
  | some rt =>
    have heq := (hbuild r rt hbuilt).symm.trans hr
    exact (hafter _).trans (hlocal _ _ rt (Option.some.inj heq) hbefore)

end

theorem agree_addedRemoved (separated : texts.Separated) {before after : List ConfigRoute}
    {net : IPNet} (hnet : ipNetFromAddrString texts r.destination = some net)
    (hother : ∀ other ∈ before ++ after, destinationText texts other ≠ some (texts.netString net)) :
    Agree texts (texts.netString net) (addedRemoved texts adapter tunIfName m
      (before ++ r :: after)) ((intended texts adapter tunIfName r).toList.foldl
      (Manager.removeRoute texts) (((intended texts adapter tunIfName r).bind
      m.tables.placed).toList.foldl (Manager.install texts) m)) := by
  have hr : destinationText texts r = some (texts.netString net) := by
    rw [destinationText, hnet, Option.map_some]
  have hadded := agree_filterMap (Manager.install texts) (fun r =>
    (intended texts adapter tunIfName r).bind m.tables.placed)
    (fun _ rt hne => agree_put separated (separated net) hne true (some rt))
    (fun _ _ => destinationText_of_placed) (fun _ _ rt _ agree => agree.put rt true (some rt))
    hr hother (.refl m)
  exact agree_filterMap (Manager.removeRoute texts) (intended texts adapter tunIfName)
    (fun _ _ hne => agree_removeRoute separated (separated net) hne)
    (fun _ _ => destinationText_of_intended) (fun _ _ rt heq agree => by
      rw [← heq] at agree ⊢
      exact agree.removeRoute) hr hother hadded

theorem agree_of_no_destination (separated : texts.Separated)
    {destination : String} (hdestination : '|' ∉ destination.toList)
    (hother : ∀ other ∈ routes, destinationText texts other ≠ some destination) :
    Agree texts destination (addedRemoved texts adapter tunIfName m routes) m :=
  (agree_skip _ _ (fun _ _ hne => agree_removeRoute separated hdestination hne)
    (fun _ _ => destinationText_of_intended) hother _).trans
    (agree_skip _ _ (fun _ rt hne => agree_put separated hdestination hne true (some rt))
      (fun _ _ => destinationText_of_placed) hother m)

theorem tracked_of_no_destination {family : Family} {key : String}
    (hother : ∀ other ∈ routes, ∀ destination, destinationText texts other = some destination →
      ∀ tail, destination ++ "|" ++ tail ≠ key) :
    (addedRemoved texts adapter tunIfName m routes).tracked family key = m.tracked family key := by
  have hframe := foldl_frame (fun l m => l.tracked family key = m.tracked family key)
    (fun _ => rfl) (fun _ _ _ => Eq.trans)
  refine (hframe _ ?_ _).trans (hframe _ ?_ m)
  · intro rt hrt n
    obtain ⟨other, hmem, hrt⟩ := List.mem_filterMap.mp hrt
    refine tracked_removeRoute ?_
    rw [Route.string_eq]
    exact hother other hmem _ (destinationText_of_intended hrt) _
  · intro rt hrt n
    obtain ⟨other, hmem, hrt⟩ := List.mem_filterMap.mp hrt
    rw [install_eq_put, tracked_put, if_neg]
    rintro ⟨-, rfl⟩
    rw [Route.string_eq] at hother
    exact hother other hmem _ (destinationText_of_placed hrt) _ rfl

theorem destinationText_ne_of_nodup {before after : List ConfigRoute}
    {destination : String} (hdistinct : ((before ++ r :: after).filterMap
    (destinationText texts)).Nodup) (htext : destinationText texts r = some destination) :
    ∀ other ∈ before ++ after, destinationText texts other ≠ some destination := by
  rw [List.filterMap_append, List.filterMap_cons, htext,
    List.nodup_middle, ← List.filterMap_append] at hdistinct
  intro other hmem heq
  exact (List.nodup_cons.mp hdistinct).1 (List.mem_filterMap.mpr ⟨other, hmem, heq⟩)

theorem agree_addedRemoved_iff {net : IPNet} (separated : texts.Separated)
    (hdistinct : (routes.filterMap (destinationText texts)).Nodup) (hr : r ∈ routes)
    (hnet : ipNetFromAddrString texts r.destination = some net) (fresh : m.Fresh texts
    (texts.netString net)) :
    Agree texts (texts.netString net) (addedRemoved texts adapter tunIfName m routes) m ↔
      Unrouted texts m.tables r := by
  obtain ⟨before, after, rfl⟩ := List.append_of_mem hr
  have htext : destinationText texts r = some (texts.netString net) := by
    rw [destinationText, hnet, Option.map_some]
  have hagree : Agree texts (texts.netString net)
      (addedRemoved texts adapter tunIfName m (before ++ r :: after)) _ :=
    agree_addedRemoved separated hnet (destinationText_ne_of_nodup hdistinct htext)
  rw [← @agree_iff_unrouted texts adapter tunIfName m r net hnet fresh]
  exact ⟨hagree.symm.trans, hagree.trans⟩

theorem addedRemoved_eq_iff (separated : texts.Separated) (hdistinct :
    (routes.filterMap (destinationText texts)).Nodup) (hfresh : ∀ r ∈ routes, ∀ net,
    ipNetFromAddrString texts r.destination = some net → m.Fresh texts (texts.netString net)) :
    ((addedRemoved texts adapter tunIfName m routes).installed = m.installed ∧
      (addedRemoved texts adapter tunIfName m routes).tracked = m.tracked) ↔
      ∀ r ∈ routes, Unrouted texts m.tables r := by
  have hone : ∀ r ∈ routes, ∀ net, ipNetFromAddrString texts r.destination = some net →
      (Agree texts (texts.netString net) (addedRemoved texts adapter tunIfName m routes) m ↔
        Unrouted texts m.tables r) := fun r hr net hnet =>
    agree_addedRemoved_iff separated hdistinct hr hnet (hfresh r hr net hnet)
  constructor
  · rintro ⟨hinstalled, htracked⟩ r hr htype net hnet
    refine (hone r hr net hnet).mp ⟨?_, ?_⟩ htype net hnet
    · intro system _
      rw [hinstalled]
    · intro family tail
      rw [htracked]
  · intro hall
    have hagree : ∀ destination, '|' ∉ destination.toList → Agree texts destination
          (addedRemoved texts adapter tunIfName m routes) m := by
      intro destination hdestination
      by_cases hsome : ∃ r ∈ routes, destinationText texts r = some destination
      · obtain ⟨r, hr, htext⟩ := hsome
        obtain ⟨net, hnet, rfl⟩ := Option.map_eq_some_iff.mp htext
        exact (hone r hr net hnet).mpr (hall r hr)
      · exact agree_of_no_destination separated hdestination
          fun other hmem heq => hsome ⟨other, hmem, heq⟩
    refine ⟨?_, ?_⟩
    · funext system
      exact (hagree _ (separated system.destination)).installed system rfl
    · funext family key
      by_cases hkey : ∃ r ∈ routes, ∃ destination, destinationText texts r = some destination ∧
            ∃ tail, destination ++ "|" ++ tail = key
      · obtain ⟨r, hr, destination, htext, tail, rfl⟩ := hkey
        obtain ⟨net, hnet, rfl⟩ := Option.map_eq_some_iff.mp htext
        exact (hagree _ (separated net)).tracked family tail
      · refine tracked_of_no_destination fun other hmem destination htext tail
          heq => hkey ⟨other, hmem, destination, htext, tail, heq⟩

end

/-- The routes of a list are taken back just where no bypass route of the list
was given a gateway. -/
theorem removed_iff_unrouted (texts : Texts) (separated : texts.Separated) (adapter : Adapter)
    (tunIfName : String) (m : Manager) (reachable : m.tables.Reachable) (routes : List ConfigRoute)
    (hdistinct : (routes.filterMap (destinationText texts)).Nodup)
    (hfresh : ∀ r ∈ routes, ∀ net, ipNetFromAddrString texts r.destination = some net → m.Fresh
    texts (texts.netString net)) :
    ∃ added, m.handleRouteAdd texts adapter tunIfName routes = .ok added ∧
      (((added.handleRouteRemove texts adapter tunIfName routes).installed = m.installed ∧
      (added.handleRouteRemove texts adapter tunIfName routes).tracked = m.tracked) ↔ ∀ r ∈ routes,
      r.type = .bypass → ∀ net, ipNetFromAddrString texts r.destination = some net → ∀ best,
      m.tables.findBestRoute net.ip = .ok (.ok best) → best.isDirectlyConnected = true) := by
  refine ⟨_, handleRouteAdd_eq reachable, ?_⟩
  rw [handleRouteRemove_eq]
  exact addedRemoved_eq_iff separated hdistinct hfresh

def sampleTexts : Texts where
  parseCIDR text := if text = "10.0.0.0/8"
    then some ⟨[10, 0, 0, 0], [255, 0, 0, 0]⟩ else none
  parseIP text := if text = "192.168.1.1"
    then v4InV6 ++ [192, 168, 1, 1] else []
  netString net := if net = ⟨[10, 0, 0, 0], [255, 0, 0, 0]⟩
    then "10.0.0.0/8" else "<nil>"
  ipString ip := if to4 ip = [192, 168, 1, 1] then "192.168.1.1" else "<nil>"

theorem separated_sampleTexts : sampleTexts.Separated := by
  intro net
  simp only [sampleTexts]
  split <;> decide

def sampleManager : Manager where
  tables := { Tables.new with
    v4 := { newTable .inet with
      defaultRoute := some
        ⟨⟨[0, 0, 0, 0], [0, 0, 0, 0]⟩, [192, 168, 1, 1], "eth0", []⟩ } }
  tracked _ _ := none
  installed _ := false

theorem reachable_sampleManager : sampleManager.tables.Reachable where
  v4 := ⟨[.change (.insert ⟨⟨[0, 0, 0, 0], [0, 0, 0, 0]⟩, [192, 168, 1, 1], "eth0", []⟩)],
    by decide, by rfl⟩
  v6 := ⟨[], by decide, rfl⟩

def bypassRoutes : List ConfigRoute := [⟨"10.0.0.0/8", .bypass, "", ""⟩]

/-- The bypass route is installed with the gateway of the default route, and
stays after it is removed. -/
theorem exists_not_removed : sampleManager.tables.Reachable ∧
    (bypassRoutes.filterMap (destinationText sampleTexts)).Nodup ∧
    (∀ destination, sampleManager.Fresh sampleTexts destination) ∧ ∃ added,
      sampleManager.handleRouteAdd sampleTexts ⟨[10, 9, 0, 2], []⟩ "pig0"
        bypassRoutes = .ok added ∧
      (added.handleRouteRemove sampleTexts ⟨[10, 9, 0, 2], []⟩ "pig0"
        bypassRoutes).installed ⟨⟨[10, 0, 0, 0], [255, 0, 0, 0]⟩, [192, 168, 1, 1], "eth0"⟩ = true ∧
      sampleManager.installed ⟨⟨[10, 0, 0, 0], [255, 0, 0, 0]⟩, [192, 168, 1, 1], "eth0"⟩ = false :=
  ⟨reachable_sampleManager, by decide,
    fun _ => ⟨fun _ _ => rfl, fun _ _ => rfl⟩, _,
    handleRouteAdd_eq reachable_sampleManager, by decide +kernel, rfl⟩

def tunnelRoutes : List ConfigRoute := [⟨"10.0.0.0/8", .tunnel, "", ""⟩]

theorem removed_iff_unrouted_tunnelRoutes :
    ∃ added, sampleManager.handleRouteAdd sampleTexts ⟨[10, 9, 0, 2], []⟩
        "pig0" tunnelRoutes = .ok added ∧
      (added.handleRouteRemove sampleTexts ⟨[10, 9, 0, 2], []⟩ "pig0"
        tunnelRoutes).installed = sampleManager.installed ∧
      (added.handleRouteRemove sampleTexts ⟨[10, 9, 0, 2], []⟩ "pig0"
        tunnelRoutes).tracked = sampleManager.tracked := by
  obtain ⟨added, hadded, hiff⟩ := removed_iff_unrouted sampleTexts
    separated_sampleTexts ⟨[10, 9, 0, 2], []⟩ "pig0" sampleManager
    reachable_sampleManager tunnelRoutes (by decide)
    fun _ _ _ _ => ⟨fun _ _ => rfl, fun _ _ => rfl⟩
  refine ⟨added, hadded, hiff.mpr ?_⟩
  intro r hr htype
  rw [List.mem_singleton.mp hr] at htype
  cases htype

end Pig.Routing
