import Pig.Routing.Monitor

namespace Pig.Routing

open Go Network BitString LongestPrefix RtNode

/-- Where only networks are announced that the tables have from the start, and
where the address of every network that is added has a route of its own in the
end. -/
structure Preserved (system : System) (initial : Kernel)
    (changes : List Change) : Prop where
  /-- A network wider than one host whose last change is an addition had the
  same route at the start, and was never deleted. -/
  networks : ∀ before route after, changes = before ++ .add route :: after → route.network.length <
    route.family.bitWidth → (∀ change ∈ after, ¬ change.route.Is route.family route.network) →
    initial.loaded system route.family route.network = some (route.hop system) ∧ ∀ deleted, .delete
    deleted ∈ before → ¬ deleted.Is route.family route.network
  /-- The address of an added network is a host in the table in the end, unless
  that host is deleted later. -/
  hosts : ∀ before route after, changes = before ++ .add route :: after →
    (∀ deleted, .delete deleted ∈ after → ¬ deleted.Is route.family route.address) →
    (initial.after changes).loaded system route.family route.address ≠ none

section

variable {system : System} {initial : Kernel} {hops : Hops} {family : Family} {front : List Bool}
  {changes : List Change} {notices : List (Change × Kernel)} {route : KernelRoute} {kernel : Kernel}

def Change.Writes (family : Family) (front : List Bool) : Change → Prop
  | .add route => route.family = family ∧ route.address = front
  | .delete route => route.Is family front

variable {notice : Change × Kernel}

theorem mirror_of_not_writes (h : ¬ notice.1.Writes family front) :
    mirror system hops notice family front = hops family front := by
  obtain ⟨change, kernel⟩ := notice
  cases change with
  | add route =>
    rw [mirror]
    cases longest (kernel.entries route.family) route.address with
    | none => rfl
    | some used =>
      change hops.put _ _ _ _ _ = _
      rw [Hops.put_apply, if_neg]
      rintro ⟨rfl, rfl⟩
      exact h ⟨rfl, rfl⟩
  | delete route =>
    rw [mirror, Hops.put_apply, if_neg]
    rintro ⟨rfl, rfl⟩
    exact h ⟨rfl, rfl⟩

theorem foldl_mirror_of_not_writes (h : ∀ notice ∈ notices, ¬ notice.1.Writes family front) :
    notices.foldl (mirror system) hops family front = hops family front := by
  induction notices generalizing hops with
  | nil => rfl
  | cons notice notices ih =>
    rw [List.foldl_cons, ih fun notice hnotice =>
      h notice (List.mem_cons_of_mem _ hnotice),
      mirror_of_not_writes (h notice (List.mem_cons_self ..))]

theorem foldl_mirror_last {before after : List (Change × Kernel)}
    (h : ∀ notice ∈ after, ¬ notice.1.Writes family front) :
    (before ++ notice :: after).foldl (mirror system) hops family front =
      mirror system (before.foldl (mirror system) hops) notice family
        front := by
  rw [List.foldl_append, List.foldl_cons, foldl_mirror_of_not_writes h]

theorem exists_last {Item : Type} (property : Item → Prop) (items : List Item) :
    (∀ item ∈ items, ¬ property item) ∨ ∃ before item after, items = before ++ item :: after ∧
        property item ∧ ∀ item ∈ after, ¬ property item := by
  induction items with
  | nil => exact .inl fun item hitem => absurd hitem List.not_mem_nil
  | cons first items ih =>
    rcases ih with hnone | ⟨before, item, after, rfl, hitem, hafter⟩
    · by_cases hfirst : property first
      · exact .inr ⟨[], first, items, rfl, hfirst, hnone⟩
      · refine .inl fun item hitem => ?_
        rcases List.mem_cons.mp hitem with rfl | hrest
        · exact hfirst
        · exact hnone item hrest
    · exact .inr ⟨first :: before, item, after, rfl, hitem, hafter⟩

def Timely (initial : Kernel) (made : List Change) (notices : List (Change × Kernel)) : Prop :=
  ∀ before change kernel after, notices = before ++ (change, kernel) :: after →
    ∃ more rest, made = before.map Prod.fst ++ change :: (more ++ rest) ∧
      kernel = initial.after (before.map Prod.fst ++ change :: more)

theorem Timely.append {made queue : List Change} {change : Change}
    (timely : Timely initial made notices)
    (hmade : made = notices.map Prod.fst ++ change :: queue) :
    Timely initial made (notices ++ [(change, initial.after made)]) := by
  intro before earlier kernel after hsplit
  rcases List.eq_nil_or_concat' after with rfl | ⟨after, latest, rfl⟩
  · obtain ⟨rfl, hlast⟩ := List.append_inj' hsplit rfl
    cases hlast
    exact ⟨queue, [], by rw [List.append_nil, hmade], by rw [hmade]⟩
  · rw [← List.cons_append, ← List.append_assoc] at hsplit
    exact timely before earlier kernel after (List.append_inj' hsplit rfl).1

theorem Timely.later {made : List Change}
    (timely : Timely initial made notices) (further : List Change) :
    Timely initial (made ++ further) notices := by
  intro before change kernel after hsplit
  obtain ⟨more, rest, rfl, hkernel⟩ := timely before change kernel after hsplit
  exact ⟨more, rest ++ further, by simp, hkernel⟩

theorem exists_notices {events : List MonitorEvent} {last : Monitor}
    (run : Run (Monitor.step system) (fun _ _ => True) (Monitor.start system initial) events last) :
    ∃ notices queue tables, events.flatMap MonitorEvent.changes = notices.map Prod.fst ++ queue ∧
      last.pending = queue.map Change.message ∧ last.kernel = initial.after
      (events.flatMap MonitorEvent.changes) ∧ Timely initial (events.flatMap MonitorEvent.changes)
      notices ∧ last.tables = .ok tables ∧ tables.Shows (notices.foldl (mirror system)
      (initial.loaded system)) := by
  induction run with
  | start =>
    obtain ⟨tables, htables, shows⟩ := shows_initFromOS system initial
    refine ⟨[], [], tables, rfl, rfl, rfl, ?_, htables, shows⟩
    intro before change kernel after hsplit
    simp at hsplit
  | @next middle last events event before permitted taken ih =>
    obtain ⟨notices, queue, tables, hmade, hpending, hkernel, timely, htables, shows⟩ := ih
    rw [List.flatMap_append, List.flatMap_singleton]
    cases event with
    | change change =>
      cases taken
      refine ⟨notices, queue ++ [change], tables, ?_, ?_, ?_, ?_, htables, shows⟩
      · rw [hmade, List.append_assoc]
        rfl
      · rw [hpending, List.map_append]
        rfl
      · rw [Kernel.after_append, ← hkernel]
        rfl
      · exact timely.later [change]
    | notify =>
      rw [MonitorEvent.changes, List.append_nil]
      cases queue with
      | nil =>
        rw [Monitor.step, hpending] at taken
        cases taken
      | cons change queue =>
        rw [Monitor.step, hpending] at taken
        cases taken
        obtain ⟨after, hafter, showsAfter⟩ := shows.handleRouteMessage system middle.kernel change
        refine ⟨notices ++ [(change, middle.kernel)], queue, after, ?_, rfl, hkernel, ?_, ?_, ?_⟩
        · rw [hmade, List.map_append, List.append_assoc]
          rfl
        · rw [hkernel]
          exact timely.append hmade
        · rw [htables, ok_bind, hafter]
        · rw [List.foldl_append]
          exact showsAfter

theorem Change.writes_of_is {change : Change} (his : change.route.Is family front)
    (hhost : front.length = family.bitWidth) : change.Writes family front := by
  cases change with
  | add route =>
    obtain ⟨rfl, rfl⟩ := his
    exact ⟨rfl, route.address_eq_of_length hhost⟩
  | delete route => exact his

theorem length_lt_of_not_writes (h : ¬ (Change.add route).Writes route.family route.network) :
    route.network.length < route.family.bitWidth := by
  refine Nat.lt_of_le_of_ne ?_ fun hhost =>
    h (Change.writes_of_is ⟨rfl, rfl⟩ hhost)
  rw [← route.length_address]
  exact route.network_isPrefix.length_le

theorem Preserved.loaded_of_not_writes (preserved : Preserved system initial
    changes) (hgateway : ∀ change ∈ changes, change.route.Gatewayed)
    (h : ∀ change ∈ changes, ¬ change.Writes family front) :
    (initial.after changes).loaded system family front = initial.loaded system family front := by
  rcases exists_last (fun change : Change => change.route.Is family front)
    changes with hnone | ⟨before, change, after, hsplit, his, hafter⟩
  · rw [Kernel.loaded, Kernel.loaded, Kernel.entries_after hnone]
  · have hmem : change ∈ changes := hsplit ▸ List.mem_append_cons_self
    cases change with
    | delete route => exact absurd his (h _ hmem)
    | add route =>
      obtain ⟨rfl, rfl⟩ := his
      obtain ⟨hinitial, -⟩ := preserved.networks before route after hsplit
        (length_lt_of_not_writes (h _ hmem)) hafter
      refine Eq.trans ?_ hinitial.symm
      rw [hsplit]
      exact Kernel.loaded_of_entries (hgateway _ hmem) (Kernel.entries_after_last ⟨rfl, rfl⟩ hafter)

theorem Preserved.loaded_of_delete {before after : List Change}
    (preserved : Preserved system initial (before ++ .delete route :: after))
    (his : route.Is family front) (h : ∀ change ∈ after, ¬ change.Writes family front) :
    (initial.after (before ++ .delete route :: after)).loaded system family front = none := by
  rcases exists_last (fun change : Change => change.route.Is family front)
    after with hnone | ⟨between, change, later, rfl, hchange, hlater⟩
  · rw [Kernel.loaded, Kernel.entries_after_last his hnone]
    rfl
  · cases change with
    | delete deleted =>
      exact absurd hchange (h _ List.mem_append_cons_self)
    | add added =>
      obtain ⟨rfl, rfl⟩ := hchange
      have hadded := h _ List.mem_append_cons_self
      -- The network would have been deleted before its last addition.
      obtain ⟨-, hdeleted⟩ := preserved.networks (before ++ .delete route :: between) added later
        (by simp) (length_lt_of_not_writes hadded) hlater
      exact absurd his (hdeleted route (by simp))

theorem Preserved.mirror_eq
    (preserved : Preserved system initial changes) (hgateway : ∀ change ∈ changes,
    change.route.Gatewayed) (hnotices : notices.map Prod.fst = changes)
    (timely : Timely initial changes notices) :
    notices.foldl (mirror system) (initial.loaded system) =
      (initial.after changes).loaded system := by
  funext family front
  rcases exists_last (fun notice : Change × Kernel => notice.1.Writes family front) notices with
    hnone | ⟨before, ⟨change, kernel⟩, after, hsplit, hwrites, hafter⟩
  · rw [foldl_mirror_of_not_writes hnone, preserved.loaded_of_not_writes hgateway]
    intro change hchange
    rw [← hnotices] at hchange
    obtain ⟨notice, hnotice, rfl⟩ := List.mem_map.mp hchange
    exact hnone notice hnotice
  · have hlater : ∀ change ∈ after.map Prod.fst, ¬ change.Writes family front := by
      intro change hchange
      obtain ⟨notice, hnotice, rfl⟩ := List.mem_map.mp hchange
      exact hafter notice hnotice
    obtain ⟨more, rest, hmade, hkernel⟩ := timely before change kernel after hsplit
    have hrest : after.map Prod.fst = more ++ rest := by
      rw [hsplit, List.map_append, List.map_cons, hmade] at hnotices
      simpa using hnotices
    rw [hsplit, foldl_mirror_last hafter]
    cases change with
    | delete route =>
      obtain ⟨rfl, rfl⟩ := hwrites
      rw [mirror, Hops.put_apply, if_pos ⟨rfl, rfl⟩]
      rw [hmade, ← hrest] at preserved ⊢
      exact (preserved.loaded_of_delete ⟨rfl, rfl⟩ hlater).symm
    | add route =>
      obtain ⟨rfl, rfl⟩ := hwrites
      -- No later change concerns the host, so the answer is still right.
      have hsame : (initial.after changes).entries route.family
          route.address = kernel.entries route.family route.address := by
        rw [hkernel, hmade, ← List.cons_append, ← List.append_assoc, Kernel.after_append]
        refine Kernel.entries_after fun change hchange his => ?_
        refine hlater change ?_ (Change.writes_of_is his route.length_address)
        rw [hrest]
        exact List.mem_append_right _ hchange
      obtain ⟨used, hused, hloaded⟩ := Kernel.of_loaded
        (preserved.hosts _ route _ hmade fun deleted hdeleted his =>
          hlater (.delete deleted) (hrest ▸ hdeleted) his)
      rw [hloaded, mirror, Kernel.longest_eq (hsame.symm.trans hused)]
      exact (Hops.put_apply ..).trans (if_pos ⟨rfl, rfl⟩)

def promptNotices : Kernel → List Change → List (Change × Kernel)
  | _, [] => []
  | kernel, change :: changes =>
    (change, kernel.apply change) :: promptNotices (kernel.apply change) changes

def promptEvents (changes : List Change) : List MonitorEvent :=
  changes.flatMap fun change => [.change change, .notify]

theorem changes_promptEvents (changes : List Change) :
    (promptEvents changes).flatMap MonitorEvent.changes = changes := by
  induction changes with
  | nil => rfl
  | cons change changes ih =>
    rw [promptEvents, List.flatMap_cons, List.flatMap_append, ← promptEvents, ih]
    rfl

theorem map_promptNotices (kernel : Kernel) (changes : List Change) :
    (promptNotices kernel changes).map Prod.fst = changes := by
  induction changes generalizing kernel with
  | nil => rfl
  | cons change changes ih => rw [promptNotices, List.map_cons, ih]

theorem promptNotices_append (kernel : Kernel) (before later : List Change) :
    promptNotices kernel (before ++ later) = promptNotices kernel before ++
        promptNotices (kernel.after before) later := by
  induction before generalizing kernel with
  | nil => rfl
  | cons change before ih =>
    rw [List.cons_append, promptNotices, promptNotices, ih]
    rfl

theorem exists_promptRun {tables : Tables} (shows : tables.Shows hops) (changes : List Change) :
    ∃ last after, Run (Monitor.step system) (fun _ _ => True) ⟨kernel, [], .ok tables⟩
      (promptEvents changes) last ∧ last.pending = [] ∧ last.kernel = kernel.after changes ∧
      last.tables = .ok after ∧ after.Shows ((promptNotices kernel changes).foldl (mirror system)
      hops) := by
  induction changes generalizing kernel tables hops with
  | nil => exact ⟨_, tables, .start _, rfl, rfl, rfl, shows⟩
  | cons change changes ih =>
    obtain ⟨middle, hmiddle, showsMiddle⟩ :=
      shows.handleRouteMessage system (kernel.apply change) change
    obtain ⟨last, after, hrun, hpending, hkernel, htables, showsAfter⟩ := ih showsMiddle
    refine ⟨last, after, ?_, hpending, hkernel, htables, showsAfter⟩
    have hchange : Run (Monitor.step system) (fun _ _ => True) ⟨kernel, [], .ok tables⟩
      [.change change] ⟨kernel.apply change, [change.message], .ok tables⟩ := Run.one trivial rfl
    have hnotify : Run (Monitor.step system) (fun _ _ => True) ⟨kernel.apply change,
        [change.message], .ok tables⟩ [.notify] ⟨kernel.apply change, [], .ok middle⟩ := by
      refine Run.one trivial ?_
      rw [← hmiddle]
      rfl
    exact (hchange.append hnotify).append hrun

theorem mirror_ne_none (hhop : hops family front ≠ none)
    (hdeleted : ∀ deleted, notice.1 = .delete deleted → ¬ deleted.Is family front) :
    mirror system hops notice family front ≠ none := by
  by_cases hwrites : notice.1.Writes family front
  · obtain ⟨change, kernel⟩ := notice
    cases change with
    | delete deleted => exact absurd hwrites (hdeleted deleted rfl)
    | add route =>
      obtain ⟨rfl, rfl⟩ := hwrites
      rw [mirror]
      cases longest (kernel.entries route.family) route.address with
      | none => exact hhop
      | some used =>
        change hops.put _ _ _ _ _ ≠ none
        rw [Hops.put_apply, if_pos ⟨rfl, rfl⟩]
        exact Option.some_ne_none _
  · rwa [mirror_of_not_writes hwrites]

theorem foldl_mirror_ne_none (hhop : hops family front ≠ none)
    (hdeleted : ∀ deleted, .delete deleted ∈ notices.map Prod.fst → ¬ deleted.Is family front) :
    notices.foldl (mirror system) hops family front ≠ none := by
  induction notices generalizing hops with
  | nil => exact hhop
  | cons notice notices ih =>
    refine ih (mirror_ne_none hhop ?_) ?_
    · rintro deleted hnotice
      exact hdeleted deleted (by simp [hnotice])
    · intro deleted hmem
      exact hdeleted deleted (List.mem_cons_of_mem _ hmem)

theorem mirror_add_ne_none :
    mirror system hops (.add route, kernel.apply (.add route)) route.family
      route.address ≠ none := by
  have hentry : (kernel.apply (.add route)).entries route.family route.network = some route := by
    rw [Kernel.entries_apply]
    exact if_pos ⟨rfl, rfl⟩
  rw [mirror]
  cases hused : longest ((kernel.apply (.add route)).entries route.family) route.address with
  | none =>
    have hnone := (isLongest_longest _ _).none_iff.mp hused route.network route.network_isPrefix
    rw [hentry] at hnone
    exact absurd hnone (Option.some_ne_none route)
  | some used =>
    change hops.put _ _ _ _ _ ≠ none
    rw [Hops.put_apply, if_pos ⟨rfl, rfl⟩]
    exact Option.some_ne_none _

theorem Follows.mirror_eq (follows : Follows system initial changes) :
    (promptNotices initial changes).foldl (mirror system)
      (initial.loaded system) = (initial.after changes).loaded system := by
  obtain ⟨tables, htables, shows⟩ := shows_initFromOS system initial
  obtain ⟨last, after, hrun, hpending, hkernel, hafter, showsAfter⟩ :=
    @exists_promptRun system _ initial tables shows changes
  have hstart : Monitor.start system initial = ⟨initial, [], .ok tables⟩ := by
    rw [Monitor.start, htables]
  obtain ⟨found, reloaded, hfound, hreloaded, hsame⟩ :=
    follows _ last (hstart ▸ hrun) (changes_promptEvents changes) hpending
  obtain ⟨fresh, hfresh, showsFresh⟩ := shows_initFromOS system (initial.after changes)
  rw [hkernel, hfresh] at hreloaded
  cases hafter.symm.trans hfound
  cases hreloaded
  rw [← showsAfter.hops_eq, hsame, showsFresh.hops_eq]

theorem Follows.networks {before after : List Change}
    (hgateway : ∀ change ∈ changes, change.route.Gatewayed) (follows : Follows system initial
    changes) (hsplit : changes = before ++ .add route :: after) (hshort : route.network.length <
    route.family.bitWidth) (hafter : ∀ change ∈ after, ¬ change.route.Is route.family route.network)
    :
    initial.loaded system route.family route.network = some (route.hop system) ∧ ∀ deleted, .delete
      deleted ∈ before → ¬ deleted.Is route.family route.network := by
  have hmem : .add route ∈ changes := hsplit ▸ List.mem_append_cons_self
  have hfinal : (initial.after changes).loaded system route.family
      route.network = some (route.hop system) := by
    rw [hsplit]
    exact Kernel.loaded_of_entries (hgateway _ hmem) (Kernel.entries_after_last ⟨rfl, rfl⟩ hafter)
  rw [← follows.mirror_eq] at hfinal
  have hnotices := map_promptNotices initial changes
  rcases exists_last (fun notice : Change × Kernel =>
    notice.1.Writes route.family route.network)
    (promptNotices initial changes) with
    hnone | ⟨earlier, ⟨change, kernel⟩, later, hlast, hwrites, hlater⟩
  · rw [foldl_mirror_of_not_writes hnone] at hfinal
    refine ⟨hfinal, fun deleted hdeleted his => ?_⟩
    have hchanged : .delete deleted ∈ changes := hsplit ▸ List.mem_append_left _ hdeleted
    rw [← hnotices] at hchanged
    obtain ⟨notice, hnotice, heq⟩ := List.mem_map.mp hchanged
    exact hnone notice hnotice (heq ▸ his)
  · rw [hlast, foldl_mirror_last hlater] at hfinal
    cases change with
    | delete deleted =>
      obtain ⟨hfamily, hnetwork⟩ := hwrites
      rw [mirror, Hops.put_apply, if_pos ⟨hfamily.symm, hnetwork.symm⟩] at hfinal
      cases hfinal
    | add added =>
      have hlength := added.length_address
      rw [hwrites.1, hwrites.2] at hlength
      omega

theorem preserved_of_follows (hgateway : ∀ change ∈ changes,
    change.route.Gatewayed) (follows : Follows system initial changes) :
    Preserved system initial changes where
  networks _ _ _ hsplit hshort hafter := follows.networks hgateway hsplit hshort hafter
  hosts before route after hsplit hdeleted := by
    rw [← follows.mirror_eq, hsplit, promptNotices_append, List.foldl_append,
      promptNotices, List.foldl_cons]
    refine foldl_mirror_ne_none mirror_add_ne_none ?_
    rwa [map_promptNotices]

end

/-- The tables follow the kernel just where the changes announce no network
that the tables do not already have, or only hosts. -/
theorem follows_iff (system : System) (initial : Kernel) (changes : List Change)
    (hgateway : ∀ change ∈ changes, change.route.Gatewayed) :
    Follows system initial changes ↔ Preserved system initial changes := by
  refine ⟨preserved_of_follows hgateway, ?_⟩
  intro preserved events last hrun hchanges hpending
  obtain ⟨notices, queue, tables, hmade, hqueue, hkernel, timely, htables,
    shows⟩ := exists_notices hrun
  have hnil : queue = [] := by
    rw [hpending] at hqueue
    exact List.map_eq_nil_iff.mp hqueue.symm
  rw [hnil, List.append_nil, hchanges] at hmade
  rw [hchanges] at hkernel timely
  obtain ⟨reloaded, hreloaded, showsReloaded⟩ := shows_initFromOS system (initial.after changes)
  rw [preserved.mirror_eq hgateway hmade.symm timely] at shows
  refine ⟨tables, reloaded, htables, ?_, ?_⟩
  · rw [hkernel]
    exact hreloaded
  · rw [shows.hops_eq, showsReloaded.hops_eq]

def sampleSystem : System where
  interfaceByIndex index := if index = 2 then some "eth0" else none
  lookupNeighborLLAddr _ _ _ := []

def wideRoute : KernelRoute := ⟨.inet, [10, 0, 0, 0], 8, .universe, [192, 168, 1, 1], 2, by decide,
    by decide⟩

/-- The network is announced, and a single host of it is put into the table. -/
theorem exists_not_follows :
    wideRoute.Gatewayed ∧ ¬ Follows sampleSystem ⟨[], .nil⟩ [.add wideRoute] ∧
    ((initFromOS sampleSystem [] >>= handleRouteMessage sampleSystem
          (Kernel.query ⟨[wideRoute], List.pairwise_singleton ..⟩)
          (wideRoute.message .newRoute)).map fun tables =>
      (tables.hops .inet wideRoute.network, tables.hops .inet wideRoute.address)) =
      .ok (none, some ⟨[192, 168, 1, 1], "eth0"⟩) := by
  have gatewayed : wideRoute.Gatewayed := ⟨by decide, .inl rfl⟩
  refine ⟨gatewayed, fun follows => ?_, by decide +kernel⟩
  have preserved := preserved_of_follows (by simpa [Change.route]) follows
  obtain ⟨hinitial, -⟩ := preserved.networks [] wideRoute [] rfl (by decide)
    fun change hchange => absurd hchange List.not_mem_nil
  exact absurd hinitial (by decide)

def hostRoute (gateway : Bytes) : KernelRoute :=
  ⟨.inet, [10, 1, 2, 3], 32, .universe, gateway, 2, by decide, by decide⟩

theorem follows_iff_hostRoute : Follows sampleSystem ⟨[hostRoute [192, 168, 1, 1]],
      List.pairwise_singleton ..⟩ [.delete (hostRoute [192, 168, 1, 1]), .add
      (hostRoute [192, 168, 1, 9])] := by
  have hadded : ∀ before route after, [.delete (hostRoute [192, 168, 1, 1]), .add
      (hostRoute [192, 168, 1, 9])] = before ++ Change.add route :: after → route = hostRoute
      [192, 168, 1, 9] := by
    intro before route after hsplit
    have hmem : Change.add route ∈ before ++ .add route :: after := List.mem_append_cons_self
    rw [← hsplit] at hmem
    simpa using hmem
  refine (follows_iff _ _ _ ?_).mpr ⟨?_, ?_⟩
  · simp [Change.route, KernelRoute.Gatewayed, hostRoute]
  · intro before route after hsplit hshort
    rw [hadded before route after hsplit] at hshort
    exact absurd hshort (by decide)
  · intro before route after hsplit _
    rw [hadded before route after hsplit]
    decide +kernel

end Pig.Routing
