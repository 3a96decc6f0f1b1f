import Pig.Routing.LongestMatch

namespace Pig.Routing

open Go Network BitString LongestPrefix RtNode

inductive Action where
  | change (operation : Operation)
  | exclude (adapterName : List String)
  deriving DecidableEq, Repr

def Table.act (t : Table) : Action → Checked Table
  | .change operation => do
      let (t, _) ← t.perform operation
      return t
  | .exclude adapterName => .ok (t.excludeAdapter adapterName)

def Table.actAll : Table → List Action → Checked Table
  | t, [] => .ok t
  | t, action :: actions => do
      let t ← t.act action
      t.actAll actions

/-- The insertions and removals among the actions, without those of routes of
another family, which a table does not take. -/
def changes (family : Family) (actions : List Action) : List Operation :=
  actions.filterMap fun action =>
    match action with
    | .change operation =>
      if operation.route.family = some family then some operation else none
    | .exclude _ => none

def Action.adapters : Action → List String
  | .change _ => []
  | .exclude adapterName => adapterName

def excluded (actions : List Action) : List String := actions.flatMap Action.adapters

def Operation.concerns (front : List Bool) (name : String) : Operation → Bool
  | .insert route => route.network == front && route.interface == name
  | .remove route => route.network == front

def held (operations : List Operation) (front : List Bool) (name : String) : Option Route :=
  (operations.reverse.find? (·.concerns front name)).bind Operation.leaves

section

variable {operations : List Operation} {front : List Bool} {name : String} {route : Route}

theorem of_held (h : held operations front name = some route) :
    route.network = front ∧ route.interface = name := by
  obtain ⟨operation, hfind, hleaves⟩ := Option.bind_eq_some_iff.mp h
  have hconcerns := List.find?_some hfind
  cases operation with
  | insert inserted =>
    cases hleaves
    simpa [Operation.concerns] using hconcerns
  | remove removed => cases hleaves

theorem concerns_eq_false {operation : Operation} (h : operation.route.network ≠ front) :
    operation.concerns front name = false := by
  cases operation with
  | insert inserted =>
    exact Bool.and_eq_false_imp.mpr fun heq => absurd (beq_iff_eq.mp heq) h
  | remove removed => exact beq_eq_false_iff_ne.mpr h

theorem find?_concerns_cons {operation : Operation}
    {later : List Operation} (h : operation.route.network ≠ front) :
    (operation :: later).find? (·.concerns front name) = later.find? (·.concerns front name) ∧
      (operation :: later).find? (·.route.network == front) =
        later.find? (·.route.network == front) := by
  rw [List.find?_cons_of_neg (by rw [concerns_eq_false h]; decide),
    List.find?_cons_of_neg (by simpa using h)]
  exact ⟨rfl, rfl⟩

theorem held_of_present (h : present operations front = some route) :
    held operations front route.interface = some route := by
  unfold present at h
  unfold held
  generalize operations.reverse = recent at h ⊢
  induction recent with
  | nil => cases h
  | cons operation later ih =>
    by_cases heq : operation.route.network = front
    · rw [List.find?_cons_of_pos (by simpa using heq)] at h
      cases operation with
      | remove removed => cases h
      | insert inserted =>
        cases h
        rw [List.find?_cons_of_pos]
        · rfl
        · simpa [Operation.concerns, Operation.route] using heq
    · obtain ⟨hconcerns, hnetwork⟩ := @find?_concerns_cons front route.interface operation later heq
      rw [hconcerns]
      exact ih (hnetwork ▸ h)

theorem present_ne_none (h : held operations front name = some route) :
    present operations front ≠ none := by
  unfold held at h
  unfold present
  generalize operations.reverse = recent at h ⊢
  induction recent with
  | nil => cases h
  | cons operation later ih =>
    by_cases heq : operation.route.network = front
    · rw [List.find?_cons_of_pos (by simpa using heq)]
      cases operation with
      | insert inserted => exact Option.some_ne_none inserted
      | remove removed =>
        rw [List.find?_cons_of_pos] at h
        · cases h
        · simpa [Operation.concerns, Operation.route] using heq
    · obtain ⟨hconcerns, hnetwork⟩ := @find?_concerns_cons front name operation later heq
      rw [hnetwork]
      exact ih (hconcerns ▸ h)

end

theorem Table.perform_ignore (t : Table) (names : List String) (operation : Operation) :
    ({ t with ignore := names } : Table).perform operation =
      (t.perform operation).map fun (after, done) =>
        ({ after with ignore := names }, done) := by
  cases operation with
  | insert route =>
    simp only [Table.perform, Table.insert]
    split_ifs
    · rfl
    · rfl
    · cases insertAt t.family (routeToTablePrefix route) (routeToPrefixBits route) route t.root with
      | error fault | ok root => rfl
  | remove route =>
    simp only [Table.perform, Table.remove]
    split_ifs
    · rfl
    · rfl
    · rcases removeAt t.family (routeToTablePrefix route) (routeToPrefixBits route) t.root with
        fault | _ | result <;> rfl

variable {operation : Operation}

theorem Table.perform_of_other_family {t : Table} (h : operation.route.family ≠ some t.family) :
    t.perform operation = .ok (t, false) := by
  cases operation with
  | insert route | remove route => exact if_pos h

theorem Table.perform_family {t after : Table}
    {done : Bool} (h : t.perform operation = .ok (after, done)) :
    after.family = t.family := by
  obtain rfl | rfl | ⟨root, rfl, -⟩ := Table.of_perform h <;> rfl

theorem Table.actAll_eq (actions : List Action) (t : Table) (names : List String) :
    ∃ ignored, (∀ name, name ∈ ignored ↔ name ∈ names ∨ name ∈ excluded actions) ∧
      ({ t with ignore := names } : Table).actAll actions =
        (t.run (changes t.family actions)).map fun after =>
          { after with ignore := ignored } := by
  induction actions generalizing t names with
  | nil => exact ⟨names, by simp [excluded], rfl⟩
  | cons action actions ih =>
    cases action with
    | exclude adapterName =>
      obtain ⟨ignored, hignored, hrun⟩ := ih t (adapterName ++ names)
      refine ⟨ignored, fun name => ?_, hrun⟩
      rw [hignored, List.mem_append, excluded, excluded,
        List.flatMap_cons, List.mem_append, Action.adapters]
      tauto
    | change operation =>
      rw [Table.actAll, Table.act, Table.perform_ignore]
      by_cases hfamily : operation.route.family = some t.family
      · have hchanges : changes t.family (.change operation :: actions) =
            operation :: changes t.family actions := by
          simp [changes, hfamily]
        rw [hchanges, Table.run]
        cases hperform : t.perform operation with
        | error fault => exact ⟨names ++ excluded actions,
            fun name => List.mem_append, rfl⟩
        | ok result =>
          obtain ⟨ignored, hignored, hrun⟩ := ih result.1 names
          refine ⟨ignored, hignored, ?_⟩
          rw [← Table.perform_family hperform]
          exact hrun
      · have hchanges : changes t.family (.change operation :: actions) =
            changes t.family actions := by
          simp [changes, hfamily]
        rw [hchanges, Table.perform_of_other_family hfamily]
        exact ih t names

namespace RtNode

def prune (ignore : List String) : RtNode → RtNode
  | .nil => .nil
  | .node left right prefixKey value bitLen =>
    .node (prune ignore left) (prune ignore right) prefixKey
      (value.filter (·.interface ∉ ignore)) bitLen

def Uniform (value : List Route) : Prop := ∀ route ∈ value, value.head? = some route

def Each (property : List Route → Prop) : RtNode → Prop
  | .nil => True
  | .node left right _ value _ =>
    property value ∧ Each property left ∧ Each property right

variable {family : Family} {width prefixLen : Nat} {key : Option Nat} {property : List Route → Prop}
  {tree after left right child sibling : RtNode} {value : List Route} {bitLen : Nat} {route : Route}
  {again side : Bool} {front : List Bool} {ignore : List String}

theorem Each.branch (hvalue : property value) (hchild : Each property child)
    (hsibling : Each property sibling) :
    Each property (.branch side child sibling key value bitLen) := by
  cases side with
  | false => exact ⟨hvalue, hchild, hsibling⟩
  | true => exact ⟨hvalue, hsibling, hchild⟩

theorem Each.insertAt (hempty : property []) (hleaf : property [route])
    (hadd : ∀ value, property value → property (addRoute value route)) (each : Each property tree)
    (hinsert : Table.insertAt family key prefixLen route tree = .ok after) :
    Each property after := by
  induction tree generalizing after with
  | nil =>
    cases hinsert
    exact ⟨hleaf, trivial, trivial⟩
  | node left right nodeKey value bitLen ihleft ihright =>
    obtain ⟨hvalue, hleft, hright⟩ := each
    simp only [Table.insertAt] at hinsert
    obtain ⟨shared, -, hinsert⟩ := bind_eq_ok.mp hinsert
    split at hinsert
    · obtain ⟨side, -, hafter⟩ := bind_eq_ok.mp hinsert
      cases hafter
      exact .branch hleaf ⟨hvalue, hleft, hright⟩ trivial
    · split at hinsert
      · cases hinsert
        exact ⟨hadd value hvalue, hleft, hright⟩
      · split at hinsert
        · obtain ⟨side, -, hinsert⟩ := bind_eq_ok.mp hinsert
          split at hinsert
          · obtain ⟨child, hchild, hafter⟩ := bind_eq_ok.mp hinsert
            cases hafter
            exact ⟨hvalue, hleft, ihright hright hchild⟩
          · obtain ⟨child, hchild, hafter⟩ := bind_eq_ok.mp hinsert
            cases hafter
            exact ⟨hvalue, ihleft hleft hchild, hright⟩
        · obtain ⟨branchKey, -, hinsert⟩ := bind_eq_ok.mp hinsert
          obtain ⟨side, -, hafter⟩ := bind_eq_ok.mp hinsert
          cases hafter
          exact .branch hempty ⟨hvalue, hleft, hright⟩ ⟨hleaf, trivial, trivial⟩

theorem Each.compress (hvalue : property value) (hleft : Each property left)
    (hright : Each property right) :
    Each property (Table.compress left right key value bitLen).1 := by
  rw [Table.compress]
  split
  · exact ⟨hvalue, hleft, hright⟩
  · split
    · exact hleft
    · exact hright

theorem Each.ascend (hvalue : property value) (hleft : Each property left)
    (hright : Each property right) :
    Each property (Table.ascend left right key value bitLen again).1 := by
  cases again with
  | false => exact ⟨hvalue, hleft, hright⟩
  | true => exact Each.compress hvalue hleft hright

theorem Each.removeAt (hempty : property []) (each : Each property tree) {result : RtNode × Bool}
    (hremove : Table.removeAt family key prefixLen tree = .ok (some result)) :
    Each property result.1 := by
  induction tree generalizing result with
  | nil => cases hremove
  | node left right nodeKey value bitLen ihleft ihright =>
    obtain ⟨hvalue, hleft, hright⟩ := each
    obtain ⟨shared, -, hremove⟩ := bind_eq_ok.mp hremove
    split at hremove
    · cases hremove
    split at hremove
    · split at hremove
      · cases hremove
      · cases hremove
        exact .compress hempty hleft hright
    split at hremove
    · cases hremove
    obtain ⟨side, -, hremove⟩ := bind_eq_ok.mp hremove
    split at hremove
    · obtain ⟨removed, hremoved, hresult⟩ := bind_eq_ok.mp hremove
      obtain ⟨child, rfl, rfl⟩ := Option.map_eq_some_iff.mp (Except.ok.inj hresult)
      exact .ascend hvalue hleft (ihright hright hremoved)
    · obtain ⟨removed, hremoved, hresult⟩ := bind_eq_ok.mp hremove
      obtain ⟨child, rfl, rfl⟩ := Option.map_eq_some_iff.mp (Except.ok.inj hresult)
      exact .ascend hvalue (ihleft hleft hremoved) hright

theorem uniform_addRoute (value : List Route) (route : Route) : Uniform (addRoute value route) := by
  intro other hother
  cases value with
  | nil =>
    rw [List.mem_singleton.mp hother]
    rfl
  | cons first value =>
    have heq : other = route := by
      rcases List.mem_append.mp hother with hmapped | hlast
      · obtain ⟨-, -, rfl⟩ := List.mem_map.mp hmapped
        rfl
      · exact List.mem_singleton.mp hlast
    rw [heq]
    rfl

theorem Uniform.head?_filter (uniform : Uniform value) (ignore : List String) :
    (value.filter (·.interface ∉ ignore)).head? = value.head?.filter (·.interface ∉ ignore) := by
  cases value with
  | nil => rfl
  | cons first rest =>
    by_cases hfirst : first.interface ∉ ignore
    · simp [Option.filter, hfirst]
    · have hnone : (first :: rest).filter (·.interface ∉ ignore) = [] := by
        rw [List.filter_eq_nil_iff]
        intro route hroute
        rw [← Option.some.inj (uniform route hroute)]
        simpa using hfirst
      rw [hnone]
      simp [Option.filter, hfirst]

theorem Sound.prune (sound : Sound width front tree) (ignore : List String) :
    Sound width front (tree.prune ignore) := by
  induction sound with
  | nil front => exact .nil front
  | node hkey hlen hfront hvalue hleft hright ihleft ihright =>
    refine .node hkey hlen hfront (fun hne => hvalue ?_) ihleft ihright
    rintro rfl
    exact hne rfl

theorem filter_or_of_none {first second : Option Route}
    (keep : Route → Bool) (h : first = none ∨ second = none) :
    (first.or second).filter keep = (first.filter keep).or (second.filter keep) := by
  rcases h with rfl | rfl
  · rw [Option.none_or, Option.filter_none, Option.none_or]
  · rw [Option.or_none, Option.filter_none, Option.or_none]

theorem Sound.find_prune (sound : Sound width front tree)
    (each : Each Uniform tree) (ignore : List String) (spelled : List Bool) :
    find width (tree.prune ignore) spelled =
      (find width tree spelled).filter (·.interface ∉ ignore) := by
  induction sound with
  | nil front => rfl
  | node hkey hlen hfront hvalue hleft hright ihleft ihright =>
    obtain ⟨uniform, heachLeft, heachRight⟩ := each
    rw [RtNode.prune, find_node, find_node]
    split
    · exact uniform.head?_filter ignore
    · have hnone := Sound.find_eq_none_or hleft
        (show Sound width (_ ++ [!false]) _ from hright) spelled
      rw [ihleft heachLeft, ihright heachRight, filter_or_of_none _ hnone]

end RtNode

theorem consider_filter (ignore : List String) (bitLen : Nat)
    (routes : List Route) (best : Option Route × Int) :
    Table.consider ignore bitLen routes best =
      Table.consider [] bitLen (routes.filter (·.interface ∉ ignore)) best := by
  induction routes generalizing best with
  | nil => rfl
  | cons route rest ih =>
    rw [Table.consider]
    by_cases hignored : route.interface ∈ ignore
    · rw [if_pos hignored, List.filter_cons_of_neg (by simpa using hignored), ih]
    · rw [if_neg hignored, List.filter_cons_of_pos (by simpa using hignored),
        Table.consider, if_neg List.not_mem_nil, ih, ih]

theorem lookupFrom_prune (family : Family) (ignore : List String)
    (dstKey : Option Nat) (tree : RtNode) (best : Option Route × Int) :
    Table.lookupFrom family ignore dstKey tree best =
      Table.lookupFrom family [] dstKey (tree.prune ignore) best := by
  induction tree generalizing best with
  | nil => rfl
  | node left right prefixKey value bitLen ihleft ihright =>
    simp only [Table.lookupFrom, RtNode.prune, consider_filter ignore, ihleft, ihright]

theorem Table.lookup_prune (t : Table) (names : List String) (dst : Bytes) :
    ({ t with ignore := names } : Table).lookup dst =
      ({ t with root := t.root.prune names, ignore := [] } : Table).lookup
        dst := by
  have hkey : ∀ (names : List String) (root : RtNode), ({ t with root := root, ignore := names } :
      Table).destinationKey dst = t.destinationKey dst := fun _ _ => rfl
  simp only [Table.lookup, hkey]
  cases t.destinationKey dst with
  | none => rfl
  | some key => exact lookupFrom_prune _ _ _ _ _

theorem Table.perform_uniform {t after : Table} {done : Bool}
    (each : t.root.Each Uniform) (h : t.perform operation = .ok (after, done)) :
    after.root.Each Uniform := by
  have hempty : Uniform [] := fun _ hroute => absurd hroute List.not_mem_nil
  obtain rfl | rfl | ⟨root, rfl, hroot⟩ := Table.of_perform h
  · exact each
  · exact each
  · cases operation with
    | insert route =>
      exact each.insertAt hempty (uniform_addRoute [] route)
        (fun value _ => uniform_addRoute value route) hroot
    | remove route =>
      obtain ⟨again, hroot⟩ := hroot
      exact each.removeAt hempty hroot

def Usable (family : Family) (actions : List Action) (front : List Bool) : Prop :=
  ∃ name, name ∉ excluded actions ∧ held (changes family actions) front name ≠ none

/-- The answer is a route, on an interface that is not excluded, of the longest
network that contains the address and has one. -/
structure Honours (family : Family) (actions : List Action) (dst : Bytes)
    (result : Option Route) : Prop where
  not_excluded : ∀ route, result = some route → route.interface ∉ excluded actions
  none_iff : result = none ↔ ∀ front, Covers family dst front → ¬ Usable family actions front
  longest : ∀ route, result = some route → ∃ front name, Covers family dst front ∧
      held (changes family actions) front name = some route ∧
      ∀ other, Covers family dst other → Usable family actions other → other.length ≤ front.length

/-- The longest network with a usable route had its last route inserted on an
interface that is not excluded; and without such a network there is no default
route. -/
structure Undisturbed (family : Family) (actions : List Action)
    (dst : Bytes) : Prop where
  newest : ∀ front, Covers family dst front → Usable family actions front →
    (∀ other, Covers family dst other → Usable family actions other → other.length ≤ front.length) →
    ∃ route, present (changes family actions) front = some route ∧
      route.interface ∉ excluded actions
  no_default : Covers family dst [] → (∀ front, Covers family dst front → ¬ Usable family actions
    front) → present (changes family actions) [] = none

def admitted (family : Family) (actions : List Action) : Entries Bool Route :=
  fun front =>
    if front = [] then present (changes family actions) []
    else (present (changes family actions) front).filter (·.interface ∉ excluded actions)

section

variable {family : Family} {actions : List Action} {dst : Bytes}
  {front other : List Bool} {route : Route} {result : Option Route}

theorem present_of_admitted (h : admitted family actions front = some route) :
    present (changes family actions) front = some route := by
  rw [admitted] at h
  split at h
  · next hnil =>
      rw [hnil]
      exact h
  · exact (Option.filter_eq_some_iff.mp h).1

theorem admitted_of_present (h : present (changes family actions) front = some route)
    (hroute : route.interface ∉ excluded actions) :
    admitted family actions front = some route := by
  rw [admitted]
  split
  · next hnil =>
      rw [← hnil]
      exact h
  · exact Option.filter_eq_some_iff.mpr ⟨h, decide_eq_true hroute⟩

theorem usable_of_held {name : String} (h : held (changes family actions) front name = some route)
    (hroute : route.interface ∉ excluded actions) :
    Usable family actions front :=
  ⟨name, (of_held h).2 ▸ hroute, Option.ne_none_iff_exists'.mpr ⟨route, h⟩⟩

theorem Covers.eq_of_length (hfront : Covers family dst front)
    (hother : Covers family dst other) (hlength : front.length = other.length) :
    front = other := by
  rw [List.prefix_iff_eq_take.mp hfront.2, List.prefix_iff_eq_take.mp hother.2, hlength]

theorem exists_longest_usable (hcovers : Covers family dst front)
    (husable : Usable family actions front) :
    ∃ front, Covers family dst front ∧ Usable family actions front ∧ ∀ other, Covers family dst
      other → Usable family actions other → other.length ≤ front.length := by
  classical
  let entries : Entries Bool Unit := fun front =>
    if Usable family actions front then some () else none
  have hentries : ∀ front, entries front ≠ none ↔ Usable family actions front := by
    simp [entries]
  have hlongest := isLongest_longest entries (addressBits dst)
  cases hresult : LongestPrefix.longest entries (addressBits dst) with
  | none =>
    have hnone := hlongest.none_iff.mp hresult front hcovers.2
    exact absurd hnone ((hentries front).mpr husable)
  | some found =>
    obtain ⟨best, hbest, hfound, hmax⟩ := hlongest.longest found hresult
    refine ⟨best, ⟨hcovers.1, hbest⟩, (hentries best).mp ?_, ?_⟩
    · exact Option.ne_none_iff_exists'.mpr ⟨found, hfound⟩
    · intro other hother hotherUsable
      exact hmax other hother.2 ((hentries other).mpr hotherUsable)

theorem undisturbed_of_honours (hresult : IsLongest (admitted family actions) (Covers family dst)
    result) (honours : Honours family actions dst result) :
    Undisturbed family actions dst where
  newest := by
    intro front hcovers husable hmax
    cases hfound : result with
    | none => exact absurd husable (honours.none_iff.mp hfound front hcovers)
    | some route =>
      have hroute := honours.not_excluded route hfound
      obtain ⟨best, name, hbest, hheld, hbestMax⟩ := honours.longest route hfound
      have hsame : best = front := hbest.eq_of_length hcovers (Nat.le_antisymm
        (hmax best hbest (usable_of_held hheld hroute)) (hbestMax front hcovers husable))
      -- The route is the one looked up, and it belongs to one network only.
      obtain ⟨found, -, hadmitted, -⟩ := hresult.longest route hfound
      have hpresent := present_of_admitted hadmitted
      have hnetwork := (of_held (held_of_present hpresent)).1
      rw [← hnetwork, (of_held hheld).1, hsame] at hpresent
      exact ⟨route, hpresent, hroute⟩
  no_default := by
    intro hcovers hnone
    have hadmitted := hresult.none_iff.mp (honours.none_iff.mpr hnone) [] hcovers
    rwa [admitted, if_pos rfl] at hadmitted

theorem Undisturbed.exists_admitted (undisturbed : Undisturbed family actions dst)
    (hcovers : Covers family dst front) (husable : Usable family actions front) :
    ∃ best route, Covers family dst best ∧ front.length ≤ best.length ∧ admitted family actions best
      = some route ∧ route.interface ∉ excluded actions := by
  obtain ⟨best, hbest, hbestUsable, hmax⟩ := exists_longest_usable hcovers husable
  obtain ⟨route, hpresent, hroute⟩ := undisturbed.newest best hbest hbestUsable hmax
  exact ⟨best, route, hbest, hmax front hcovers husable,
    admitted_of_present hpresent hroute, hroute⟩

theorem Undisturbed.honours (undisturbed : Undisturbed family actions dst)
    (hresult : IsLongest (admitted family actions) (Covers family dst) result) :
    Honours family actions dst result := by
  cases hfound : result with
  | none =>
    refine ⟨fun route h => absurd h.symm (Option.some_ne_none route), iff_of_true rfl ?_,
      fun route h => absurd h.symm (Option.some_ne_none route)⟩
    intro front hcovers husable
    obtain ⟨best, route, hbest, -, hadmitted, -⟩ := undisturbed.exists_admitted hcovers husable
    have hnone := hresult.none_iff.mp hfound best hbest
    rw [hadmitted] at hnone
    exact Option.some_ne_none route hnone
  | some route =>
    obtain ⟨front, hcovers, hadmitted, hmax⟩ := hresult.longest route hfound
    have hpresent := present_of_admitted hadmitted
    have hlength : ∀ other, Covers family dst other →
        Usable family actions other → other.length ≤ front.length := by
      intro other hother husable
      obtain ⟨best, another, hbest, hle, hbestAdmitted, -⟩ :=
        undisturbed.exists_admitted hother husable
      exact Nat.le_trans hle (hmax best hbest
        (Option.ne_none_iff_exists'.mpr ⟨another, hbestAdmitted⟩))
    have hroute : route.interface ∉ excluded actions := by
      by_cases hnil : front = []
      · by_contra hexcluded
        subst hnil
        -- A usable network would be the empty one, with the same route.
        have hnone := undisturbed.no_default hcovers fun other hother husable => by
          obtain ⟨best, another, hbest, -, hbestAdmitted, hanother⟩ :=
            undisturbed.exists_admitted hother husable
          have hshort := hmax best hbest (Option.ne_none_iff_exists'.mpr ⟨another, hbestAdmitted⟩)
          rw [List.eq_nil_of_length_eq_zero (Nat.le_zero.mp hshort), hadmitted] at hbestAdmitted
          exact hanother (Option.some.inj hbestAdmitted ▸ hexcluded)
        rw [hpresent] at hnone
        exact Option.some_ne_none route hnone
      · rw [admitted, if_neg hnil, Option.filter_eq_some_iff] at hadmitted
        exact of_decide_eq_true hadmitted.2
    have hheld := held_of_present hpresent
    refine ⟨?_, iff_of_false (Option.some_ne_none route) ?_, ?_⟩
    · rintro other ⟨⟩
      exact hroute
    · intro hnone
      exact hnone front hcovers (usable_of_held hheld hroute)
    · rintro other ⟨⟩
      exact ⟨front, route.interface, hcovers, hheld, hlength⟩

end

theorem exists_lookup (family : Family) (actions : List Action) (hcanonical : ∀ operation ∈ changes
    family actions, operation.route.Canonical family) (dst : Bytes) :
    ∃ t result, (newTable family).actAll actions = .ok t ∧ t.lookup dst = .ok result ∧
      IsLongest (admitted family actions) (Covers family dst) result := by
  obtain ⟨ignored, hignored, hrun⟩ := Table.actAll_eq actions (newTable family) []
  obtain ⟨t, hchanges, rfl, represents, each⟩ := represents_run (·.root.Each Uniform)
    (changes family actions) hcanonical trivial fun _ _ _ _ _ _ => Table.perform_uniform
  let pruned : Table := { t with root := t.root.prune ignored, ignore := [] }
  have hkeep : (fun route : Route => decide (route.interface ∉ ignored)) =
      fun route => decide (route.interface ∉ excluded actions) := by
    simp [hignored]
  have hpruned : pruned.Represents (admitted t.family actions) := by
    refine ⟨represents.sound.prune ignored, rfl, ?_⟩
    funext front
    rw [admitted, Function.update_apply]
    split
    · exact (congrFun represents.entries_eq []).trans (Function.update_self ..)
    · next hne =>
        rw [represents.sound.find_prune each, represents.find_eq hne, hkeep]
  obtain ⟨result, hlookup, hlongest⟩ := hpruned.lookup dst
  refine ⟨{ t with ignore := ignored }, result, ?_, ?_, hlongest⟩
  · rw [show changes (newTable t.family).family actions =
      changes t.family actions from rfl, hchanges] at hrun
    exact hrun
  · rw [Table.lookup_prune]
    exact hlookup

/-- A lookup answers with a usable route of the longest network that has one
just where the last route inserted there is usable, and where a default route
on an excluded interface is not all that is left. -/
theorem lookup_honours_iff (family : Family) (actions : List Action)
    (hcanonical : ∀ operation ∈ changes family actions,
      operation.route.Canonical family) (dst : Bytes) :
    ∃ t result, (newTable family).actAll actions = .ok t ∧ t.lookup dst = .ok result ∧
      (Honours family actions dst result ↔ Undisturbed family actions dst) := by
  obtain ⟨t, result, hrun, hlookup, hlongest⟩ := exists_lookup family actions hcanonical dst
  exact ⟨t, result, hrun, hlookup, undisturbed_of_honours hlongest,
    fun undisturbed => undisturbed.honours hlongest⟩

/-- Two adapters with a route for 10.0.0.0/8, the second of which is
excluded. -/
def sharedNetwork : List Action :=
  let route : Route := ⟨⟨[10, 0, 0, 0], [255, 0, 0, 0]⟩, [], "eth0", []⟩
  [.change (.insert route), .change (.insert { route with interface := "pig0" }), .exclude ["pig0"]]

def excludedDefault : List Action :=
  [.change (.insert ⟨⟨[0, 0, 0, 0], [0, 0, 0, 0]⟩, [], "pig0", []⟩),
    .exclude ["pig0"]]

theorem exists_not_honours : (∃ t, (newTable .inet).actAll sharedNetwork = .ok t ∧ t.lookup
    [10, 1, 2, 3] = .ok none ∧ ¬ Honours .inet sharedNetwork [10, 1, 2, 3] none) ∧ ∃ t route,
    (newTable .inet).actAll excludedDefault = .ok t ∧ t.lookup [10, 1, 2, 3] = .ok (some route) ∧
      route.interface = "pig0" ∧
      ¬ Honours .inet excludedDefault [10, 1, 2, 3] (some route) := by
  constructor
  · refine ⟨_, rfl, by decide +kernel, fun honours => ?_⟩
    apply honours.none_iff.mp rfl [false, false, false, false, true, false,
      true, false] ⟨by decide, by decide⟩
    exact ⟨"eth0", by decide, by decide +kernel⟩
  · refine ⟨_, _, rfl, rfl, rfl, fun honours => ?_⟩
    exact honours.not_excluded _ rfl (by decide)

def laterNetwork : List Action :=
  let route : Route := ⟨⟨[10, 0, 0, 0], [255, 0, 0, 0]⟩, [], "eth0", []⟩
  [.exclude ["pig0"], .change (.insert { route with interface := "pig0" }),
    .change (.insert route)]

theorem undisturbed_laterNetwork : Undisturbed .inet laterNetwork [10, 1, 2, 3] where
  newest := by
    rintro front - ⟨name, -, hheld⟩ -
    have hpresent : ∀ front ∈ (changes .inet laterNetwork).map (·.route.network), ∃ route ∈ present
        (changes .inet laterNetwork) front, route.interface ∉ excluded laterNetwork := by
      decide +kernel
    obtain ⟨route, hroute⟩ := Option.ne_none_iff_exists'.mp hheld
    obtain ⟨newest, hnewest, hinterface⟩ := hpresent front (by
      by_contra habsent
      exact present_ne_none hroute (present_eq_none habsent))
    exact ⟨newest, hnewest, hinterface⟩
  no_default := fun _ _ => by decide +kernel

theorem lookup_honours_iff_laterNetwork : ∃ t result, (newTable .inet).actAll laterNetwork = .ok t ∧
      t.lookup [10, 1, 2, 3] = .ok result ∧ Honours .inet laterNetwork [10, 1, 2, 3] result := by
  obtain ⟨t, result, hrun, hlookup, hiff⟩ :=
    lookup_honours_iff .inet laterNetwork (by decide) [10, 1, 2, 3]
  exact ⟨t, result, hrun, hlookup, hiff.mpr undisturbed_laterNetwork⟩

end Pig.Routing
