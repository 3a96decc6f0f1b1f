import Pig.Lib.Circular
import Pig.Lib.Dialogue
import Pig.Queue.Fifo

namespace Pig.Queue

inductive PushError where
  | dropped
  | wredDropped
  | closed
  deriving DecidableEq, Repr

/-- A push comes with the random number that decides whether it is dropped. -/
inductive Call (Item : Type) where
  | push (item : Item) (sample : ℚ)
  | pop
  | popAll
  | tryPop
  | tryPopAll
  | close

inductive Reply (Item : Type) where
  | pushed (error : Option PushError)
  | one (item : Item)
  | many (items : List Item)
  | tried (item : Item) (empty closed : Bool)
  | triedAll (items : List Item) (empty closed : Bool)
  | closed
  deriving DecidableEq, Repr

namespace FIFO

variable {Item : Type}

def store (f : FIFO Item) (cursor : Int) (item : Item) : Option (List Item) :=
  if 0 ≤ cursor ∧ cursor < f.queue.length then some (f.queue.set cursor.toNat item) else none

def push (f : FIFO Item) (item : Item) (sample : ℚ) : Option (Option PushError × FIFO Item) :=
  if f.closed then some (some .closed, f)
  else if f.elems = f.length then some (some .dropped, f)
  else
    let wred := f.wred.map (·.update f.elems)
    if wred.any (·.isDrop sample) then some (some .wredDropped, { f with wred := wred })
    else do
      let queue ← f.store f.wCursor item
      return (none, { f with
        queue := queue
        wCursor := (f.wCursor + 1) % f.length
        elems := f.elems + 1
        wred := wred })

variable (zero : Item)

def take (f : FIFO Item) : Option (Item × FIFO Item) := do
  let queue ← f.store f.rCursor zero
  let item ← f.queue[f.rCursor.toNat]?
  return (item, { f with
    queue := queue
    rCursor := (f.rCursor + 1) % f.length })

def takeMany : Nat → FIFO Item → Option (List Item × FIFO Item)
  | 0, f => some ([], f)
  | count + 1, f => do
      let (item, f) ← f.take zero
      let (items, f) ← takeMany count f
      return (item :: items, f)

def pop (f : FIFO Item) : Option (Item × FIFO Item) :=
  if f.elems = 0 then if f.closed then some (zero, f) else none
  else do
    let (item, f) ← f.take zero
    return (item, { f with elems := f.elems - 1 })

def popAll (f : FIFO Item) : Option (List Item × FIFO Item) :=
  if f.elems = 0 then if f.closed then some ([], f) else none
  else do
    let (items, f) ← takeMany zero f.elems.toNat f
    return (items, { f with elems := 0 })

def call (f : FIFO Item) : Call Item → Option (Reply Item × FIFO Item)
  | .push item sample => do
      let (error, f) ← f.push item sample
      return (.pushed error, f)
  | .pop => do
      let (item, f) ← f.pop zero
      return (.one item, f)
  | .popAll => do
      let (items, f) ← f.popAll zero
      return (.many items, f)
  | .tryPop =>
    if f.elems = 0 then some (.tried zero true f.closed, f)
    else do
      let (item, after) ← f.pop zero
      return (.tried item (after.elems = 0) f.closed, after)
  | .tryPopAll =>
    if f.elems = 0 then some (.triedAll [] true f.closed, f)
    else do
      let (items, after) ← f.popAll zero
      return (.triedAll items (items.length = 0) f.closed, after)
  | .close => some (.closed, { f with closed := true })

end FIFO

structure BoundedQueue (Item : Type) where
  capacity : Nat
  items : List Item
  closed : Bool

namespace BoundedQueue

variable {Item : Type} (zero : Item)

def call (q : BoundedQueue Item) : Call Item → Option (Reply Item × BoundedQueue Item)
  | .push item _ =>
    if q.closed then some (.pushed (some .closed), q)
    else if q.items.length < q.capacity then
      some (.pushed none, { q with items := q.items ++ [item] })
    else some (.pushed (some .dropped), q)
  | .pop =>
    match q.items with
    | [] => if q.closed then some (.one zero, q) else none
    | item :: rest => some (.one item, { q with items := rest })
  | .popAll =>
    if q.items = [] ∧ q.closed = false then none
    else some (.many q.items, { q with items := [] })
  | .tryPop =>
    match q.items with
    | [] => some (.tried zero true q.closed, q)
    | item :: rest => some (.tried item rest.isEmpty q.closed, { q with items := rest })
  | .tryPopAll =>
    some (.triedAll q.items q.items.isEmpty q.closed, { q with items := [] })
  | .close => some (.closed, { q with closed := true })

end BoundedQueue

namespace FIFO

variable {Item : Type} {zero : Item} {f : FIFO Item} {items : List Item}

structure Stores (zero : Item) (f : FIFO Item) (items : List Item) : Prop where
  length_eq : f.length = f.queue.length
  cursors : ∃ r < f.queue.length, f.rCursor = (r : Nat) ∧
    f.wCursor = ((r + items.length) % f.queue.length : Nat) ∧
    f.queue.rotate r = items ++ List.replicate (f.queue.length - items.length) zero

structure Represents (zero : Item) (f : FIFO Item) (q : BoundedQueue Item) : Prop where
  stores : f.Stores zero q.items
  elems_eq : f.elems = q.items.length
  capacity_eq : q.capacity = f.queue.length
  closed_eq : f.closed = q.closed
  plain : f.wred = none

theorem store_of_lt {position : Nat} (hlt : position < f.queue.length) (item : Item) :
    f.store position item = some (f.queue.set position item) :=
  if_pos ⟨Int.natCast_nonneg _, Int.ofNat_lt.mpr hlt⟩

theorem cursor_succ (cursor size : Nat) :
    (((cursor % size : Nat) : Int) + 1) % size = ((cursor + 1) % size : Nat) := by
  rw [← Nat.mod_add_mod cursor size 1]
  rfl

theorem Stores.length_le (stores : f.Stores zero items) : items.length ≤ f.queue.length := by
  obtain ⟨r, -, -, -, hcells⟩ := stores.cursors
  have hlength := congrArg List.length hcells
  simp only [List.length_rotate, List.length_append, List.length_replicate] at hlength
  omega

theorem Stores.append (stores : f.Stores zero items) (hroom : items.length < f.queue.length)
    (item : Item) : ∃ queue, f.store f.wCursor item = some queue ∧ queue.length = f.queue.length ∧
      Stores zero { f with
        queue := queue
        wCursor := (f.wCursor + 1) % f.length } (items ++ [item]) := by
  obtain ⟨r, hr, hread, hwrite, hcells⟩ := stores.cursors
  have hstored : f.store f.wCursor item =
      some (f.queue.set ((r + items.length) % f.queue.length) item) := by
    rw [hwrite]
    exact store_of_lt (Nat.mod_lt _ (by omega)) item
  refine ⟨_, hstored, List.length_set, ⟨by simpa using stores.length_eq, r, by simpa using hr,
    hread, ?_, ?_⟩⟩
  · rw [hwrite, stores.length_eq, cursor_succ, List.length_set, List.length_append]
    rfl
  · obtain ⟨spare, hspare⟩ : ∃ spare, f.queue.length - items.length = spare + 1 :=
      ⟨_, (Nat.succ_pred_eq_of_pos (by omega)).symm⟩
    have hrest : f.queue.length - (items.length + 1) = spare := by omega
    rw [List.length_set, List.length_append, List.length_singleton, hrest, Circular.rotate_set
      hroom, hcells, hspare, List.replicate_succ, List.set_append_right _ _ (Nat.le_refl _),
      Nat.sub_self, List.set_cons_zero, List.append_assoc, List.singleton_append]

theorem Stores.take {item : Item} (stores : f.Stores zero (item :: items)) :
    ∃ queue rCursor, f.take zero = some (item, { f with queue := queue, rCursor := rCursor }) ∧
      queue.length = f.queue.length ∧ Stores zero { f with queue := queue, rCursor := rCursor }
      items := by
  obtain ⟨r, hr, hread, hwrite, hcells⟩ := stores.cursors
  have hpos : 0 < f.queue.length := by omega
  have hle := stores.length_le
  rw [List.length_cons] at hle
  have hitem : f.queue[r]? = some item := by
    have hhead := congrArg (·[0]?) hcells
    simpa [List.getElem?_rotate hpos, Nat.mod_eq_of_lt hr] using hhead
  have hcleared : (f.queue.set r zero).rotate r =
      zero :: (items ++ List.replicate (f.queue.length - (items.length + 1)) zero) := by
    have hset := @Circular.rotate_set _ f.queue r 0 zero hpos
    rwa [Nat.add_zero, Nat.mod_eq_of_lt hr, hcells, List.cons_append, List.set_cons_zero] at hset
  refine ⟨f.queue.set r zero, ((r + 1) % f.queue.length : Nat), ?_, List.length_set,
    ⟨by simpa using stores.length_eq, (r + 1) % f.queue.length, ?_, rfl, ?_, ?_⟩⟩
  · have hnext : (f.rCursor + 1) % f.length = ((r + 1) % f.queue.length : Nat) := by
      rw [hread, stores.length_eq]
      rfl
    rw [FIFO.take, hnext, hread, store_of_lt hr]
    simp [hitem]
  · simpa using Nat.mod_lt _ hpos
  · rw [hwrite, List.length_set, List.length_cons, Nat.mod_add_mod]
    congr 2
    omega
  · have hlength : (f.queue.set r zero).length = f.queue.length := List.length_set
    rw [← hlength, List.rotate_mod, ← List.rotate_rotate, hcleared, List.rotate_cons_succ,
      List.rotate_zero, List.append_assoc, hlength, ← List.replicate_succ']
    congr 2
    omega

theorem Stores.takeMany (stores : f.Stores zero items) :
    ∃ queue rCursor, f.takeMany zero items.length = some (items, { f with queue := queue, rCursor :=
      rCursor }) ∧ queue.length = f.queue.length ∧ Stores zero { f with queue := queue, rCursor :=
      rCursor } [] := by
  induction items generalizing f with
  | nil => exact ⟨f.queue, f.rCursor, rfl, rfl, stores⟩
  | cons item items ih =>
    obtain ⟨queue, rCursor, htake, hlength, after⟩ := stores.take
    obtain ⟨last, cursor, hmany, hlast, final⟩ := ih after
    refine ⟨last, cursor, ?_, hlast.trans hlength, final⟩
    rw [List.length_cons, FIFO.takeMany, htake]
    simp [hmany]

variable {q : BoundedQueue Item}

variable (represents : f.Represents zero q)

include represents

theorem Represents.elems_eq_zero :
    f.elems = 0 ↔ q.items = [] := by
  rw [represents.elems_eq, Int.natCast_eq_zero, List.length_eq_zero_iff]

theorem Represents.pop {item : Item} {rest : List Item} (hitems : q.items = item :: rest) : ∃ after,
    f.pop zero = some (item, after) ∧ after.Represents zero { q with items := rest } := by
  have hstores := represents.stores
  rw [hitems] at hstores
  obtain ⟨queue, rCursor, htake, hlength, after⟩ := hstores.take
  have helems := represents.elems_eq
  rw [hitems, List.length_cons] at helems
  refine ⟨{ f with queue := queue, rCursor := rCursor, elems := f.elems - 1 }, ?_,
    ⟨after.1, after.2⟩, ?_, represents.capacity_eq.trans hlength.symm, represents.closed_eq,
    represents.plain⟩
  · rw [FIFO.pop, if_neg (by omega), htake]
    rfl
  · simp [helems]

theorem Represents.popAll (hitems : q.items ≠ []) :
    ∃ after, f.popAll zero = some (q.items, after) ∧
      after.Represents zero { q with items := [] } := by
  obtain ⟨queue, rCursor, htake, hlength, after⟩ := represents.stores.takeMany
  have hcount : f.elems.toNat = q.items.length := by
    rw [represents.elems_eq, Int.toNat_natCast]
  refine ⟨{ f with queue := queue, rCursor := rCursor, elems := 0 }, ?_, ⟨after.1, after.2⟩, rfl,
    represents.capacity_eq.trans hlength.symm, represents.closed_eq, represents.plain⟩
  rw [FIFO.popAll, if_neg (represents.elems_eq_zero.not.mpr hitems), hcount, htake]
  rfl

theorem Represents.push (item : Item) (sample : ℚ) :
    SameAnswer (Represents zero) (f.call zero (.push item sample))
      (q.call zero (.push item sample)) := by
  have hle := represents.stores.length_le
  rw [FIFO.call, BoundedQueue.call, FIFO.push, represents.closed_eq, represents.plain]
  cases hclosed : q.closed with
  | true => exact .some ⟨rfl, represents⟩
  | false =>
    have hfull : f.elems = f.length ↔ ¬ q.items.length < q.capacity := by
      rw [represents.elems_eq, represents.stores.length_eq, represents.capacity_eq]
      omega
    by_cases hroom : q.items.length < q.capacity
    · obtain ⟨queue, hstore, hlength, after⟩ :=
        represents.stores.append (represents.capacity_eq ▸ hroom) item
      simp only [if_neg (hfull.not.mpr (not_not.mpr hroom)), if_pos hroom, hstore]
      refine .some ⟨rfl, ⟨after.1, after.2⟩, ?_, represents.capacity_eq.trans hlength.symm,
        rfl, rfl⟩
      simp [represents.elems_eq]
    · simp only [if_pos (hfull.mpr hroom), if_neg hroom]
      exact .some ⟨rfl, represents⟩

theorem Represents.call (next : Call Item) :
    SameAnswer (Represents zero) (f.call zero next) (q.call zero next) := by
  have hempty := represents.elems_eq_zero
  have hclosed := represents.closed_eq
  cases next with
  | push item sample => exact represents.push item sample
  | close =>
    exact .some ⟨rfl, ⟨represents.stores.1, represents.stores.2⟩, represents.elems_eq,
      represents.capacity_eq, rfl, represents.plain⟩
  | pop | popAll | tryPop | tryPopAll =>
    rw [FIFO.call, BoundedQueue.call]
    obtain ⟨capacity, _ | ⟨item, rest⟩, closed⟩ := q
    · simp only [FIFO.pop, FIFO.popAll, hempty.mpr rfl, if_pos, hclosed]
      cases closed
      all_goals first | exact .none | exact .some ⟨rfl, represents⟩
    · obtain ⟨one, hpop, hone⟩ := represents.pop rfl
      obtain ⟨none, hpopAll, hnone⟩ := represents.popAll (List.cons_ne_nil item rest)
      have hlast : decide (one.elems = 0) = rest.isEmpty := by
        rw [Bool.eq_iff_iff, decide_eq_true_iff, List.isEmpty_iff]
        exact hone.elems_eq_zero
      simp only [hpop, hpopAll, if_neg (hempty.not.mpr (List.cons_ne_nil item rest)), hclosed]
      first
      | exact .some ⟨rfl, hone⟩
      | exact .some ⟨rfl, hnone⟩
      | exact .some ⟨by rw [hlast], hone⟩

end FIFO

/-- A queue of any capacity answers all calls like a bounded queue. It counts
its items, and the slots of those that are gone are cleared. -/
theorem answers_bounded {Item : Type} {runtime : Runtime} {zero : Item} {length : Int}
    (hlength : 1 ≤ length) {f : FIFO Item} (hnew : newFIFO runtime zero length = .ok f)
    (calls : List (Call Item)) :
    SameAnswer (FIFO.Represents zero) (answers (FIFO.call zero) f calls)
      (answers (BoundedQueue.call zero) ⟨length.toNat, [], false⟩ calls) := by
  refine answers_related _ (fun next _ _ _ represents => represents.call next) ?_
  obtain ⟨queue, hqueue, ⟨⟩⟩ := Go.bind_eq_ok.1 hnew
  rw [makeSlice] at hqueue
  split at hqueue
  · cases hqueue
    refine ⟨⟨?_, 0, ?_, rfl, ?_, ?_⟩, rfl, ?_, rfl, rfl⟩
    all_goals simp
    all_goals omega
  · cases hqueue

theorem answers_bounded_wraps : ∃ f, newFIFO linuxRuntime 0 2 = .ok f ∧ SameAnswer
  (FIFO.Represents 0) (answers (FIFO.call 0) f [.push 5 0, .push 6 0, .push 7 0, .pop, .push 8 0,
  .close, .tryPopAll]) (some ([.pushed none, .pushed none, .pushed (some .dropped), .one 5, .pushed
  none, .closed, .triedAll [6, 8] false true], ⟨2, [], true⟩)) := ⟨_, rfl, @answers_bounded Nat
  linuxRuntime 0 2 (by decide) _ rfl _⟩

end Pig.Queue
