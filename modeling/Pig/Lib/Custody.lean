import Mathlib.Data.List.Nodup
import Mathlib.Data.List.Range
import Pig.Lib.Run

namespace Pig.Custody

/-! Items that come with a resource each are taken from a queue and handled one
after another. Whoever handles an item uses its resource and releases it. -/

inductive Act where
  | use
  | release
  deriving DecidableEq, Repr

structure Tidy (acts : List Act) : Prop where
  once : acts.count .release ≤ 1
  unused : ∀ before after, acts = before ++ .release :: after → .use ∉ after

@[simp] theorem tidy_nil : Tidy [] where
  once := by decide
  unused := by
    rintro before after hacts
    simp at hacts

@[simp] theorem tidy_use_cons {acts : List Act} : Tidy (.use :: acts) ↔ Tidy acts := by
  constructor
  · rintro ⟨once, unused⟩
    refine ⟨by simpa using once, ?_⟩
    rintro before after rfl
    exact unused (.use :: before) after rfl
  · rintro ⟨once, unused⟩
    refine ⟨by simpa using once, ?_⟩
    rintro before after hacts
    cases before with
    | nil => simp at hacts
    | cons first before =>
      exact unused before after (List.cons.inj hacts).2

@[simp] theorem tidy_release_cons {acts : List Act} : Tidy (.release :: acts) ↔ acts = [] := by
  constructor
  · rintro ⟨once, unused⟩
    cases acts with
    | nil => rfl
    | cons first acts =>
      cases first with
      | use => exact absurd List.mem_cons_self (unused [] _ rfl)
      | release => simp at once
  · rintro rfl
    refine ⟨by decide, ?_⟩
    rintro before after hacts
    cases before with
    | nil => simp_all
    | cons first before => simp at hacts

def decideTidy : (acts : List Act) → Decidable (Tidy acts)
  | [] => .isTrue tidy_nil
  | .use :: acts =>
    @decidable_of_iff _ (Tidy acts) tidy_use_cons.symm (decideTidy acts)
  | .release :: acts => decidable_of_iff (acts = []) tidy_release_cons.symm

instance (acts : List Act) : Decidable (Tidy acts) := decideTidy acts

structure Handling (Result : Type) where
  acts : List Act
  result : Option Result

namespace Handling

variable {Value Result Error : Type}

instance : Monad Handling where
  pure value := ⟨[], some value⟩
  bind handling next :=
    match handling.result with
    | none => ⟨handling.acts, none⟩
    | some value =>
      ⟨handling.acts ++ (next value).acts, (next value).result⟩

def use (value : Except Error Value) : Handling Value := ⟨[.use], value.toOption⟩

def release : Handling Unit := ⟨[.release], some ()⟩

def stop : Handling Value := ⟨[], none⟩

def Tidy (handling : Handling Result) : Prop := Custody.Tidy handling.acts

instance (handling : Handling Result) : Decidable handling.Tidy :=
  inferInstanceAs (Decidable (Custody.Tidy handling.acts))

section

variable {value : Except Error Value} {next : Value → Handling Result}

@[simp] theorem tidy_pure (result : Result) : Tidy (pure result : Handling Result) := tidy_nil

@[simp] theorem tidy_stop : Tidy (stop : Handling Result) := tidy_nil

@[simp] theorem pure_bind (found : Value) : (pure found >>= next) = next found := rfl

variable {handling : Handling Value}

theorem bind_eq_some {result : Result} :
    (handling >>= next).result = some result ↔ ∃ found, handling.result = some found ∧
        (next found).result = some result := by
  obtain ⟨acts, found⟩ := handling
  cases found with
  | none | some found => simp [bind]

@[simp] theorem use_ok_bind (found : Value) : (use (.ok found : Except Error Value) >>= next) =
  ⟨.use :: (next found).acts, (next found).result⟩ := rfl

@[simp] theorem use_error_bind (error : Error) : (use (.error error : Except Error Value) >>= next)
  = ⟨[.use], none⟩ := rfl

@[simp] theorem release_bind (next : Unit → Handling Result) : (release >>= next) =
  ⟨.release :: (next ()).acts, (next ()).result⟩ := rfl

theorem use_bind_eq_some {result : Result} : (use value >>= next).result = some result ↔
      ∃ found, value = .ok found ∧ (next found).result = some result := by
  cases value with
  | error error | ok found => simp

theorem tidy_use_bind : (use value >>= next).Tidy ↔
      ∀ found, value = .ok found → (next found).Tidy := by
  cases value with
  | error error | ok found => simp [Tidy]

theorem tidy_release_bind {next : Unit → Handling Result} :
    (release >>= next).Tidy ↔ (next ()).acts = [] :=
  tidy_release_cons

theorem tidy_release_pure (result : Result) : (release >>= fun _ => pure result).Tidy :=
  tidy_release_bind.mpr rfl

theorem tidy_release_stop : (release >>= fun _ => (stop : Handling Result)).Tidy :=
  tidy_release_bind.mpr rfl

theorem tidy_bind (htidy : handling.Tidy) (hacts : handling.result.isSome → handling.acts = []) :
    (handling >>= next).Tidy ↔ ∀ found, handling.result = some found → (next found).Tidy := by
  obtain ⟨acts, result⟩ := handling
  cases result with
  | none => exact iff_of_true htidy (by simp)
  | some found =>
    obtain rfl : acts = [] := hacts rfl
    simp [Tidy, bind]

end

end Handling

section

variable {State Round Reply Item : Type}

inductive Next (State Item : Type) where
  | stop
  | discard (items : List Item)
  | work (state : State) (items : List Item)

structure Loop (State Round Reply Item : Type) where
  head : State → Round → Next State Item
  body : State → Reply → Item → Handling State

structure Worker (State Item : Type) where
  state : State
  pending : List (Item × Nat)
  taken : Nat
  log : List (Nat × Act)
  running : Bool

inductive Event (Round Reply : Type) where
  | round (round : Round)
  | item (reply : Reply)

namespace Worker

def start (state : State) : Worker State Item where
  state := state
  pending := []
  taken := 0
  log := []
  running := true

def proceed (w : Worker State Item) : Next State Item → Worker State Item
  | .stop => { w with running := false }
  | .discard items =>
    { w with
      taken := w.taken + items.length
      log := w.log ++ (items.zipIdx w.taken).map fun item =>
        (item.2, .release)
      running := false }
  | .work state items =>
    { w with
      state := state
      pending := items.zipIdx w.taken
      taken := w.taken + items.length }

def finish (w : Worker State Item) (number : Nat) (rest : List (Item × Nat))
    (handling : Handling State) : Worker State Item :=
  { w with
    state := handling.result.getD w.state
    pending := rest
    log := w.log ++ handling.acts.map fun act => (number, act)
    running := handling.result.isSome }

end Worker

namespace Loop

variable (loop : Loop State Round Reply Item)

def step (w : Worker State Item) : Event Round Reply → Option (Worker State Item)
  | .round round =>
    if w.running && w.pending.isEmpty then
      some (w.proceed (loop.head w.state round))
    else none
  | .item reply =>
    match w.running, w.pending with
    | true, (item, number) :: rest =>
      some (w.finish number rest (loop.body w.state reply item))
    | _, _ => none

inductive Taken (w : Worker State Item) :
    Event Round Reply → Worker State Item → Prop
  | round {round : Round} (hpending : w.pending = []) :
      Taken w (.round round) (w.proceed (loop.head w.state round))
  | item {reply : Reply} {item : Item} {number : Nat} {rest : List (Item × Nat)}
      (hpending : w.pending = (item, number) :: rest) :
      Taken w (.item reply) (w.finish number rest (loop.body w.state reply item))

variable {loop} {w after : Worker State Item} {event : Event Round Reply}

theorem taken_of_step (h : loop.step w event = some after) : loop.Taken w event after := by
  cases event with
  | round round =>
    simp only [step, Option.ite_none_right_eq_some, Bool.and_eq_true,
      List.isEmpty_iff, Option.some.injEq] at h
    obtain ⟨⟨-, hpending⟩, rfl⟩ := h
    exact .round hpending
  | item reply =>
    simp only [step] at h
    split at h
    · next hpending =>
        cases h
        exact .item hpending
    · cases h

theorem running_of_step (h : loop.step w event = some after) : w.running = true := by
  cases event with
  | round round =>
    simp only [step, Option.ite_none_right_eq_some, Bool.and_eq_true] at h
    exact h.1.1
  | item reply =>
    simp only [step] at h
    split at h
    · next hrunning _ => exact hrunning
    · cases h

end Loop

def actsOf (number : Nat) (log : List (Nat × Act)) : List Act :=
  (log.filter (·.1 = number)).map (·.2)

def Clean (log : List (Nat × Act)) : Prop := ∀ number, Tidy (actsOf number log)

theorem actsOf_append (number : Nat) (first second : List (Nat × Act)) :
    actsOf number (first ++ second) = actsOf number first ++ actsOf number second := by
  simp [actsOf]

theorem actsOf_eq_nil {number : Nat} {log : List (Nat × Act)}
    (hlog : ∀ entry ∈ log, entry.1 ≠ number) : actsOf number log = [] := by
  simpa [actsOf] using hlog

theorem actsOf_map (number other : Nat) (acts : List Act) :
    actsOf other (acts.map fun act => (number, act)) =
      if number = other then acts else [] := by
  split
  · next heq => simp [actsOf, List.filter_map, Function.comp_def, heq]
  · next hne => exact actsOf_eq_nil (by simpa using fun _ _ => hne)

theorem clean_append {first second : List (Nat × Act)}
    (hapart : ∀ entry ∈ first, ∀ other ∈ second, entry.1 ≠ other.1) :
    Clean (first ++ second) ↔ Clean first ∧ Clean second := by
  simp only [Clean, actsOf_append, ← forall_and]
  refine forall_congr' fun number => ?_
  by_cases hfirst : ∃ entry ∈ first, entry.1 = number
  · obtain ⟨entry, hentry, rfl⟩ := hfirst
    have hsecond : actsOf entry.1 second = [] :=
      actsOf_eq_nil fun other hother => (hapart entry hentry other hother).symm
    simp [hsecond]
  · have hfirst : actsOf number first = [] :=
      actsOf_eq_nil fun entry hentry heq => hfirst ⟨entry, hentry, heq⟩
    simp [hfirst]

theorem clean_map {number : Nat} {acts : List Act} :
    Clean (acts.map fun act => (number, act)) ↔ Tidy acts := by
  simp only [Clean, actsOf_map]
  constructor
  · intro hclean
    simpa using hclean number
  · intro htidy other
    split
    · exact htidy
    · exact tidy_nil

theorem clean_releases {numbers : List Nat} (hnodup : numbers.Nodup) :
    Clean (numbers.map fun number => (number, .release)) := by
  induction numbers with
  | nil => exact fun _ => tidy_nil
  | cons first rest ih =>
    obtain ⟨hfirst, hrest⟩ := List.nodup_cons.mp hnodup
    have hone : Clean ([Act.release].map fun act => (first, act)) := clean_map.mpr (by decide)
    refine (clean_append ?_).mpr ⟨hone, ih hrest⟩
    rintro entry hentry other hother heq
    obtain ⟨number, hnumber, rfl⟩ := List.mem_map.mp hother
    obtain rfl := List.mem_singleton.mp hentry
    have heq : first = number := heq
    exact hfirst (heq ▸ hnumber)

namespace Worker

def numbers (w : Worker State Item) : List Nat := w.pending.map (·.2)

/-- The items to be handled have numbers of their own, which are not in the
log. -/
structure Sound (w : Worker State Item) : Prop where
  distinct : w.numbers.Nodup
  numbered : ∀ number ∈ w.numbers, number < w.taken
  logged : ∀ entry ∈ w.log, entry.1 < w.taken ∧ entry.1 ∉ w.numbers

theorem sound_start (state : State) : (start state : Worker State Item).Sound where
  distinct := List.nodup_nil
  numbered := by
    rintro number hnumber
    cases hnumber
  logged := by
    rintro entry hentry
    cases hentry

variable {w : Worker State Item}

theorem Sound.proceed (sound : w.Sound) (hpending : w.pending = [])
    (next : Next State Item) : (w.proceed next).Sound := by
  have hnumbers : w.numbers = [] := by rw [numbers, hpending, List.map_nil]
  cases next with
  | stop => exact ⟨sound.distinct, sound.numbered, sound.logged⟩
  | discard items =>
    refine ⟨sound.distinct, ?_, ?_⟩
    · rintro number hnumber
      exact Nat.lt_add_right _ (sound.numbered number hnumber)
    · rintro entry hentry
      refine ⟨?_, ?_⟩
      · rcases List.mem_append.mp hentry with hentry | hentry
        · exact Nat.lt_add_right _ (sound.logged entry hentry).1
        · obtain ⟨item, hitem, rfl⟩ := List.mem_map.mp hentry
          exact (List.snd_lt_add_of_mem_zipIdx hitem)
      · change entry.1 ∉ w.numbers
        rw [hnumbers]
        exact List.not_mem_nil
  | work state items =>
    have hfresh : (items.zipIdx w.taken).map (·.2) = List.range' w.taken items.length :=
      List.zipIdx_map_snd ..
    refine ⟨?_, ?_, ?_⟩
    · change ((items.zipIdx w.taken).map (·.2)).Nodup
      exact hfresh ▸ List.nodup_range'
    · rintro number hnumber
      have hnumber : number ∈ (items.zipIdx w.taken).map (·.2) := hnumber
      rw [hfresh, List.mem_range'_1] at hnumber
      exact hnumber.2
    · rintro entry hentry
      have hlt := (sound.logged entry hentry).1
      refine ⟨Nat.lt_add_right _ hlt, ?_⟩
      change entry.1 ∉ (items.zipIdx w.taken).map (·.2)
      rw [hfresh, List.mem_range'_1]
      omega

theorem Sound.finish (sound : w.Sound) {item : Item} {number : Nat}
    {rest : List (Item × Nat)} (hpending : w.pending = (item, number) :: rest)
    (handling : Handling State) : (w.finish number rest handling).Sound := by
  have hnumbers : w.numbers = number :: rest.map (·.2) := by
    rw [numbers, hpending, List.map_cons]
  obtain ⟨hnotMem, hdistinct⟩ := List.nodup_cons.mp (hnumbers ▸ sound.distinct)
  have hmem {other : Nat} (hother : other ∈ rest.map (·.2)) : other ∈ w.numbers := by
    rw [hnumbers]
    exact List.mem_cons_of_mem _ hother
  refine ⟨hdistinct, fun other hother => sound.numbered other (hmem hother), ?_⟩
  rintro entry hentry
  rcases List.mem_append.mp hentry with hentry | hentry
  · obtain ⟨hlt, hfresh⟩ := sound.logged entry hentry
    exact ⟨hlt, fun hrest => hfresh (hmem hrest)⟩
  · obtain ⟨act, -, rfl⟩ := List.mem_map.mp hentry
    exact ⟨sound.numbered number (by simp [hnumbers]), hnotMem⟩

theorem Sound.clean_proceed (sound : w.Sound) (next : Next State Item) :
    Clean (w.proceed next).log ↔ Clean w.log := by
  cases next with
  | stop | work state items => rfl
  | discard items =>
    have hlog : (w.proceed (.discard items)).log =
        w.log ++ (List.range' w.taken items.length).map fun number =>
          (number, .release) := by
      rw [← List.zipIdx_map_snd, List.map_map]
      rfl
    rw [hlog, clean_append]
    · exact and_iff_left (clean_releases List.nodup_range')
    · rintro entry hentry other hother
      obtain ⟨number, hnumber, rfl⟩ := List.mem_map.mp hother
      have hlt := (sound.logged entry hentry).1
      rw [List.mem_range'_1] at hnumber
      exact Nat.ne_of_lt (Nat.lt_of_lt_of_le hlt hnumber.1)

end Worker

namespace Loop

variable {loop : Loop State Round Reply Item} {w after : Worker State Item}
  {event : Event Round Reply}

theorem sound_of_taken (sound : w.Sound) (taken : loop.Taken w event after) : after.Sound := by
  cases taken with
  | round hpending => exact sound.proceed hpending _
  | item hpending => exact sound.finish hpending _

def Tidies (loop : Loop State Round Reply Item) (w : Worker State Item) : Event Round Reply → Prop
  | .round _ => True
  | .item reply =>
    ∀ next ∈ w.pending.head?, (loop.body w.state reply next.1).Tidy

theorem clean_of_taken (sound : w.Sound) (taken : loop.Taken w event after) :
    Clean after.log ↔ Clean w.log ∧ loop.Tidies w event := by
  cases taken with
  | round hpending =>
    rw [Tidies, and_true]
    exact sound.clean_proceed _
  | @item reply item number rest hpending =>
    have hnumber : number ∈ w.numbers := by
      simp [Worker.numbers, hpending]
    have hapart : ∀ entry ∈ w.log, ∀ other ∈ (loop.body w.state reply item).acts.map fun act =>
        (number, act), entry.1 ≠ other.1 := by
      rintro entry hentry other hother heq
      obtain ⟨act, -, rfl⟩ := List.mem_map.mp hother
      exact (sound.logged entry hentry).2 (heq ▸ hnumber)
    change Clean (w.log ++ _) ↔ _
    rw [clean_append hapart, clean_map]
    simp [Tidies, hpending, Handling.Tidy]

variable {state : State} {events : List (Event Round Reply)} {last : Worker State Item}

section

variable (run : Run loop.step (fun _ _ => True) (.start state) events last)

include run

theorem sound_of_run :
    last.Sound :=
  run.invariant Worker.Sound (Worker.sound_start state)
    fun _ _ _ sound _ taken => sound_of_taken sound (taken_of_step taken)

theorem clean_iff_tidies :
    Clean last.log ↔ Run loop.step loop.Tidies (.start state) events last := by
  induction run with
  | start => exact iff_of_true (fun _ => tidy_nil) (.start _)
  | next before _ htaken ih =>
    refine (clean_of_taken (sound_of_run before) (taken_of_step htaken)).trans
      ((and_congr_left' ih).trans ?_)
    constructor
    · rintro ⟨htidies, htidy⟩
      exact .next htidies htidy htaken
    · intro htidies
      obtain ⟨middle, hbefore, hlatest⟩ := htidies.split
      obtain rfl := before.unique hbefore
      exact ⟨hbefore, hlatest.of_singleton.1⟩

theorem clean_of_tidy (hbody : ∀ state reply item, (loop.body state reply item).Tidy) :
    Clean last.log := by
  refine (clean_iff_tidies run).mpr (run.weaken ?_)
  rintro w event -
  cases event with
  | round round => trivial
  | item reply => exact fun next _ => hbody _ _ _

end

end Loop

end

end Pig.Custody
