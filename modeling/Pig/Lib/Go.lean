import Mathlib.Data.List.Forall2
import Pig.Lib.Bytes

namespace Pig.Go

/-! Slices of bytes with a length and a capacity, and the run-time checks made
when they are indexed, written, copied into and sliced. -/

inductive Fault where
  | index
  | sliceBounds
  | nilInterface
  deriving DecidableEq, Repr

abbrev Checked := Except Fault

section

variable {Error Value Result : Type}

variable {result : Result}

theorem bind_eq_ok {value : Except Error Value} {next : Value → Except Error Result} :
    (value >>= next) = .ok result ↔ ∃ found, value = .ok found ∧ next found = .ok result := by
  cases value with
  | error fault | ok found => simp [bind, Except.bind]

theorem map_eq_ok {value : Except Error Value} {read : Value → Result} :
    read <$> value = .ok result ↔ ∃ found, value = .ok found ∧ read found = result := by
  cases value with
  | error fault | ok found => simp [Functor.map, Except.map]

theorem mapM_eq_ok {next : Value → Except Error Result} {list : List Value}
    {results : List Result} :
    list.mapM next = .ok results ↔ List.Forall₂ (fun value result => next value = .ok result) list
        results := by
  induction list generalizing results with
  | nil =>
    rw [List.mapM_nil, List.forall₂_nil_left_iff]
    exact ⟨fun h => (Except.ok.inj h).symm, fun h => congrArg _ h.symm⟩
  | cons value rest ih =>
    rw [List.mapM_cons, List.forall₂_cons_left_iff, bind_eq_ok]
    constructor
    · rintro ⟨result, hresult, hrest⟩
      rw [bind_eq_ok] at hrest
      obtain ⟨others, hothers, heq⟩ := hrest
      exact ⟨result, others, hresult, ih.1 hothers, (Except.ok.inj heq).symm⟩
    · rintro ⟨result, others, hresult, hothers, rfl⟩
      refine ⟨result, hresult, ?_⟩
      rw [bind_eq_ok]
      exact ⟨others, ih.2 hothers, rfl⟩

theorem forall_mem_iff_of_forall₂ {Before After : Type} {related : Before → After → Prop}
    {p : Before → Prop} {q : After → Prop} {list : List Before} {results : List After}
    (hrelated : List.Forall₂ related list results)
    (hiff : ∀ x ∈ list, ∀ y, related x y → (q y ↔ p x)) :
    (∀ y ∈ results, q y) ↔ ∀ x ∈ list, p x := by
  induction hrelated with
  | nil => simp
  | cons hfirst _ ih =>
    rw [List.forall_mem_cons, List.forall_mem_cons, hiff _ List.mem_cons_self _ hfirst,
      ih fun x hx => hiff x (List.mem_cons_of_mem _ hx)]

theorem mapError_ok_iff {Other : Type} {value : Except Error Value}
    {wrap : Error → Other} {result : Value} :
    value.mapError wrap = .ok result ↔ value = .ok result := by
  cases value with
  | error error => exact iff_of_false nofun nofun
  | ok found => simp [Except.mapError]

def Succeeds (value : Checked Value) : Prop := ∃ result, value = .ok result

@[simp] theorem succeeds_ok (value : Value) : Succeeds (.ok value : Checked Value) := ⟨value, rfl⟩

@[simp] theorem succeeds_pure (value : Value) : Succeeds (pure value : Checked Value) :=
  ⟨value, rfl⟩

theorem succeeds_guard {c : Prop} [Decidable c] {value : Value} {next : Checked Value}
    (hnext : ¬ c → Succeeds next) : Succeeds (if c then pure value else next) := by
  split
  · exact succeeds_pure value
  · next h => exact hnext h

@[simp] theorem not_succeeds_error (fault : Fault) : ¬ Succeeds (.error fault : Checked Value) := by
  rintro ⟨result, hresult⟩
  cases hresult

variable {next : Value → Checked Result}

theorem succeeds_bind {value : Checked Value} :
    Succeeds (value >>= next) ↔ ∃ found, value = .ok found ∧ Succeeds (next found) := by
  simp only [Succeeds, bind_eq_ok]
  constructor
  · rintro ⟨result, found, hfound, hresult⟩
    exact ⟨found, hfound, result, hresult⟩
  · rintro ⟨found, hfound, result, hresult⟩
    exact ⟨result, found, hfound, hresult⟩

theorem succeeds_bind_of_iff {value : Checked Value} {c : Prop}
    (hnext : ∀ found, Succeeds (next found) ↔ c) :
    Succeeds (value >>= next) ↔ Succeeds value ∧ c := by
  simp only [succeeds_bind, hnext, exists_and_right]
  rfl

theorem succeeds_bind_pure {value : Checked Value} {read : Value → Result} :
    Succeeds (value >>= fun found => pure (read found)) ↔ Succeeds value := by
  rw [succeeds_bind_of_iff fun found => iff_of_true (succeeds_pure _) trivial, and_true]

@[simp] theorem ok_bind (value : Value) (next : Value → Except Error Result) :
  ((.ok value : Except Error Value) >>= next) = next value := rfl

@[simp] theorem error_bind (error : Error) (next : Value → Except Error Result) :
  ((.error error : Except Error Value) >>= next) = .error error := rfl

variable {passes : Prop} [Decidable passes] {value : Value} {fault : Fault}

theorem check_eq_ok {result : Value} :
    (if passes then .ok value else .error fault : Checked Value) = .ok result ↔
      passes ∧ value = result := by
  by_cases h : passes <;> simp [h]

theorem succeeds_check : Succeeds (if passes then .ok value else .error fault : Checked Value) ↔
      passes := by
  by_cases h : passes <;> simp [h]

theorem check_bind_eq_ok :
    ((if passes then .ok value else .error fault : Checked Value) >>= next) = .ok result ↔
      passes ∧ next value = .ok result := by
  by_cases h : passes <;> simp [h]

theorem succeeds_check_bind :
    Succeeds ((if passes then .ok value else .error fault : Checked Value) >>=
        next) ↔
      passes ∧ Succeeds (next value) := by
  by_cases h : passes <;> simp [h]

def deref : Option Value → Checked Value
  | none => .error .nilInterface
  | some value => .ok value

@[simp] theorem deref_some (value : Value) : deref (some value) = .ok value := rfl

@[simp] theorem deref_none : deref (none : Option Value) = .error .nilInterface := rfl

end

structure Slice where
  array : Bytes
  len : Nat
  len_le : len ≤ array.length
  deriving DecidableEq, Repr

namespace Slice

variable {Result : Type} (slice : Slice)

def cap : Nat := slice.array.length

def ofBytes (bytes : Bytes) : Slice := ⟨bytes, bytes.length, Nat.le_refl _⟩

def byte (index : Nat) : UInt8 := slice.array.getD index 0

def contents : Bytes := slice.array.take slice.len

/-- The contents `slice[low:high]`, which may reach up to the capacity. -/
def sub (low high : Nat) : Checked Bytes :=
  if low ≤ high ∧ high ≤ slice.cap then
    .ok (slice.array.window low (high - low))
  else .error .sliceBounds

def dropFront (low : Nat) : Checked Slice :=
  if h : low ≤ slice.len then
    .ok ⟨slice.array.drop low, slice.len - low, by
      have hlen := slice.len_le
      rw [List.length_drop]
      omega⟩
  else .error .sliceBounds

def advance (count : Nat) : Slice := ⟨slice.array.drop count, slice.len - count, by
    have hlen := slice.len_le
    rw [List.length_drop]
    omega⟩

/-- The slice `slice[low:high]`, which keeps the capacity. -/
def between (low high : Nat) : Checked Slice :=
  if h : low ≤ high ∧ high ≤ slice.cap then
    .ok ⟨slice.array.drop low, high - low, by
      have hhigh : high ≤ slice.array.length := h.2
      rw [List.length_drop]
      omega⟩
  else .error .sliceBounds

def get (index : Nat) : Checked UInt8 :=
  if index < slice.len then .ok (slice.byte index) else .error .index

def put (index : Nat) (value : UInt8) : Slice := ⟨slice.array.set index value, slice.len, by
    rw [List.length_set]
    exact slice.len_le⟩

def set (index : Nat) (value : UInt8) : Checked Slice :=
  if index < slice.len then .ok (slice.put index value) else .error .index

def overwrite (array : Bytes) (start : Nat) (source : Bytes) : Bytes :=
  array.mapIdx fun index old =>
    if start ≤ index ∧ index < start + source.length then
      source.getD (index - start) 0
    else old

def write (start : Nat) (source : Bytes) : Slice :=
  ⟨overwrite slice.array start source, slice.len, by
    rw [overwrite, List.length_mapIdx]
    exact slice.len_le⟩

def copyTo (low high : Nat) (source : Bytes) : Checked Slice :=
  if low ≤ high ∧ high ≤ slice.cap then
    .ok (slice.write low (source.take (high - low)))
  else .error .sliceBounds

variable {index : Nat} {next : UInt8 → Checked Result}

theorem get_bind_eq_ok {result : Result} :
    (slice.get index >>= next) = .ok result ↔
      index < slice.len ∧ next (slice.byte index) = .ok result :=
  check_bind_eq_ok

theorem succeeds_get_bind :
    Succeeds (slice.get index >>= next) ↔ index < slice.len ∧ Succeeds (next (slice.byte index)) :=
  succeeds_check_bind

variable {value : UInt8}

theorem set_eq_ok_iff {after : Slice} :
    slice.set index value = .ok after ↔ index < slice.len ∧ slice.put index value = after :=
  check_eq_ok

theorem succeeds_set :
    Succeeds (slice.set index value) ↔ index < slice.len :=
  succeeds_check

theorem set_bind_eq_ok {next : Slice → Checked Result} {result : Result} :
    (slice.set index value >>= next) = .ok result ↔
      index < slice.len ∧ next (slice.put index value) = .ok result :=
  check_bind_eq_ok

theorem succeeds_set_bind {next : Slice → Checked Result} :
    Succeeds (slice.set index value >>= next) ↔
      index < slice.len ∧ Succeeds (next (slice.put index value)) :=
  succeeds_check_bind

variable {low : Nat} {source : Bytes}

variable {high : Nat}

theorem copyTo_eq_ok_iff {after : Slice} :
    slice.copyTo low high source = .ok after ↔ (low ≤ high ∧ high ≤ slice.cap) ∧
        slice.write low (source.take (high - low)) = after :=
  check_eq_ok

theorem sub_eq_ok_iff {found : Bytes} : slice.sub low high = .ok found ↔
  (low ≤ high ∧ high ≤ slice.cap) ∧ slice.array.window low (high - low) = found := check_eq_ok

@[simp] theorem len_ofBytes (bytes : Bytes) : (ofBytes bytes).len = bytes.length := rfl

@[simp] theorem cap_ofBytes (bytes : Bytes) : (ofBytes bytes).cap = bytes.length := rfl

@[simp] theorem byte_ofBytes (bytes : Bytes) (index : Nat) : (ofBytes bytes).byte index = bytes.getD
  index 0 := rfl

variable {bytes : Bytes}

theorem get_ofBytes (hindex : index < bytes.length) :
    (ofBytes bytes).get index = .ok (bytes.getD index 0) :=
  if_pos hindex

theorem sub_ofBytes (hle : low ≤ high) (hhigh : high ≤ bytes.length) :
    (ofBytes bytes).sub low high = .ok (bytes.window low (high - low)) :=
  if_pos ⟨hle, hhigh⟩

@[simp] theorem length_contents : slice.contents.length = slice.len :=
  List.length_take_of_le slice.len_le

@[simp] theorem contents_ofBytes (bytes : Bytes) : (ofBytes bytes).contents = bytes :=
  List.take_length

theorem contents_advance (count : Nat) :
    (slice.advance count).contents = slice.contents.drop count := by
  simp only [contents, advance, List.drop_take]

@[simp] theorem advance_zero : slice.advance 0 = slice := rfl

theorem advance_advance (first second : Nat) :
    (slice.advance first).advance second = slice.advance (first + second) := by
  simp only [advance, List.drop_drop, Nat.sub_sub]

theorem window_contents {start count : Nat} (hinside : start + count ≤ slice.len) :
    slice.array.window start count = slice.contents.window start count :=
  (Bytes.window_take slice.array hinside).symm

theorem sub_of_le (hle : low ≤ high) (hhigh : high ≤ slice.len) :
    slice.sub low high = .ok (slice.contents.window low (high - low)) := by
  rw [sub_eq_ok_iff]
  exact ⟨⟨hle, Nat.le_trans hhigh slice.len_le⟩, slice.window_contents (by omega)⟩

theorem get_of_lt (hindex : index < slice.len) :
    slice.get index = .ok (slice.byte index) :=
  if_pos hindex

theorem getD_contents (hindex : index < slice.len) :
    slice.contents.getD index 0 = slice.byte index := by
  rw [byte, List.getD_eq_getElem?_getD, List.getD_eq_getElem?_getD, contents,
    List.getElem?_take_of_lt hindex]

theorem between_zero (hhigh : high ≤ slice.cap) :
    ∃ front, slice.between 0 high = .ok front ∧ front.array = slice.array ∧ front.len = high := by
  rw [between, dif_pos ⟨Nat.zero_le high, hhigh⟩]
  exact ⟨_, rfl, rfl, rfl⟩

theorem dropFront_ofBytes (hlow : low ≤ bytes.length) :
    (ofBytes bytes).dropFront low = .ok (ofBytes (bytes.drop low)) := by
  rw [dropFront, dif_pos (show low ≤ (ofBytes bytes).len from hlow)]
  simp [ofBytes]

theorem dropFront_eq (low : Nat) : slice.dropFront low =
      if low ≤ slice.len then .ok (slice.advance low)
      else .error .sliceBounds := by
  unfold dropFront
  split <;> rfl

@[simp] theorem len_put (index : Nat) (value : UInt8) : (slice.put index value).len = slice.len :=
  rfl

@[simp] theorem cap_put (index : Nat) (value : UInt8) : (slice.put index value).cap = slice.cap :=
  List.length_set

@[simp] theorem len_write (start : Nat) (source : Bytes) : (slice.write start source).len =
  slice.len := rfl

@[simp] theorem cap_write (start : Nat) (source : Bytes) : (slice.write start source).cap =
  slice.cap := List.length_mapIdx

theorem byte_put_of_ne {other : Nat} (hne : other ≠ index) :
    (slice.put index value).byte other = slice.byte other := by
  simp only [byte, put, List.getD_eq_getElem?_getD]
  rw [List.getElem?_set_ne (Ne.symm hne)]

theorem byte_of_cap_le (hcap : slice.cap ≤ index) : slice.byte index = 0 := by
  rw [byte, List.getD_eq_getElem?_getD, List.getElem?_eq_none hcap]
  rfl

theorem byte_put_self (hcap : index < slice.cap) :
    (slice.put index value).byte index = value := by
  simp only [byte, put, List.getD_eq_getElem?_getD]
  rw [List.getElem?_set_self hcap]
  rfl

theorem byte_write_of_outside {start other : Nat}
    (houtside : other < start ∨ start + source.length ≤ other) :
    (slice.write start source).byte other = slice.byte other := by
  have hnot : ¬ (start ≤ other ∧ other < start + source.length) := by omega
  simp only [byte, write, overwrite, List.getD_eq_getElem?_getD, List.getElem?_mapIdx, if_neg hnot]
  cases slice.array[other]? <;> rfl

theorem byte_write_of_inside {start other : Nat} (hlow : start ≤ other)
    (hhigh : other < start + source.length) (hcap : other < slice.cap) :
    (slice.write start source).byte other = source.getD (other - start) 0 := by
  have hfound : slice.array[other]? = some (slice.array[other]) := List.getElem?_eq_getElem hcap
  simp only [byte, write, overwrite, List.getD_eq_getElem?_getD,
    List.getElem?_mapIdx, hfound, if_pos (And.intro hlow hhigh)]
  rfl

theorem array_write {start : Nat} (hcap : start + source.length ≤ slice.cap) :
    (slice.write start source).array = slice.array.take start ++ source ++
        slice.array.drop (start + source.length) := by
  have hlength : start + source.length ≤ slice.array.length := hcap
  apply List.ext_getElem
  · simp only [write, overwrite, List.length_mapIdx, List.length_append,
      List.length_take, List.length_drop]
    omega
  · intro index hleft hright
    simp only [write, overwrite, List.getElem_mapIdx, List.getD_eq_getElem?_getD]
    split
    · next hinside =>
        rw [List.getElem_append_left (by simp; omega), List.getElem_append_right (by simp; omega),
          List.getElem?_eq_getElem (by omega), Option.getD_some]
        congr 1
        rw [List.length_take]
        omega
    · next houtside => grind

theorem window_eq_of_byte (start : Nat) (source : Bytes) (hcap : start + source.length ≤ slice.cap)
    (hbyte : ∀ index, index < source.length → slice.byte (start + index) = source.getD index 0) :
    slice.array.window start source.length = source := by
  have hlength : (slice.array.window start source.length).length =
      source.length := Bytes.length_window _ _ _ hcap
  apply List.ext_getElem hlength
  intro index hleft hright
  have hfound := hbyte index hright
  have harray : start + index < slice.array.length := by
    rw [cap] at hcap
    omega
  simp only [byte, List.getD_eq_getElem?_getD, List.getElem?_eq_getElem harray,
    List.getElem?_eq_getElem hright, Option.getD_some] at hfound
  simp only [Bytes.window, List.getElem_take, List.getElem_drop, hfound]

/-- `after` is `before` with other bytes at most at `places`. -/
structure ChangedAt (places : Nat → Prop) (before after : Slice) : Prop where
  len_eq : after.len = before.len
  cap_eq : after.cap = before.cap
  byte_eq : ∀ index, ¬ places index → after.byte index = before.byte index

namespace ChangedAt

variable {places wider : Nat → Prop} {before middle after : Slice}

theorem rfl (slice : Slice) : ChangedAt places slice slice where
  len_eq := Eq.refl _
  cap_eq := Eq.refl _
  byte_eq := fun _ _ => Eq.refl _

theorem trans (first : ChangedAt places before middle) (second : ChangedAt places middle after) :
    ChangedAt places before after where
  len_eq := second.len_eq.trans first.len_eq
  cap_eq := second.cap_eq.trans first.cap_eq
  byte_eq := fun index hplace =>
    (second.byte_eq index hplace).trans (first.byte_eq index hplace)

theorem guard {c : Prop} [Decidable c] {next : Checked Slice}
    (hupdate : (if c then pure before else next) = .ok after)
    (hnext : ¬ c → next = .ok after → ChangedAt places before after) :
    ChangedAt places before after := by
  split at hupdate
  · cases hupdate
    exact rfl before
  · next h => exact hnext h hupdate

theorem widen (changed : ChangedAt places before after)
    (hwider : ∀ index, places index → wider index) :
    ChangedAt wider before after where
  len_eq := changed.len_eq
  cap_eq := changed.cap_eq
  byte_eq := fun index hplace =>
    changed.byte_eq index fun hin => hplace (hwider index hin)

theorem put {index : Nat} (value : UInt8) (hplace : places index) :
    ChangedAt places slice (slice.put index value) where
  len_eq := slice.len_put index value
  cap_eq := slice.cap_put index value
  byte_eq := fun _ hother =>
    slice.byte_put_of_ne fun heq => hother (heq ▸ hplace)

theorem write {start : Nat} {source : Bytes}
    (hplaces : ∀ index, start ≤ index → index < start + source.length → places index) :
    ChangedAt places slice (slice.write start source) where
  len_eq := slice.len_write start source
  cap_eq := slice.cap_write start source
  byte_eq := fun index hother => slice.byte_write_of_outside (by
    by_contra hinside
    exact hother (hplaces index (by omega) (by omega)))

theorem put_congr (changed : ChangedAt places before after) (index : Nat) (value : UInt8) :
    ChangedAt (fun place => places place ∧ place ≠ index)
      (before.put index value) (after.put index value) where
  len_eq := changed.len_eq
  cap_eq := by
    rw [cap_put, cap_put]
    exact changed.cap_eq
  byte_eq := by
    intro place hplace
    by_cases heq : place = index
    · subst heq
      have hsame := changed.cap_eq
      by_cases hcap : place < before.cap
      · rw [byte_put_self _ (by omega), byte_put_self _ hcap]
      · rw [byte_of_cap_le _ (by rw [cap_put]; omega), byte_of_cap_le _ (by rw [cap_put]; omega)]
    · rw [byte_put_of_ne _ heq, byte_put_of_ne _ heq]
      exact changed.byte_eq place fun h => hplace ⟨h, heq⟩

theorem write_congr (changed : ChangedAt places before after) (start : Nat) (source : Bytes) :
    ChangedAt places (before.write start source) (after.write start source) where
  len_eq := changed.len_eq
  cap_eq := by
    rw [cap_write, cap_write]
    exact changed.cap_eq
  byte_eq := by
    intro place hplace
    have hsame := changed.cap_eq
    by_cases hcap : place < before.cap
    · by_cases hinside : start ≤ place ∧ place < start + source.length
      · rw [byte_write_of_inside _ hinside.1 hinside.2 (by omega),
          byte_write_of_inside _ hinside.1 hinside.2 hcap]
      · rw [byte_write_of_outside _ (by omega), byte_write_of_outside _ (by omega)]
        exact changed.byte_eq place hplace
    · rw [byte_of_cap_le _ (by rw [cap_write]; omega), byte_of_cap_le _ (by rw [cap_write]; omega)]

theorem eq_of_nowhere (changed : ChangedAt (fun _ => False) before after) : after = before := by
  have harray : after.array = before.array := by
    apply List.ext_getElem changed.cap_eq
    intro index hafter hbefore
    have hbyte := changed.byte_eq index id
    simpa only [byte, List.getD_eq_getElem?_getD, List.getElem?_eq_getElem hafter,
      List.getElem?_eq_getElem hbefore, Option.getD_some] using hbyte
  have hlen := changed.len_eq
  cases after
  cases harray
  cases hlen
  rfl

theorem window_eq (changed : ChangedAt places before after) {start count : Nat}
    (hcap : start + count ≤ before.cap)
    (hplaces : ∀ index, start ≤ index → index < start + count → ¬ places index) :
    after.array.window start count = before.array.window start count := by
  have hlength : (before.array.window start count).length = count := Bytes.length_window _ _ _ hcap
  have hwindow := after.window_eq_of_byte start (before.array.window start count)
  rw [hlength, changed.cap_eq] at hwindow
  replace hwindow := hwindow hcap
  refine hwindow fun index hindex => ?_
  rw [changed.byte_eq _ (hplaces _ (by omega) (by omega)), byte, Bytes.window,
    List.getD_eq_getElem?_getD, List.getD_eq_getElem?_getD,
    List.getElem?_take_of_lt hindex, List.getElem?_drop]

theorem exists_copyTo {low high : Nat} (hle : low ≤ high)
    (hcap : high ≤ slice.cap) (source : Bytes) :
    ∃ after, slice.copyTo low high source = .ok after ∧
      ChangedAt (fun index => low ≤ index ∧ index < high) slice after := by
  refine ⟨_, if_pos ⟨hle, hcap⟩, write slice ?_⟩
  intro index hlow hhigh
  rw [List.length_take] at hhigh
  exact ⟨hlow, by omega⟩

end ChangedAt

end Slice

end Pig.Go
