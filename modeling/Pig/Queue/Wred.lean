import Mathlib.Data.Rat.Floor
import Mathlib.Tactic.Linarith
import Mathlib.Tactic.SplitIfs

namespace Pig.Queue

structure WRED where
  avgQueueLen : ℚ
  factor : ℚ
  maxDP : ℚ
  minT : ℚ
  maxT : ℚ
  w : ℚ
  deriving DecidableEq, Repr

/-- To the nearest integer, with halves away from zero. -/
def round (value : ℚ) : ℚ :=
  if value < 0 then -((⌊-value + 1 / 2⌋ : ℤ) : ℚ) else (⌊value + 1 / 2⌋ : ℤ)

def minThreshold (qlen : Int) (minThPercent maxThPercent : ℚ) : ℚ :=
  let maxT := maxThPercent * qlen
  let minT :=
    if 0 < minThPercent ∧ minThPercent < maxThPercent then minThPercent * qlen
    else round (maxT * (1 / 2) * 100) / (1 / 2)
  if maxT ≤ minT then maxT else minT

/-- `pow` raises two to a power. -/
def newWRED (pow : ℚ → ℚ) (qlen : Int) (weight dropProbability minThPercent maxThPercent : ℚ) :
    Except String WRED :=
  if weight ≤ 0 then .error "weight must be greater than 0"
  else if dropProbability < 0 ∨ 1 < dropProbability then
    .error "drop probability must be between 0 and 1"
  else if maxThPercent < 0 ∨ 1 < maxThPercent then
    .error "threshold must be between 0 and 1"
  else if qlen ≤ 0 then .error "wred's queue length must be > 0"
  else
    .ok
      { avgQueueLen := 0
        factor := weight
        maxDP := dropProbability
        minT := minThreshold qlen minThPercent maxThPercent
        maxT := maxThPercent * qlen
        w := pow (-weight) }

namespace WRED

def update (wred : WRED) (queueLen : ℚ) : WRED :=
  { wred with avgQueueLen := (1 - wred.w) * wred.avgQueueLen + wred.w * queueLen }

def isDrop (wred : WRED) (sample : ℚ) : Bool :=
  if wred.maxDP = 0 then false
  else if wred.avgQueueLen < wred.minT then false
  else if wred.maxT ≤ wred.avgQueueLen then sample < wred.maxDP
  else sample < wred.maxDP * (wred.avgQueueLen - wred.minT) / (wred.maxT - wred.minT)

def DropsWith (wred : WRED) (probability : ℚ) : Prop :=
  ∀ sample, 0 ≤ sample → (wred.isDrop sample = true ↔ sample < probability)

structure OnCurve (qlen : Int) (wred : WRED) : Prop where
  average : 0 ≤ wred.avgQueueLen ∧ wred.avgQueueLen ≤ qlen
  thresholds : 0 ≤ wred.minT ∧ wred.minT ≤ wred.maxT ∧ wred.maxT ≤ qlen
  below : wred.avgQueueLen < wred.minT → wred.DropsWith 0
  above : wred.maxT ≤ wred.avgQueueLen → wred.DropsWith wred.maxDP
  between : wred.minT ≤ wred.avgQueueLen → wred.avgQueueLen < wred.maxT →
    wred.maxT - wred.minT ≠ 0 ∧ wred.DropsWith
      (wred.maxDP * (wred.avgQueueLen - wred.minT) / (wred.maxT - wred.minT))

end WRED

structure Acceptable (qlen : Int) (weight dropProbability maxThPercent : ℚ) :
    Prop where
  weight_pos : 0 < weight
  drop_nonneg : 0 ≤ dropProbability
  drop_le : dropProbability ≤ 1
  threshold_nonneg : 0 ≤ maxThPercent
  threshold_le : maxThPercent ≤ 1
  length_pos : 0 < qlen

theorem newWRED_of_acceptable (pow : ℚ → ℚ) {qlen : Int} {weight dropProbability : ℚ}
    (minThPercent : ℚ) {maxThPercent : ℚ}
    (acceptable : Acceptable qlen weight dropProbability maxThPercent) :
    newWRED pow qlen weight dropProbability minThPercent maxThPercent = .ok
      { avgQueueLen := 0
        factor := weight
        maxDP := dropProbability
        minT := minThreshold qlen minThPercent maxThPercent
        maxT := maxThPercent * qlen
        w := pow (-weight) } := by
  obtain ⟨hweight, hnonneg, hdrop, hthreshold, hle, hlength⟩ := acceptable
  rw [newWRED, if_neg (not_le.2 hweight), if_neg (not_or.2 ⟨not_lt.2 hnonneg, not_lt.2 hdrop⟩),
    if_neg (not_or.2 ⟨not_lt.2 hthreshold, not_lt.2 hle⟩), if_neg (not_le.2 hlength)]

theorem exists_newWRED_iff (pow : ℚ → ℚ) {qlen : Int}
    {weight dropProbability : ℚ} (minThPercent : ℚ) {maxThPercent : ℚ} :
    (∃ wred, newWRED pow qlen weight dropProbability minThPercent maxThPercent = .ok wred) ↔
      Acceptable qlen weight dropProbability maxThPercent := by
  constructor
  · rintro ⟨wred, hwred⟩
    rw [newWRED] at hwred
    split_ifs at hwred with hweight hdrop hthreshold hlength
    rw [not_or, not_lt, not_lt] at hdrop hthreshold
    exact ⟨not_le.1 hweight, hdrop.1, hdrop.2, hthreshold.1, hthreshold.2, not_le.1 hlength⟩
  · exact fun acceptable => ⟨_, newWRED_of_acceptable pow minThPercent acceptable⟩

/-- The drop curve after any lengths of the queue, and a minimum threshold at
half of the maximum if none is given. -/
def MeetsCurve (qlen : Int) (minThPercent : ℚ) (wred : WRED) : Prop :=
  (∀ lengths : List ℚ, (∀ length ∈ lengths, 0 ≤ length ∧ length ≤ qlen) →
    (lengths.foldl WRED.update wred).OnCurve qlen) ∧
  (minThPercent ≤ 0 → |wred.minT - wred.maxT / 2| ≤ 1 / 100 ∧
    (0 < wred.maxT → wred.minT < wred.maxT))

section

variable {qlen : Int} {minThPercent maxThPercent : ℚ} {wred : WRED}

theorem round_of_nonneg {value : ℚ} (hvalue : 0 ≤ value) : round value = (⌊value + 1 / 2⌋ : ℤ) :=
  if_neg (not_lt.2 hvalue)

theorem minThreshold_bounds (hlength : 0 < qlen) (hnonneg : 0 ≤ maxThPercent) :
    0 ≤ minThreshold qlen minThPercent maxThPercent ∧
      minThreshold qlen minThPercent maxThPercent ≤ maxThPercent * qlen := by
  have hqlen : (0 : ℚ) < qlen := Int.cast_pos.2 hlength
  have hmax := mul_nonneg hnonneg hqlen.le
  have hround : 0 ≤ round (maxThPercent * qlen * (1 / 2) * 100) := by
    rw [round_of_nonneg (by linarith)]
    exact Int.cast_nonneg (Int.floor_nonneg.2 (by linarith))
  simp only [minThreshold]
  split_ifs with hgiven hover hover
  · exact ⟨hmax, le_refl _⟩
  · exact ⟨mul_nonneg hgiven.1.le hqlen.le, (not_le.1 hover).le⟩
  · exact ⟨hmax, le_refl _⟩
  · exact ⟨by linarith, (not_le.1 hover).le⟩

theorem minThreshold_default (hmin : minThPercent ≤ 0) (hmax : 0 ≤ maxThPercent * qlen) :
    minThreshold qlen minThPercent maxThPercent =
      if maxThPercent * qlen < 1 / 100 then 0 else maxThPercent * qlen := by
  simp only [minThreshold, not_lt.2 hmin, false_and, if_false]
  rw [round_of_nonneg (by linarith)]
  generalize maxThPercent * qlen = maxT at hmax
  by_cases hsmall : maxT < 1 / 100
  · have hfloor : ⌊maxT * (1 / 2) * 100 + 1 / 2⌋ = 0 := by
      rw [Int.floor_eq_zero_iff, Set.mem_Ico]
      constructor <;> linarith
    rw [if_pos hsmall, hfloor, Int.cast_zero, zero_div]
    split_ifs with hzero
    · linarith
    · rfl
  · have hone : (1 : ℚ) ≤ (⌊maxT * (1 / 2) * 100 + 1 / 2⌋ : ℤ) := by
      exact_mod_cast Int.le_floor.2 (by push_cast; linarith)
    have hfloor := Int.lt_floor_add_one (maxT * (1 / 2) * 100 + 1 / 2)
    rw [if_neg hsmall, if_pos]
    linarith

theorem WRED.onCurve (haverage : 0 ≤ wred.avgQueueLen ∧ wred.avgQueueLen ≤ qlen)
    (hthresholds : 0 ≤ wred.minT ∧ wred.minT ≤ wred.maxT ∧ wred.maxT ≤ qlen) :
    wred.OnCurve qlen := by
  refine ⟨haverage, hthresholds, fun hlow sample hsample => ?_, fun hhigh sample hsample => ?_,
    fun hlow hhigh => ⟨by linarith, fun sample hsample => ?_⟩⟩
  · simp [WRED.isDrop, hlow, not_lt.2 hsample]
  · by_cases hzero : wred.maxDP = 0
    · simp [WRED.isDrop, hzero, not_lt.2 hsample]
    · simp [WRED.isDrop, hzero, hhigh, not_lt.2 (hthresholds.2.1.trans hhigh)]
  · by_cases hzero : wred.maxDP = 0
    · simp [WRED.isDrop, hzero, not_lt.2 hsample]
    · simp [WRED.isDrop, hzero, not_lt.2 hlow, not_le.2 hhigh]

theorem WRED.OnCurve.update (onCurve : wred.OnCurve qlen) (hweight : 0 ≤ wred.w ∧ wred.w ≤ 1)
    {length : ℚ} (hlength : 0 ≤ length ∧ length ≤ qlen) : (wred.update length).OnCurve qlen := by
  have hrest : 0 ≤ 1 - wred.w := by linarith
  refine WRED.onCurve ⟨?_, ?_⟩ onCurve.thresholds
  · exact add_nonneg (mul_nonneg hrest onCurve.average.1) (mul_nonneg hweight.1 hlength.1)
  · calc (1 - wred.w) * wred.avgQueueLen + wred.w * length
        ≤ (1 - wred.w) * qlen + wred.w * qlen :=
          add_le_add (mul_le_mul_of_nonneg_left onCurve.average.2 hrest)
            (mul_le_mul_of_nonneg_left hlength.2 hweight.1)
      _ = qlen := by ring

theorem WRED.OnCurve.updates (onCurve : wred.OnCurve qlen) (hweight : 0 ≤ wred.w ∧ wred.w ≤ 1)
    {lengths : List ℚ} (hlengths : ∀ length ∈ lengths, 0 ≤ length ∧ length ≤ qlen) :
    (lengths.foldl WRED.update wred).OnCurve qlen := by
  induction lengths generalizing wred with
  | nil => exact onCurve
  | cons length rest ih =>
    rw [List.forall_mem_cons] at hlengths
    exact ih (onCurve.update hweight hlengths.1) hweight hlengths.2

/-- The curve is always as it should be. The default of the minimum threshold
is half of the maximum exactly if the maximum is next to nothing. -/
theorem meetsCurve_iff {pow : ℚ → ℚ} (hpow : ∀ exponent < 0, 0 ≤ pow exponent ∧ pow exponent ≤ 1)
    {weight dropProbability : ℚ}
    (hnew : newWRED pow qlen weight dropProbability minThPercent maxThPercent = .ok wred) :
    MeetsCurve qlen minThPercent wred ↔ 0 < minThPercent ∨ maxThPercent * qlen < 1 / 100 := by
  have acceptable := (exists_newWRED_iff pow minThPercent).1 ⟨wred, hnew⟩
  have hqlen : (0 : ℚ) < qlen := Int.cast_pos.2 acceptable.length_pos
  have hmax := mul_nonneg acceptable.threshold_nonneg hqlen.le
  rw [newWRED_of_acceptable pow minThPercent acceptable, Except.ok.injEq] at hnew
  obtain ⟨havg, hminT, hmaxT, hw⟩ : wred.avgQueueLen = 0 ∧
      wred.minT = minThreshold qlen minThPercent maxThPercent ∧
      wred.maxT = maxThPercent * qlen ∧ wred.w = pow (-weight) := by
    rw [← hnew]
    exact ⟨rfl, rfl, rfl, rfl⟩
  have onCurve : wred.OnCurve qlen := by
    refine WRED.onCurve ?_ ?_
    · rw [havg]
      exact ⟨le_refl _, hqlen.le⟩
    · obtain ⟨hlow, hhigh⟩ := @minThreshold_bounds qlen minThPercent maxThPercent
        acceptable.length_pos acceptable.threshold_nonneg
      rw [hminT, hmaxT]
      exact ⟨hlow, hhigh, mul_le_of_le_one_left hqlen.le acceptable.threshold_le⟩
  have hweight : 0 ≤ wred.w ∧ wred.w ≤ 1 := hw ▸ hpow _ (neg_lt_zero.2 acceptable.weight_pos)
  by_cases hgiven : 0 < minThPercent
  · exact iff_of_true ⟨fun _ => onCurve.updates hweight, fun h => absurd h (not_le.2 hgiven)⟩
      (.inl hgiven)
  rw [minThreshold_default (not_lt.1 hgiven) hmax] at hminT
  by_cases hsmall : maxThPercent * qlen < 1 / 100
  · rw [if_pos hsmall] at hminT
    refine iff_of_true ⟨fun _ => onCurve.updates hweight, fun _ => ⟨abs_le.2 ⟨?_, ?_⟩,
      fun hpos => ?_⟩⟩ (.inr hsmall)
    all_goals linarith
  · rw [if_neg hsmall] at hminT
    refine iff_of_false ?_ (not_or.2 ⟨hgiven, hsmall⟩)
    rintro ⟨-, hdefault⟩
    have hless := (hdefault (not_lt.1 hgiven)).2 (by linarith)
    linarith

theorem acceptable_half : Acceptable 100 1 (1 / 10) (1 / 2) := by
  constructor <;> norm_num

theorem meetsCurve_iff_given : ∃ wred, newWRED (fun _ => 1 / 2) 100 1 (1 / 10) (1 / 4) (1 / 2) =
      .ok wred ∧ MeetsCurve 100 (1 / 4) wred :=
  ⟨_, newWRED_of_acceptable _ _ acceptable_half, (@meetsCurve_iff _ _ _ _ (fun _ => 1 / 2)
    (fun _ _ => by norm_num) _ _ (newWRED_of_acceptable _ _ acceptable_half)).2
      (.inl (by norm_num))⟩

/-- With a queue of 100 and a maximum of one half, nothing is dropped before
50 are waiting. -/
theorem exists_not_meetsCurve : ∃ wred, newWRED (fun _ => 1 / 2) 100 1 (1 / 10) 0 (1 / 2) =
      .ok wred ∧ wred.minT = 50 ∧ wred.maxT = 50 ∧ ¬ MeetsCurve 100 0 wred := by
  have hmaxT : (1 / 2 : ℚ) * (100 : Int) = 50 := by norm_num
  have hminT : minThreshold 100 0 (1 / 2) = 50 := by
    rw [minThreshold_default (le_refl _) (by norm_num), hmaxT, if_neg (by norm_num)]
  refine ⟨_, newWRED_of_acceptable _ _ acceptable_half, hminT, hmaxT, fun meets => ?_⟩
  have hless := (meets.2 (le_refl _)).2
  simp only [hminT, hmaxT] at hless
  norm_num at hless

end

end Pig.Queue
