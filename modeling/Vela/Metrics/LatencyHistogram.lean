import Mathlib.Data.List.Induction
import Mathlib.Data.Rat.Cast.Order
import Mathlib.Tactic.Linarith
import Vela.Foundation.Ranks

/-! # Latency percentiles

The histogram counts samples in buckets of equal width; a percentile is found by
adding up the buckets until a rank is reached. Counts, sums and percentiles are
exact here. -/

namespace Vela

open Foundation Ranks

structure LatencyHistogram where
  bucketUs : BitVec 32
  maxUs : BitVec 32
  /-- The last one is the overflow bucket. -/
  buckets : List Nat
  count : Nat := 0
  sum : Nat := 0
  min : Nat := 0
  max : Nat := 0
  positive : bucketUs ≠ 0

namespace LatencyHistogram

def create (bucketUs maxUs : BitVec 32) : LatencyHistogram where
  bucketUs := if bucketUs = 0 then 1 else bucketUs
  maxUs := maxUs
  -- The number of buckets is computed in 32 bits.
  buckets := List.replicate (maxUs / (if bucketUs = 0 then 1 else bucketUs) + 1).toNat 0
  positive := by
    split
    · decide
    · assumption

/-- Fails where the bucket would lie outside of the vector. -/
def record (histogram : LatencyHistogram) (microseconds : Nat) : Option LatencyHistogram :=
  let idx := microseconds / histogram.bucketUs.toNat
  let idx := if idx ≥ histogram.buckets.length then histogram.buckets.length - 1 else idx
  if idx < histogram.buckets.length then
    some { histogram with
      buckets := histogram.buckets.modify idx (· + 1)
      min :=
        if histogram.count = 0 ∨ microseconds < histogram.min then microseconds
        else histogram.min
      max := if microseconds > histogram.max then microseconds else histogram.max
      sum := histogram.sum + microseconds
      count := histogram.count + 1 }
  else none

/-- What is returned for bucket `i`. -/
def mark (histogram : LatencyHistogram) (i : Nat) : Rat :=
  if i = histogram.buckets.length - 1 then histogram.maxUs.toNat
  else (i + 1 / 2) * histogram.bucketUs.toNat

/-- The loop of `percentile`, from bucket `i` on. -/
def scan (histogram : LatencyHistogram) (target : Nat) : Nat → Nat → List Nat → Rat
  | _, _, [] => histogram.max
  | i, cumulative, bucket :: rest =>
      let cumulative := cumulative + bucket
      if cumulative ≥ target ∧ bucket > 0 then histogram.mark i
      else scan histogram target (i + 1) cumulative rest

def percentile (histogram : LatencyHistogram) (p : Rat) : Rat :=
  if histogram.count = 0 then 0
  else
    let p := if p < 0 then 0 else if 1 < p then 1 else p
    let target := (p * histogram.count).floor.toNat
    histogram.scan target 0 0 histogram.buckets

/-- The histogram of these samples. -/
def recorded (bucketUs maxUs : BitVec 32) (samples : List Nat) : Option LatencyHistogram :=
  samples.foldlM record (create bucketUs maxUs)

/-! ## What a percentile should be -/

/-- The bucket of a sample. -/
def bucketOf (bucketUs maxUs microseconds : Nat) : Nat :=
  if microseconds / bucketUs < maxUs / bucketUs then microseconds / bucketUs else maxUs / bucketUs

/-- How many samples lie in bucket `i` and the lower ones. -/
def cumulative (bucketUs maxUs : Nat) (samples : List Nat) (i : Nat) : Nat :=
  countUpTo (bucketOf bucketUs maxUs) samples i

/-- The midpoint of a bucket, or the limit for the overflow bucket. -/
def midpoint (bucketUs maxUs i : Nat) : Rat :=
  if i = maxUs / bucketUs then maxUs else (i + 1 / 2) * bucketUs

/-- The percentile is that of the first bucket up to which the fraction `p` of the
samples lies, and a greater `p` has no smaller one. -/
structure Exact (bucketUs maxUs : Nat) (samples : List Nat) (p : Rat)
    (histogram : LatencyHistogram) : Prop where
  crossing : ∃ i ≤ maxUs / bucketUs, histogram.percentile p = midpoint bucketUs maxUs i ∧
    IsFirst (fun j => (cumulative bucketUs maxUs samples j : Rat) / samples.length) p i
  covered : ∃ i ≤ maxUs / bucketUs, histogram.percentile p = midpoint bucketUs maxUs i ∧
    p ≤ cumulative bucketUs maxUs samples i / samples.length
  monotone : ∀ q : Rat, p ≤ q → q ≤ 1 → histogram.percentile p ≤ histogram.percentile q

/-- Up to no bucket there are less than one sample too few, except for none at all. -/
def Clear (bucketUs maxUs : Nat) (samples : List Nat) (p : Rat) : Prop :=
  ∀ i, 0 < cumulative bucketUs maxUs samples i →
    ¬(p * samples.length - 1 < cumulative bucketUs maxUs samples i ∧
      (cumulative bucketUs maxUs samples i : Rat) < p * samples.length)

/-! ## The buckets -/

variable {bucketUs maxUs i j : Nat} {samples : List Nat} {histogram : LatencyHistogram} {p q : Rat}

/-- The histogram holds the samples. -/
structure Filled (bucketUs maxUs : Nat) (samples : List Nat) (histogram : LatencyHistogram) :
    Prop where
  width : histogram.bucketUs.toNat = bucketUs
  limit : histogram.maxUs.toNat = maxUs
  counts : histogram.buckets =
    (List.range (maxUs / bucketUs + 1)).map (countAt (bucketOf bucketUs maxUs) samples)
  total : histogram.count = samples.length

/-- The buckets that are needed, one for the overflow included, are counted right in
32 bits in all cases but one. -/
theorem bucketCount_eq_iff {width limit : BitVec 32} (positive : width ≠ 0) :
    (limit / width + 1).toNat = limit.toNat / width.toNat + 1 ↔
      ¬(width = 1 ∧ limit = 0xFFFFFFFF) := by
  constructor
  · rintro counted ⟨rfl, rfl⟩
    revert counted
    decide
  · intro usable
    have limitBound := limit.isLt
    have small : limit.toNat / width.toNat + 1 < 2 ^ 32 := by
      by_cases one : width = 1
      · have notAll : limit.toNat ≠ 0xFFFFFFFF :=
          fun all => usable ⟨one, BitVec.eq_of_toNat_eq all⟩
        have unit : width.toNat = 1 := by
          rw [one]
          rfl
        rw [unit, Nat.div_one]
        omega
      · have notZero : width.toNat ≠ 0 := fun zero => positive (BitVec.eq_of_toNat_eq zero)
        have notOne : width.toNat ≠ 1 := fun unit => one (BitVec.eq_of_toNat_eq unit)
        have halved := @Nat.div_le_div_left 2 width.toNat limit.toNat (by omega) (by decide)
        omega
    rw [BitVec.toNat_add, BitVec.toNat_udiv]
    exact Nat.mod_eq_of_lt small

theorem filled_create {width limit : BitVec 32} (positive : width ≠ 0)
    (usable : ¬(width = 1 ∧ limit = 0xFFFFFFFF)) :
    Filled width.toNat limit.toNat [] (create width limit) := by
  have count := (bucketCount_eq_iff positive).mpr usable
  simp only [create, if_neg positive]
  refine ⟨rfl, rfl, ?_, rfl⟩
  rw [count]
  apply List.ext_getElem
  · simp
  · intro i _ _
    simp [countAt]

theorem Filled.length (filled : Filled bucketUs maxUs samples histogram) :
    histogram.buckets.length = maxUs / bucketUs + 1 := by
  rw [filled.counts, List.length_map, List.length_range]

theorem Filled.record (filled : Filled bucketUs maxUs samples histogram) (microseconds : Nat) :
    ∃ after, histogram.record microseconds = some after ∧
      Filled bucketUs maxUs (samples ++ [microseconds]) after := by
  have place : (if microseconds / histogram.bucketUs.toNat ≥ histogram.buckets.length then
      histogram.buckets.length - 1 else microseconds / histogram.bucketUs.toNat) =
        bucketOf bucketUs maxUs microseconds := by
    rw [filled.length, filled.width, bucketOf]
    generalize maxUs / bucketUs = last
    split_ifs <;> omega
  have inRange : bucketOf bucketUs maxUs microseconds < histogram.buckets.length := by
    rw [filled.length, bucketOf]
    generalize maxUs / bucketUs = last
    split <;> omega
  have counts : histogram.buckets.modify (bucketOf bucketUs maxUs microseconds) (· + 1) =
      (List.range (maxUs / bucketUs + 1)).map
        (countAt (bucketOf bucketUs maxUs) (samples ++ [microseconds])) := by
    rw [filled.counts]
    apply List.ext_getElem
    · simp
    · intro index _ _
      simp only [List.getElem_modify, List.getElem_map, List.getElem_range, countAt_snoc]
  simp only [LatencyHistogram.record, place, if_pos inRange]
  refine ⟨_, rfl, filled.width, filled.limit, counts, ?_⟩
  rw [List.length_append, ← filled.total]
  rfl

theorem filled_recorded {width limit : BitVec 32} (positive : width ≠ 0)
    (usable : ¬(width = 1 ∧ limit = 0xFFFFFFFF)) (samples : List Nat) :
    ∃ histogram, recorded width limit samples = some histogram ∧
      Filled width.toNat limit.toNat samples histogram := by
  induction samples using List.reverseRecOn with
  | nil => exact ⟨_, rfl, filled_create positive usable⟩
  | append_singleton samples microseconds induction =>
      rcases induction with ⟨before, isBefore, filled⟩
      rcases filled.record microseconds with ⟨after, isAfter, refilled⟩
      refine ⟨after, ?_, refilled⟩
      rw [recorded] at isBefore ⊢
      rw [List.foldlM_append, isBefore]
      simp [isAfter]

/-- A histogram that needs `2 ^ 32` buckets has none, and cannot record a sample. -/
theorem recorded_unusable (some : samples ≠ []) : recorded 1 0xFFFFFFFF samples = none := by
  cases samples with
  | nil => exact absurd rfl some
  | cons first rest =>
      have nowhere : (create 1 0xFFFFFFFF).buckets.length = 0 := by decide
      have fails : (create 1 0xFFFFFFFF).record first = none := by
        simp only [record, nowhere, Nat.not_lt_zero, if_false]
      rw [recorded, List.foldlM_cons, fails]
      rfl

theorem cumulative_mono (bucketUs maxUs : Nat) (samples : List Nat) :
    Monotone (cumulative bucketUs maxUs samples) :=
  countUpTo_mono _ samples

/-- All samples lie in the overflow bucket or below. -/
theorem cumulative_last (bucketUs maxUs : Nat) (samples : List Nat) :
    cumulative bucketUs maxUs samples (maxUs / bucketUs) = samples.length := by
  apply countUpTo_eq_length
  intro microseconds _
  rw [bucketOf]
  split <;> omega

theorem Filled.mark_eq (filled : Filled bucketUs maxUs samples histogram) (i : Nat) :
    histogram.mark i = midpoint bucketUs maxUs i := by
  rw [mark, midpoint, filled.length, filled.width, filled.limit, Nat.add_sub_cancel]

/-! ## The scan -/

/-- The rank that the scan looks for: an empty bucket never ends it. -/
def rankOf (target : Nat) : Nat := if target = 0 then 1 else target

theorem scan_eq (histogram : LatencyHistogram) {key : Nat → Nat} {target found : Nat}
    (isFirst : IsFirst (countUpTo key samples) (rankOf target) found) (steps : Nat)
    (fromHere : i ≤ found) (inRange : found < i + steps) :
    histogram.scan target i (countBelow key samples i)
      ((List.range' i steps).map (countAt key samples)) = histogram.mark found := by
  induction steps generalizing i with
  | zero => omega
  | succ steps induction =>
      have upTo := countUpTo_eq key samples i
      have split := countBelow_succ key samples i
      rw [List.range'_succ, List.map_cons, scan]
      simp only [← split]
      by_cases here : i = found
      · -- The bucket is not empty, or an earlier one would have reached the rank.
        have reached := isFirst.1
        have filled : 0 < countAt key samples i := by
          cases i with
          | zero =>
              rw [countBelow_zero] at split
              rw [← here] at reached
              unfold rankOf at reached
              split_ifs at reached <;> omega
          | succ earlier =>
              have missed := isFirst.2 earlier (by omega)
              rw [countUpTo_eq] at missed
              rw [← here] at reached
              omega
        have enough : countBelow key samples (i + 1) ≥ target := by
          rw [← here, upTo] at reached
          unfold rankOf at reached
          split_ifs at reached <;> omega
        rw [if_pos ⟨enough, filled⟩, here]
      · have missed := isFirst.2 i (by omega)
        have goesOn : ¬(countBelow key samples (i + 1) ≥ target ∧ countAt key samples i > 0) := by
          rw [upTo] at missed
          unfold rankOf at missed
          split_ifs at missed <;> omega
        rw [if_neg goesOn]
        exact induction (by omega) (by omega)

/-! ## Percentiles -/

theorem truncated_bounds {rank : Rat} (nonnegative : 0 ≤ rank) :
    (rank.floor.toNat : Rat) ≤ rank ∧ rank < rank.floor.toNat + 1 := by
  have whole : (rank.floor.toNat : Int) = rank.floor :=
    Int.toNat_of_nonneg (Rat.le_floor_iff.mpr nonnegative)
  have same : (rank.floor.toNat : Rat) = rank.floor := by
    rw [← Int.cast_natCast, whole]
  have above := Rat.lt_floor_add_one rank
  rw [Int.cast_add, Int.cast_one] at above
  rw [same]
  exact ⟨Rat.floor_le rank, above⟩

/-- The percentile is that of the first bucket to reach the truncated rank. -/
theorem Filled.percentile_eq (filled : Filled bucketUs maxUs samples histogram)
    (some : samples ≠ []) (nonnegative : 0 ≤ p) (atMost : p ≤ 1) (inRange : i ≤ maxUs / bucketUs)
    (isFirst : IsFirst (cumulative bucketUs maxUs samples)
      (rankOf (p * samples.length).floor.toNat) i) :
    histogram.percentile p = midpoint bucketUs maxUs i := by
  have notEmpty : ¬histogram.count = 0 := by
    rw [filled.total, List.length_eq_zero_iff]
    exact some
  have clamped : (if p < 0 then 0 else if 1 < p then 1 else p) = p := by
    rw [if_neg (not_lt.mpr nonnegative), if_neg (not_lt.mpr atMost)]
  have scanned := scan_eq histogram isFirst (maxUs / bucketUs + 1) (Nat.zero_le i) (by omega)
  rw [percentile, if_neg notEmpty]
  simp only [clamped, filled.total]
  rw [filled.counts, List.range_eq_range', ← filled.mark_eq, ← scanned, countBelow_zero]

/-- Where the percentile is taken from. -/
theorem Filled.exists_found (filled : Filled bucketUs maxUs samples histogram)
    (some : samples ≠ []) (nonnegative : 0 ≤ p) (atMost : p ≤ 1) :
    ∃ i ≤ maxUs / bucketUs, histogram.percentile p = midpoint bucketUs maxUs i ∧
      IsFirst (cumulative bucketUs maxUs samples)
        (rankOf (p * samples.length).floor.toNat) i := by
  have someSamples : 0 < samples.length := List.length_pos_iff.mpr some
  have rank : (0 : Rat) ≤ p * samples.length := mul_nonneg nonnegative (Nat.cast_nonneg _)
  have truncated := (truncated_bounds rank).1
  have total : p * samples.length ≤ samples.length :=
    mul_le_of_le_one_left (Nat.cast_nonneg _) atMost
  have enough : (p * samples.length).floor.toNat ≤ samples.length := by
    exact_mod_cast truncated.trans total
  have reached : rankOf (p * samples.length).floor.toNat ≤
      cumulative bucketUs maxUs samples (maxUs / bucketUs) := by
    rw [cumulative_last, rankOf]
    split <;> omega
  rcases exists_isFirst reached with ⟨i, inRange, isFirst⟩
  exact ⟨i, inRange, filled.percentile_eq some nonnegative atMost inRange isFirst, isFirst⟩

theorem midpoint_lt (positive : 0 < bucketUs) (before : i < j) (inRange : j ≤ maxUs / bucketUs) :
    midpoint bucketUs maxUs i < midpoint bucketUs maxUs j := by
  have width : (0 : Rat) < bucketUs := by exact_mod_cast positive
  have next : (i : Rat) + 1 ≤ j := by exact_mod_cast before
  rw [midpoint, midpoint, if_neg (by omega)]
  split
  · rename_i isLast
    have limit : (j : Rat) * bucketUs ≤ maxUs := by
      rw [isLast]
      exact_mod_cast Nat.div_mul_le_self maxUs bucketUs
    calc ((i : Rat) + 1 / 2) * bucketUs < j * bucketUs := by
          apply mul_lt_mul_of_pos_right _ width
          linarith
      _ ≤ maxUs := limit
  · apply mul_lt_mul_of_pos_right _ width
    linarith

theorem midpoint_injective (positive : 0 < bucketUs) (leftIn : i ≤ maxUs / bucketUs)
    (rightIn : j ≤ maxUs / bucketUs)
    (same : midpoint bucketUs maxUs i = midpoint bucketUs maxUs j) : i = j := by
  rcases Nat.lt_trichotomy i j with before | equal | after
  · exact absurd same (ne_of_lt (midpoint_lt positive before rightIn))
  · exact equal
  · exact absurd same (ne_of_gt (midpoint_lt positive after leftIn))

theorem midpoint_mono (positive : 0 < bucketUs) (inOrder : i ≤ j)
    (inRange : j ≤ maxUs / bucketUs) :
    midpoint bucketUs maxUs i ≤ midpoint bucketUs maxUs j := by
  rcases Nat.eq_or_lt_of_le inOrder with rfl | before
  · exact le_refl _
  · exact le_of_lt (midpoint_lt positive before inRange)

theorem Filled.positive (filled : Filled bucketUs maxUs samples histogram) : 0 < bucketUs := by
  rw [← filled.width, Nat.pos_iff_ne_zero]
  exact fun zero => histogram.positive (BitVec.eq_of_toNat_eq zero)

theorem Filled.percentile_mono (filled : Filled bucketUs maxUs samples histogram)
    (some : samples ≠ []) (nonnegative : 0 ≤ p) (inOrder : p ≤ q) (atMost : q ≤ 1) :
    histogram.percentile p ≤ histogram.percentile q := by
  rcases filled.exists_found some nonnegative (inOrder.trans atMost) with ⟨i, _, lower, isFirst⟩
  rcases filled.exists_found some (nonnegative.trans inOrder) atMost with
    ⟨j, inRange, higher, isLater⟩
  have floors : (p * samples.length).floor ≤ (q * samples.length).floor :=
    Rat.floor_monotone (mul_le_mul_of_nonneg_right inOrder (Nat.cast_nonneg _))
  have ranks : rankOf (p * samples.length).floor.toNat ≤
      rankOf (q * samples.length).floor.toNat := by
    unfold rankOf
    split_ifs <;> omega
  rw [lower, higher]
  exact midpoint_mono filled.positive (isFirst.mono isLater ranks) inRange

/-! ## When the truncation does no harm -/

theorem earlier_short (above : 0 < p * samples.length) (before : j < i)
    (isFirst : IsFirst (cumulative bucketUs maxUs samples)
      (rankOf (p * samples.length).floor.toNat) i) :
    (cumulative bucketUs maxUs samples j : Rat) < p * samples.length := by
  have missed := isFirst.2 j before
  unfold rankOf at missed
  split at missed
  · have none : cumulative bucketUs maxUs samples j = 0 := by omega
    rw [none]
    exact_mod_cast above
  · have short : (cumulative bucketUs maxUs samples j : Rat) <
        (p * samples.length).floor.toNat := by
      exact_mod_cast missed
    exact short.trans_le (truncated_bounds above.le).1

/-- The bucket found reaches the rank itself, and not only the truncated one, exactly
when no bucket stops in between. -/
theorem reached_iff_clear (above : 0 < p * samples.length)
    (isFirst : IsFirst (cumulative bucketUs maxUs samples)
      (rankOf (p * samples.length).floor.toNat) i) :
    p * samples.length ≤ cumulative bucketUs maxUs samples i ↔
      Clear bucketUs maxUs samples p := by
  rcases truncated_bounds above.le with ⟨truncated, nearly⟩
  constructor
  · intro reached j filled ⟨nearEnough, short⟩
    by_cases before : j < i
    · have missed := isFirst.2 j before
      unfold rankOf at missed
      split at missed
      · omega
      · have atMost : (cumulative bucketUs maxUs samples j : Rat) + 1 ≤
            (p * samples.length).floor.toNat := by
          exact_mod_cast missed
        linarith
    · have more : (cumulative bucketUs maxUs samples i : Rat) ≤
          cumulative bucketUs maxUs samples j := by
        exact_mod_cast cumulative_mono bucketUs maxUs samples (Nat.le_of_not_lt before)
      linarith
  · intro clear
    by_contra short
    have reached := isFirst.1
    have filled : 0 < cumulative bucketUs maxUs samples i := by
      unfold rankOf at reached
      split at reached <;> omega
    have target : (p * samples.length).floor.toNat ≤ cumulative bucketUs maxUs samples i := by
      unfold rankOf at reached
      split at reached <;> omega
    have nearEnough : ((p * samples.length).floor.toNat : Rat) ≤
        cumulative bucketUs maxUs samples i := by
      exact_mod_cast target
    exact clear i filled ⟨by linarith, not_le.mp short⟩

theorem fraction_le_iff (some : samples ≠ []) (count : Nat) :
    p ≤ (count : Rat) / samples.length ↔ p * samples.length ≤ count := by
  have someSamples : (0 : Rat) < samples.length := by
    exact_mod_cast List.length_pos_iff.mpr some
  exact le_div_iff₀ someSamples

theorem rank_pos (some : samples ≠ []) (above : 0 < p) : 0 < p * samples.length := by
  have someSamples : (0 : Rat) < samples.length := by
    exact_mod_cast List.length_pos_iff.mpr some
  exact mul_pos above someSamples

theorem Exact.clear (exact : Exact bucketUs maxUs samples p histogram)
    (filled : Filled bucketUs maxUs samples histogram) (some : samples ≠ []) (above : 0 < p)
    (atMost : p ≤ 1) : Clear bucketUs maxUs samples p := by
  rcases filled.exists_found some above.le atMost with ⟨i, inRange, reported, isFirst⟩
  rcases exact.covered with ⟨j, otherIn, sameReport, covered⟩
  have same := midpoint_injective filled.positive inRange otherIn
    (reported.symm.trans sameReport)
  rw [← reached_iff_clear (rank_pos some above) isFirst, same]
  exact (fraction_le_iff some _).mp covered

theorem Clear.exact (clear : Clear bucketUs maxUs samples p)
    (filled : Filled bucketUs maxUs samples histogram) (some : samples ≠ []) (above : 0 < p)
    (atMost : p ≤ 1) : Exact bucketUs maxUs samples p histogram := by
  rcases filled.exists_found some above.le atMost with ⟨i, inRange, reported, isFirst⟩
  have rank := rank_pos some above
  have reached := (fraction_le_iff some _).mpr ((reached_iff_clear rank isFirst).mpr clear)
  refine ⟨⟨i, inRange, reported, reached, fun j before => ?_⟩, ⟨i, inRange, reported, reached⟩,
    fun q inOrder atMostOne => filled.percentile_mono some above.le inOrder atMostOne⟩
  rw [← not_le, fraction_le_iff some, not_le]
  exact earlier_short rank before isFirst

/-- A percentile is that of the recorded samples exactly when the buckets could be made
and the truncation of its rank skips none of them. -/
theorem percentile_exact_iff {width : BitVec 32} (positive : width ≠ 0) (limit : BitVec 32)
    (some : samples ≠ []) (above : 0 < p) (atMost : p ≤ 1) :
    (∃ histogram, recorded width limit samples = .some histogram ∧
        Exact width.toNat limit.toNat samples p histogram) ↔
      ¬(width = 1 ∧ limit = 0xFFFFFFFF) ∧ Clear width.toNat limit.toNat samples p := by
  by_cases unusable : width = 1 ∧ limit = 0xFFFFFFFF
  · rw [unusable.1, unusable.2, recorded_unusable some]
    simp
  · rcases filled_recorded positive unusable samples with ⟨histogram, isHistogram, filled⟩
    rw [isHistogram]
    constructor
    · rintro ⟨_, ⟨⟩, exact⟩
      exact ⟨unusable, exact.clear filled some above atMost⟩
    · rintro ⟨_, clear⟩
      exact ⟨histogram, rfl, clear.exact filled some above atMost⟩

/-- The median of four samples. -/
theorem median_exact : ∃ histogram, recorded 10 100 [5, 7, 25, 1000] = some histogram ∧
    Exact 10 100 [5, 7, 25, 1000] (1 / 2) histogram := by
  have clear : Clear 10 100 [5, 7, 25, 1000] (1 / 2) := by
    rintro i _ ⟨nearEnough, short⟩
    norm_num at nearEnough short
    omega
  exact (percentile_exact_iff (by decide) 100 (by decide) (by norm_num) (by norm_num)).mpr
    ⟨by decide, clear⟩

/-- With one sample of two in the overflow bucket, the 99th percentile is that of the
other one. -/
theorem overflow_not_reported :
    ∃ histogram, recorded 1000 50000 [10000, 999999] = some histogram ∧
      histogram.percentile (99 / 100) = 10500 ∧
      ¬Exact 1000 50000 [10000, 999999] (99 / 100) histogram := by
  have positive : (1000 : BitVec 32) ≠ 0 := by decide
  rcases filled_recorded positive (by decide : ¬((1000 : BitVec 32) = 1 ∧
    (50000 : BitVec 32) = 0xFFFFFFFF)) [10000, 999999] with ⟨histogram, isHistogram, filled⟩
  have one : cumulative 1000 50000 [10000, 999999] 10 = 1 := by decide
  refine ⟨histogram, isHistogram, ?_, fun exact => ?_⟩
  · have reported : (recorded 1000 50000 [10000, 999999]).map (percentile · (99 / 100)) =
        some 10500 := by decide +kernel
    rw [isHistogram] at reported
    exact Option.some.inj reported
  · have clear := exact.clear filled (by decide) (by norm_num) (by norm_num)
    apply clear 10
    · rw [one]
      decide
    · rw [one]
      norm_num

end LatencyHistogram

end Vela
