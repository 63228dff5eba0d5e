import Mathlib

/-!
# Histograms of equal buckets

The range of some values, cut into a number of parts of the same width. A value lies in the bucket
whose lower bound is the last one at or below it, the largest value in the last bucket.
-/

namespace Histogram

variable {Value : Type*} [Field Value]

/-- Where a part begins, counted from zero. -/
def bound (low high : Value) (count : ℕ) (part : ℤ) : Value :=
  low + part * (high - low) / count

theorem bound_zero (low high : Value) (count : ℕ) : bound low high count 0 = low := by
  rw [bound, Int.cast_zero, zero_mul, zero_div, add_zero]

theorem bound_count [CharZero Value] (low high : Value) {count : ℕ} (hcount : 0 < count) :
    bound low high count count = high := by
  have hne : (count : Value) ≠ 0 := by exact_mod_cast hcount.ne'
  rw [bound, Int.cast_natCast, mul_div_cancel_left₀ _ hne, add_sub_cancel]

variable [LinearOrder Value]

section Definitions

variable [FloorRing Value]

/-- `width_bucket`, for bounds in order. -/
def widthBucket (value low high : Value) (count : ℕ) : ℤ :=
  if value < low then 0
  else if high ≤ value then count + 1
  else ⌊count * ((value - low) / (high - low))⌋ + 1

/-- The largest value is in the last bucket. -/
def bucketOf (value low high : Value) (count : ℕ) : ℤ :=
  min (widthBucket value low high count) count

end Definitions

variable [IsStrictOrderedRing Value] {value low high : Value} {count : ℕ}

theorem bound_le_iff (hcount : 0 < count) (hlt : low < high) (part : ℤ) :
    bound low high count part ≤ value ↔
      (part : Value) ≤ count * ((value - low) / (high - low)) := by
  have hpos : (0 : Value) < count := by exact_mod_cast hcount
  have hwidth : 0 < high - low := sub_pos.mpr hlt
  unfold bound
  rw [← le_sub_iff_add_le', div_le_iff₀ hpos, ← mul_div_assoc, le_div_iff₀ hwidth,
    mul_comm (count : Value)]

theorem bound_lt_high (hcount : 0 < count) (hlt : low < high) {part : ℤ} (hpart : part < count) :
    bound low high count part < high := by
  have hpos : (0 : Value) < count := by exact_mod_cast hcount
  have hpart : (part : Value) < count := by exact_mod_cast hpart
  calc bound low high count part
      = low + part / count * (high - low) := by rw [bound, div_mul_eq_mul_div]
    _ < low + 1 * (high - low) := by
        have hwidth : 0 < high - low := sub_pos.mpr hlt
        have hfraction : (part : Value) / count < 1 := (div_lt_one hpos).mpr hpart
        gcongr
    _ = high := by rw [one_mul, add_sub_cancel]

variable [FloorRing Value]

/-- A value is in a bucket when it is between its bounds; the upper bound is in the last one. -/
theorem bucketOf_eq_iff (hcount : 0 < count) (hlt : low < high) (hlow : low ≤ value)
    (hhigh : value ≤ high) {bucket : ℤ} (hfirst : 1 ≤ bucket) (hlast : bucket ≤ count) :
    bucketOf value low high count = bucket ↔
      bound low high count (bucket - 1) ≤ value ∧
        (bucket < count → value < bound low high count bucket) := by
  have hupper : value < bound low high count bucket ↔
      count * ((value - low) / (high - low)) < (bucket : Value) := by
    rw [← not_le, ← not_le, bound_le_iff hcount hlt]
  rw [bound_le_iff hcount hlt, hupper]
  unfold bucketOf widthBucket
  rw [if_neg hlow.not_gt]
  obtain hlt' | heq := hhigh.lt_or_eq
  · rw [if_neg hlt'.not_ge]
    have htop : ⌊count * ((value - low) / (high - low))⌋ < count := by
      rw [Int.floor_lt]
      have hpos : (0 : Value) < count := by exact_mod_cast hcount
      have hfraction : (value - low) / (high - low) < 1 :=
        (div_lt_one (sub_pos.mpr hlt)).mpr (sub_lt_sub_right hlt' low)
      calc (count : Value) * ((value - low) / (high - low)) < count * 1 := by gcongr
        _ = ((count : ℤ) : Value) := by push_cast; ring
    rw [min_eq_left (by omega)]
    rw [← Int.le_floor, ← Int.floor_lt]
    omega
  · rw [heq, if_pos le_rfl, min_eq_right (by omega), div_self (sub_pos.mpr hlt).ne', mul_one]
    constructor
    · rintro rfl
      refine ⟨?_, fun hbucket => absurd hbucket (lt_irrefl _)⟩
      push_cast
      linarith
    · rintro ⟨-, hbucket⟩
      by_contra hne
      have hless : bucket < count := by omega
      have habsurd : (count : Value) < bucket := hbucket hless
      have hcast : (bucket : Value) < count := by exact_mod_cast hless
      exact lt_asymm habsurd hcast

theorem bucketOf_mem (hcount : 0 < count) (hlt : low < high) (hlow : low ≤ value) :
    1 ≤ bucketOf value low high count ∧ bucketOf value low high count ≤ count := by
  refine ⟨le_min ?_ (by exact_mod_cast hcount), min_le_right _ _⟩
  unfold widthBucket
  rw [if_neg hlow.not_gt]
  split_ifs
  · omega
  · have hnonneg : 0 ≤ ⌊count * ((value - low) / (high - low))⌋ := by
      have hwidth : 0 < high - low := sub_pos.mpr hlt
      have hvalue : 0 ≤ value - low := sub_nonneg.mpr hlow
      positivity
    omega

end Histogram
