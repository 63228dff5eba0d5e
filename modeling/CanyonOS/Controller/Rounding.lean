import CanyonOS.Controller.Governance
import CanyonOS.Lib.Doubles

/-!
# Rounding to a double

An integer's double is the nearest multiple of a power of two: rounding keeps the order and does not
pass a double.
-/

namespace CanyonOS.Governance

open Doubles

theorem roundToDouble_eq (value : ℕ) :
    roundToDouble value = nearestMultiple (2 ^ (Nat.log2 value - 52)) value :=
  rfl

theorem roundToDouble_of_small {value : ℕ} (hsmall : Nat.log2 value ≤ 52) :
    roundToDouble value = value := by
  rw [roundToDouble_eq, Nat.sub_eq_zero_of_le hsmall, pow_zero, nearestMultiple_one]

theorem roundToDouble_mono {low high : ℕ} (hle : low ≤ high) :
    roundToDouble low ≤ roundToDouble high := by
  by_cases hzero : low = 0
  · rw [hzero, roundToDouble_of_small (by decide)]
    exact Nat.zero_le _
  have hlow : low < 2 ^ (Nat.log2 low + 1) := Nat.lt_log2_self
  have hhigh : 2 ^ Nat.log2 high ≤ high := Nat.log2_self_le (by omega)
  have hlog : Nat.log2 low ≤ Nat.log2 high := by
    rw [Nat.log2_eq_log_two, Nat.log2_eq_log_two]
    exact Nat.log_mono_right hle
  rw [roundToDouble_eq, roundToDouble_eq]
  obtain hlt | heq := hlog.lt_or_eq
  · -- the power of two between them is a multiple of both units
    have hmiddle : low ≤ 2 ^ Nat.log2 high :=
      hlow.le.trans (Nat.pow_le_pow_right (by omega) (by omega))
    have hfactor (shift : ℕ) (hshift : shift ≤ Nat.log2 high) :
        2 ^ (Nat.log2 high - shift) * 2 ^ shift = 2 ^ Nat.log2 high := by
      rw [← pow_add, Nat.sub_add_cancel hshift]
    calc nearestMultiple (2 ^ (Nat.log2 low - 52)) low
        ≤ 2 ^ (Nat.log2 high - (Nat.log2 low - 52)) * 2 ^ (Nat.log2 low - 52) := by
          refine nearestMultiple_le ?_ (Nat.two_pow_pos _)
          rw [hfactor _ (by omega)]
          exact hmiddle
      _ = 2 ^ (Nat.log2 high - (Nat.log2 high - 52)) * 2 ^ (Nat.log2 high - 52) := by
          rw [hfactor _ (by omega), hfactor _ (by omega)]
      _ ≤ nearestMultiple (2 ^ (Nat.log2 high - 52)) high := by
          refine le_nearestMultiple ?_ (Nat.two_pow_pos _)
          rw [hfactor _ (by omega)]
          exact hhigh
  · rw [heq]
    exact nearestMultiple_mono hle (Nat.two_pow_pos _)

theorem roundToDouble_pos {value : ℕ} (hpos : 0 < value) : 0 < roundToDouble value := by
  calc 0 < roundToDouble 1 := by decide
    _ ≤ roundToDouble value := roundToDouble_mono hpos

theorem roundToDouble_le {value : ℕ} {bound : ℚ} (hbound : IsDouble bound)
    (hle : (value : ℚ) ≤ bound) : (roundToDouble value : ℚ) ≤ bound := by
  by_cases hsmall : Nat.log2 value ≤ 52
  · rw [roundToDouble_of_small hsmall]
    exact hle
  have hpower : 2 ^ (Nat.log2 value - 52 + 52) ≤ value := by
    rw [Nat.sub_add_cancel (by omega)]
    refine Nat.log2_self_le fun hzero => hsmall ?_
    rw [hzero]
    decide
  obtain ⟨factor, rfl⟩ := hbound.exists_multiple
    (le_trans (by exact_mod_cast hpower) hle : (2 : ℚ) ^ (Nat.log2 value - 52 + 52) ≤ bound)
  exact_mod_cast nearestMultiple_le (by exact_mod_cast hle) (Nat.two_pow_pos _)

theorem le_roundToDouble {value : ℕ} {bound : ℚ} (hbound : IsDouble bound)
    (hle : bound ≤ value) : bound ≤ (roundToDouble value : ℚ) := by
  by_cases hsmall : Nat.log2 value ≤ 52
  · rw [roundToDouble_of_small hsmall]
    exact hle
  have hpower : 2 ^ (Nat.log2 value - 52 + 52) ≤ value := by
    rw [Nat.sub_add_cancel (by omega)]
    refine Nat.log2_self_le fun hzero => hsmall ?_
    rw [hzero]
    decide
  by_cases hlarge : (2 : ℚ) ^ (Nat.log2 value - 52 + 52) ≤ bound
  · obtain ⟨factor, rfl⟩ := hbound.exists_multiple hlarge
    exact_mod_cast le_nearestMultiple (by exact_mod_cast hle) (Nat.two_pow_pos _)
  · have hround : 2 ^ 52 * 2 ^ (Nat.log2 value - 52) ≤ roundToDouble value := by
      refine le_nearestMultiple ?_ (Nat.two_pow_pos _)
      rw [← pow_add, add_comm]
      exact hpower
    rw [← pow_add, add_comm] at hround
    exact (le_of_not_ge hlarge).trans (by exact_mod_cast hround)

theorem doubleLimit_eq : doubleLimit = limit 970 := by
  rw [doubleLimit, limit_eq (by omega : 1024 = 970 + 54)]

theorem doubleLimit_pos : 0 < doubleLimit := by
  rw [doubleLimit_eq]
  exact lt_of_le_of_lt (Nat.zero_le _) (largest_lt_limit 970)

end CanyonOS.Governance
