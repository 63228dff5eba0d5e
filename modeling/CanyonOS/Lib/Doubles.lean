import Mathlib

/-!
# Doubles

The rational numbers that a double holds, and rounding to the nearest multiple of a unit, the even
one of two: between the number and its rounding there is no other multiple.
-/

namespace Doubles

/-- A finite double. -/
def IsDouble (value : ℚ) : Prop :=
  ∃ mantissa exponent : ℤ, |mantissa| < 2 ^ 53 ∧ -1074 ≤ exponent ∧ exponent ≤ 971 ∧
    value = mantissa * 2 ^ exponent

/-- The nearest multiple of a unit, the even one of two. -/
def nearestMultiple (unit value : ℕ) : ℕ :=
  let quotient := value / unit
  let remainder := value % unit
  if unit < 2 * remainder ∨ (unit = 2 * remainder ∧ quotient % 2 = 1) then (quotient + 1) * unit
  else quotient * unit

/-! ### Rounding -/

theorem nearestMultiple_one (value : ℕ) : nearestMultiple 1 value = value := by
  unfold nearestMultiple
  rw [Nat.mod_one, if_neg (by omega), Nat.div_one, mul_one]

theorem le_nearestMultiple {unit value factor : ℕ} (hle : factor * unit ≤ value)
    (hunit : 0 < unit) : factor * unit ≤ nearestMultiple unit value := by
  have hquotient : factor ≤ value / unit := (Nat.le_div_iff_mul_le hunit).mpr hle
  unfold nearestMultiple
  dsimp only
  split_ifs
  · exact Nat.mul_le_mul_right unit (hquotient.trans (Nat.le_succ _))
  · exact Nat.mul_le_mul_right unit hquotient

theorem nearestMultiple_le {unit value factor : ℕ} (hle : value ≤ factor * unit)
    (hunit : 0 < unit) : nearestMultiple unit value ≤ factor * unit := by
  have hdivision := Nat.div_add_mod value unit
  unfold nearestMultiple
  dsimp only
  split_ifs with hup
  · have hremainder : 0 < value % unit := by omega
    have hlt : value / unit < factor := by
      rw [Nat.div_lt_iff_lt_mul hunit]
      refine lt_of_le_of_ne hle fun heq => ?_
      rw [heq, Nat.mul_mod_left] at hremainder
      exact lt_irrefl 0 hremainder
    exact Nat.mul_le_mul_right unit hlt
  · have hquotient : value / unit ≤ factor := by
      rw [← Nat.mul_div_cancel factor hunit]
      exact Nat.div_le_div_right hle
    exact Nat.mul_le_mul_right unit hquotient

theorem nearestMultiple_mono {unit low high : ℕ} (hle : low ≤ high) (hunit : 0 < unit) :
    nearestMultiple unit low ≤ nearestMultiple unit high := by
  have hquotient : low / unit ≤ high / unit := Nat.div_le_div_right hle
  obtain hlt | heq := hquotient.lt_or_eq
  · -- a whole multiple lies between the two
    have hlow : low ≤ (low / unit + 1) * unit := by
      have hdivision := Nat.div_add_mod low unit
      have hmod := Nat.mod_lt low hunit
      nlinarith
    have hhigh : (low / unit + 1) * unit ≤ high :=
      (Nat.mul_le_mul_right unit hlt).trans (Nat.div_mul_le_self high unit)
    exact (nearestMultiple_le hlow hunit).trans (le_nearestMultiple hhigh hunit)
  · have hlow := Nat.div_add_mod low unit
    have hhigh := Nat.div_add_mod high unit
    rw [← heq] at hhigh
    unfold nearestMultiple
    rw [← heq]
    dsimp only
    split_ifs with hup hdown
    · exact le_rfl
    · omega
    · exact Nat.mul_le_mul_right unit (Nat.le_succ _)
    · exact le_rfl

/-! ### Finite doubles -/

/-- From here on a number rounds to more than the largest double. -/
def limit (exponent : ℕ) : ℕ :=
  2 ^ (exponent + 54) - 2 ^ exponent

theorem limit_eq {exponent last : ℕ} (hlast : last = exponent + 54) :
    limit exponent = 2 ^ last - 2 ^ exponent := by
  rw [hlast, limit]

theorem largest_lt_limit (exponent : ℕ) :
    (2 ^ 53 - 1) * 2 ^ (exponent + 1) < limit exponent := by
  have hpositive : 0 < 2 ^ exponent := Nat.two_pow_pos exponent
  have hunit : 2 ^ (exponent + 1) = 2 * 2 ^ exponent := Nat.pow_succ'
  have hlimit : 2 ^ (exponent + 54) = 2 ^ 54 * 2 ^ exponent := by
    rw [Nat.pow_add, Nat.mul_comm]
  rw [limit, hunit, hlimit]
  omega

theorem IsDouble.lt_limit {value : ℚ} (hvalue : IsDouble value) : value < limit 970 := by
  obtain ⟨mantissa, exponent, hmantissa, -, hexponent, rfl⟩ := hvalue
  have hle : (mantissa : ℚ) ≤ ((2 ^ 53 - 1 : ℕ) : ℚ) := by
    have hint : mantissa ≤ ((2 ^ 53 - 1 : ℕ) : ℤ) := by
      have habs := le_abs_self mantissa
      omega
    exact_mod_cast hint
  have hpower : (2 : ℚ) ^ exponent ≤ 2 ^ ((970 + 1 : ℕ) : ℤ) :=
    zpow_le_zpow_right₀ (by norm_num) (by omega)
  calc (mantissa : ℚ) * 2 ^ exponent
      ≤ ((2 ^ 53 - 1 : ℕ) : ℚ) * 2 ^ exponent := mul_le_mul_of_nonneg_right hle (by positivity)
    _ ≤ ((2 ^ 53 - 1 : ℕ) : ℚ) * 2 ^ ((970 + 1 : ℕ) : ℤ) :=
        mul_le_mul_of_nonneg_left hpower (Nat.cast_nonneg _)
    _ = (((2 ^ 53 - 1) * 2 ^ (970 + 1) : ℕ) : ℚ) := by
        rw [Nat.cast_mul, Nat.cast_pow _ (970 + 1), zpow_natCast, Nat.cast_ofNat]
    _ < limit 970 := Nat.cast_lt.mpr (largest_lt_limit 970)

/-- From a power on, the doubles are multiples of the unit that is 53 bits below. -/
theorem IsDouble.exists_multiple {value : ℚ} (hvalue : IsDouble value) {shift : ℕ}
    (hlarge : 2 ^ (shift + 52) ≤ value) : ∃ factor : ℕ, value = (factor * 2 ^ shift : ℕ) := by
  obtain ⟨mantissa, exponent, hmantissa, -, -, rfl⟩ := hvalue
  have hpower : (0 : ℚ) < 2 ^ exponent := by positivity
  have hpositive : (0 : ℚ) < mantissa := by
    refine pos_of_mul_pos_left (lt_of_lt_of_le ?_ hlarge) hpower.le
    positivity
  have hmantissa' : (mantissa : ℚ) < 2 ^ 53 := by
    exact_mod_cast lt_of_abs_lt hmantissa
  have hshift : (shift : ℤ) ≤ exponent := by
    have hlt : (2 : ℚ) ^ ((shift : ℤ) + 52) < 2 ^ (53 + exponent) := by
      calc (2 : ℚ) ^ ((shift : ℤ) + 52) = 2 ^ (shift + 52) := by norm_cast
        _ ≤ mantissa * 2 ^ exponent := hlarge
        _ < 2 ^ 53 * 2 ^ exponent := mul_lt_mul_of_pos_right hmantissa' hpower
        _ = 2 ^ (53 + exponent) := by
          rw [zpow_add₀ (by norm_num)]
          norm_num
    have hexponents := (zpow_lt_zpow_iff_right₀ (by norm_num : (1 : ℚ) < 2)).mp hlt
    omega
  obtain ⟨extra, hextra⟩ := Int.le.dest hshift
  have hnat : ((mantissa.toNat : ℕ) : ℚ) = mantissa := by
    have hnonneg : 0 ≤ mantissa := by exact_mod_cast hpositive.le
    exact_mod_cast congrArg (Int.cast : ℤ → ℚ) (Int.toNat_of_nonneg hnonneg)
  refine ⟨mantissa.toNat * 2 ^ extra, ?_⟩
  push_cast
  rw [hnat, ← hextra, zpow_add₀ (by norm_num), zpow_natCast, zpow_natCast]
  ring

end Doubles
