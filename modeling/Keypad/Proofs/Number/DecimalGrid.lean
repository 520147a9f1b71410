import Keypad.Proofs.Number.Nearest
import Keypad.Proofs.Number.ReadBack
import Mathlib.Tactic.FieldSimp

/-!
# Doubles on decimal grids

The points of a decimal grid are the multiples of a power of ten. A double is rounded to one of them
with an error of half a step at most. On the grid that is some places below its leading digit that
is a small part of the double itself, however small it is: the leading digit is never zero.

* `Double.ten_zpow_decimalExponent_le`, `Double.magnitude_lt_ten_zpow` — the leading digit.
* `Double.magnitude_between`         — the two neighbours of a double on a grid.
* `Double.abs_roundedDecimal_sub_le` — the error of a number of places.
-/

namespace Keypad

namespace Decimal

theorem value_one (e : ℤ) : (⟨1, e⟩ : Decimal).value = 10 ^ e := by
  rw [value, Nat.cast_one, one_mul]

/-- Places of the exponent can go to the coefficient. -/
theorem value_power (e : ℤ) (k : ℕ) :
    (⟨1, e + k⟩ : Decimal).value = (⟨10 ^ k, e⟩ : Decimal).value := by
  rw [value_one, value, zpow_add₀ (by norm_num), zpow_natCast, mul_comm]
  push_cast
  rfl

/-- A larger coefficient on a coarser grid is worth more. -/
theorem value_le {d d' : Decimal} (hcoefficient : d.coefficient ≤ d'.coefficient)
    (hexponent : d.exponent ≤ d'.exponent) : d.value ≤ d'.value := by
  have hcast : (d.coefficient : ℚ) ≤ d'.coefficient := by exact_mod_cast hcoefficient
  have hpower : (10 : ℚ) ^ d.exponent ≤ 10 ^ d'.exponent :=
    zpow_le_zpow_right₀ (by norm_num) hexponent
  exact mul_le_mul hcast hpower (by positivity) (Nat.cast_nonneg _)

end Decimal

namespace Double

variable {x : Double}

/-! ## The leading digit -/

theorem units_pos (h : x.isZero = false) : 0 < x.units := by
  rw [isZero, beq_eq_false_iff_ne] at h
  omega

/-- The magnitude reaches the power of ten at its leading digit. -/
theorem ten_zpow_decimalExponent_le (h : x.isZero = false) :
    (10 : ℚ) ^ x.decimalExponent ≤ x.magnitude := by
  obtain ⟨n, hexponent, -, hge⟩ := x.exists_decimalExponent
  -- the grid of the digits is so fine that the smallest double reaches its first point
  have hreach : 10 ^ n * unitsPerOne ≤ x.units * 10 ^ Decimal.farPlaces := by
    by_cases hn : 0 < n
    · exact hge hn
    · obtain rfl : n = 0 := by omega
      have hfine := Decimal.two_mul_unitsPerOne_le
      have hunits := Nat.mul_le_mul_right (10 ^ Decimal.farPlaces) (units_pos h)
      omega
  have hreach' : (10 : ℚ) ^ n * unitsPerOne ≤ x.units * 10 ^ Decimal.farPlaces := by
    exact_mod_cast hreach
  have hfar : (0 : ℚ) < 10 ^ Decimal.farPlaces := by positivity
  rw [magnitude, hexponent, zpow_sub₀ (by norm_num), zpow_natCast, zpow_natCast,
    div_le_div_iff₀ hfar unitsPerOne_cast_pos]
  exact hreach'

/-- The magnitude stays below the power of ten above its leading digit. -/
theorem magnitude_lt_ten_zpow (x : Double) : x.magnitude < 10 ^ (x.decimalExponent + 1) := by
  obtain ⟨n, hexponent, hlt, -⟩ := x.exists_decimalExponent
  have hlt' : (x.units : ℚ) * 10 ^ Decimal.farPlaces < 10 ^ (n + 1) * unitsPerOne := by
    exact_mod_cast hlt
  have hfar : (0 : ℚ) < 10 ^ Decimal.farPlaces := by positivity
  rw [magnitude, hexponent,
    show (n : ℤ) - Decimal.farPlaces + 1 = (n + 1 : ℕ) - (Decimal.farPlaces : ℤ) by omega,
    zpow_sub₀ (by norm_num), zpow_natCast, zpow_natCast, div_lt_div_iff₀ unitsPerOne_cast_pos hfar]
  exact hlt'

/-! ## Points of a grid -/

/-- The magnitude in steps of a grid. -/
theorem magnitude_eq_grid (x : Double) (e : ℤ) :
    x.magnitude = (x.gridNumerator e : ℚ) / gridDenominator e * 10 ^ e := by
  have hunit := unitsPerOne_cast_pos.ne'
  rw [magnitude, ten_zpow, gridNumerator, gridDenominator]
  push_cast
  field_simp

/-- How far a point of a grid is from the magnitude, in steps of the grid. -/
theorem abs_point_sub (x : Double) (c : ℕ) (e : ℤ) :
    |(⟨c, e⟩ : Decimal).value - x.magnitude| =
      |(c : ℚ) - x.gridNumerator e / gridDenominator e| * 10 ^ e := by
  have hstep : (0 : ℚ) < 10 ^ e := by positivity
  rw [Decimal.value, x.magnitude_eq_grid e, ← sub_mul, abs_mul, abs_of_pos hstep]

/-- The magnitude lies between its neighbours on a grid. -/
theorem magnitude_between (x : Double) (e : ℤ) :
    (⟨x.floorOn e, e⟩ : Decimal).value ≤ x.magnitude ∧
      x.magnitude ≤ (⟨x.floorOn e + 1, e⟩ : Decimal).value := by
  have hpos := gridDenominator_pos e
  have hpos' : (0 : ℚ) < gridDenominator e := by exact_mod_cast hpos
  have hstep : (0 : ℚ) ≤ 10 ^ e := by positivity
  unfold Decimal.value
  rw [x.magnitude_eq_grid e]
  constructor
  · exact mul_le_mul_of_nonneg_right Nat.cast_div_le hstep
  · refine mul_le_mul_of_nonneg_right ?_ hstep
    rw [div_le_iff₀ hpos']
    have hlt := Nat.lt_mul_div_succ (x.gridNumerator e) hpos
    have hle : (x.gridNumerator e : ℚ) ≤ gridDenominator e * (x.floorOn e + 1 : ℕ) := by
      exact_mod_cast hlt.le
    rwa [mul_comm] at hle

/-- With so many places behind the leading digit a number other than zero is rounded by half a unit
of the last place at most. -/
theorem abs_roundedDecimal_sub_le (places : ℕ) (h : x.isZero = false) :
    |(x.roundedDecimal places).value - x.magnitude| ≤ x.magnitude / 10 ^ places / 2 := by
  have hlead := ten_zpow_decimalExponent_le h
  have hhalf := abs_divRound_sub_le (x.gridNumerator (x.decimalExponent - places))
    (gridDenominator_pos (x.decimalExponent - places))
  -- the unit of the last place is a part of the power at the leading digit
  have hlast : (10 : ℚ) ^ (x.decimalExponent - places) = 10 ^ x.decimalExponent / 10 ^ places := by
    rw [zpow_sub₀ (by norm_num), zpow_natCast]
  unfold roundedDecimal
  rw [abs_point_sub, nearestOn]
  calc _ ≤ 1 / 2 * (10 : ℚ) ^ (x.decimalExponent - places) :=
        mul_le_mul_of_nonneg_right hhalf (by positivity)
    _ = 10 ^ x.decimalExponent / 10 ^ places / 2 := by
        rw [hlast]
        ring
    _ ≤ x.magnitude / 10 ^ places / 2 := by gcongr

end Double

end Keypad
