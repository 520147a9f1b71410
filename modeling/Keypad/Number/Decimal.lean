import Keypad.Number.Double

/-!
# Decimals

An unsigned decimal is a natural number times a power of ten. `Decimal.toNumber` gives the double
nearest to it. Exponents far outside the range of doubles are answered without forming the power;
`toNumber_eq_ofRatio` says that this makes no difference.
-/

namespace Keypad

/-- The unsigned number `coefficient * 10 ^ exponent`. -/
structure Decimal where
  coefficient : Nat
  exponent : Int
deriving DecidableEq

namespace Decimal

/-- Numerator of the decimal's count of units. -/
def numerator (d : Decimal) : Nat := d.coefficient * 10 ^ d.exponent.toNat * unitsPerOne

/-- Denominator of the decimal's count of units. -/
def denominator (d : Decimal) : Nat := 10 ^ (-d.exponent).toNat

/-- Ten to this many places exceeds every double, and its reciprocal is less than half a unit. -/
def farPlaces : Nat := 401

/-- Above this exponent every decimal but zero exceeds the largest double. -/
def largestExponent : Int := farPlaces - 1

/-- Below this exponent the decimal is less than half the smallest double: its coefficient is less
than ten to the count of its bits. -/
def smallestExponent (coefficient : Nat) : Int := -(farPlaces + coefficient.log2)

/-- The number nearest to the decimal, with the sign given. -/
def toNumber (negative : Bool) (d : Decimal) : Number :=
  if d.coefficient = 0 ∨ d.exponent < smallestExponent d.coefficient then
    .finite (.zero negative)
  else if largestExponent < d.exponent then .infinite negative
  else .ofRatio negative d.numerator d.denominator

/-- One in the last of so many places is at most half a unit. -/
theorem two_mul_unitsPerOne_le : 2 * unitsPerOne ≤ 10 ^ farPlaces := by decide +kernel

/-- And ten to so many places is out of the range of doubles. -/
theorem two_pow_limitBits_le : 2 ^ limitBits ≤ 10 ^ farPlaces * unitsPerOne := by decide +kernel

/-- A number has fewer decimal digits than binary ones. -/
theorem coefficient_lt (c : Nat) : c < 10 ^ (c.log2 + 1) :=
  Nat.lt_of_lt_of_le Nat.lt_log2_self (Nat.pow_le_pow_left (by decide) _)

/-- The answers without a power are those of the rule. -/
theorem toNumber_eq_ofRatio (negative : Bool) (d : Decimal) :
    d.toNumber negative = .ofRatio negative d.numerator d.denominator := by
  unfold toNumber
  split
  · -- a decimal is taken for zero below the grid of the doubles, where its quotient is rounded to
    -- zero
    rename_i h
    refine (Double.ofRatio_of_lt negative ?_).symm
    rcases h with h0 | hlow
    · simp only [numerator, denominator, h0, Nat.zero_mul, Nat.mul_zero]
      exact Nat.pow_pos (by decide)
    · unfold smallestExponent at hlow
      have hexp : d.exponent.toNat = 0 := by omega
      have hneg : d.coefficient.log2 + 1 + farPlaces ≤ (-d.exponent).toNat := by omega
      calc 2 * d.numerator = d.coefficient * (2 * unitsPerOne) := by
            unfold numerator
            rw [hexp, Nat.pow_zero, Nat.mul_one, Nat.mul_left_comm]
        _ ≤ d.coefficient * 10 ^ farPlaces := Nat.mul_le_mul_left _ two_mul_unitsPerOne_le
        _ < 10 ^ (d.coefficient.log2 + 1) * 10 ^ farPlaces :=
            Nat.mul_lt_mul_of_pos_right (coefficient_lt _) (Nat.pow_pos (by decide))
        _ = 10 ^ (d.coefficient.log2 + 1 + farPlaces) := (Nat.pow_add ..).symm
        _ ≤ d.denominator := Nat.pow_le_pow_right (by decide) hneg
  · rename_i hmid
    split
    · rename_i hhigh
      unfold largestExponent at hhigh
      -- and for infinity beyond the range of doubles, where its quotient is
      refine (Number.ofRatio_of_limit_le negative ?_).symm
      have hden : d.denominator = 1 := by
        unfold denominator
        rw [show (-d.exponent).toNat = 0 by omega, Nat.pow_zero]
      have hc : 1 ≤ d.coefficient := by
        have : d.coefficient ≠ 0 := fun h => hmid (Or.inl h)
        omega
      rw [hden, Nat.div_one]
      calc 2 ^ limitBits ≤ 10 ^ farPlaces * unitsPerOne := two_pow_limitBits_le
        _ ≤ 10 ^ d.exponent.toNat * unitsPerOne :=
            Nat.mul_le_mul_right _ (Nat.pow_le_pow_right (by decide) (by omega))
        _ ≤ d.numerator := by
            unfold numerator
            rw [Nat.mul_assoc]
            exact Nat.le_mul_of_pos_left _ hc
    · rfl

end Decimal

end Keypad
