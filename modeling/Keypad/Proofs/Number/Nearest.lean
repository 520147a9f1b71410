import Keypad.Proofs.Number.DecimalValue
import Mathlib.Algebra.Order.Field.Power
import Mathlib.Data.Nat.Cast.Order.Field
import Mathlib.Data.Rat.Cast.Order
import Mathlib.Tactic.Linarith

/-!
# The nearest double

Doubles and decimals are rational numbers, and a decimal is read as the double nearest to it. That
comes down to counts of units: a quotient is rounded to the nearest point of its own grid, and the
counts that fit but are not on that grid lie below its lower end, which the quotient reaches.

* `divRound_nearest`         — no integer is nearer to a quotient than the rounded one.
* `roundUnits_nearest`       — no count that fits is nearer.
* `roundUnits_mono`          — so rounding keeps the order of quotients.
* `Decimal.toNumber_nearest` — no double is nearer to a decimal than the one it is read as.
-/

namespace Keypad

variable {num den : ℕ}

/-! ## Integers -/

/-- The rounded quotient is within a half of the true one. -/
theorem abs_divRound_sub_le (num : ℕ) (hden : 0 < den) :
    |(divRound num den : ℚ) - num / den| ≤ 1 / 2 := by
  have hpos : (0 : ℚ) < den := by exact_mod_cast hden
  obtain ⟨hle, hge⟩ := two_mul_divRound_le num hden
  have hle' : 2 * ((divRound num den : ℚ) * den) ≤ 2 * num + den := by exact_mod_cast hle
  have hge' : 2 * (num : ℚ) ≤ 2 * (divRound num den * den) + den := by exact_mod_cast hge
  have herror : (divRound num den : ℚ) - num / den = (divRound num den * den - num) / den := by
    rw [sub_div, mul_div_cancel_right₀ _ hpos.ne']
  rw [herror, abs_div, abs_of_pos hpos, div_le_iff₀ hpos, abs_le]
  constructor
  · linarith
  · linarith

/-- No integer is nearer to a quotient than the rounded one. -/
theorem divRound_nearest (num : ℕ) (hden : 0 < den) (m : ℕ) :
    |(divRound num den : ℚ) - num / den| ≤ |(m : ℚ) - num / den| := by
  by_cases hm : m = divRound num den
  · rw [hm]
  · have hhalf := abs_divRound_sub_le num hden
    -- any other integer is at least one away from the rounded quotient
    have hone : 1 ≤ |(m : ℚ) - divRound num den| := by
      have hne : (m : ℤ) - divRound num den ≠ 0 := by omega
      exact_mod_cast Int.one_le_abs hne
    have htriangle := abs_sub_le (m : ℚ) (num / den) (divRound num den)
    rw [abs_sub_comm (num / den : ℚ)] at htriangle
    linarith

/-! ## Counts of units -/

/-- Among the multiples of two to the excess bits of the quotient the rounded count is nearest. -/
theorem roundUnits_nearest_mul (num : ℕ) (hden : 0 < den) (k : ℕ) :
    |(roundUnits num den : ℚ) - num / den| ≤
      |((k * 2 ^ excessBits (num / den) : ℕ) : ℚ) - num / den| := by
  unfold roundUnits
  simp only
  generalize excessBits (num / den) = s
  have hgrid : (0 : ℚ) < 2 ^ s := by positivity
  have hquot : (num : ℚ) / den = num / (den * 2 ^ s : ℕ) * 2 ^ s := by
    push_cast
    rw [← div_div, div_mul_cancel₀ _ hgrid.ne']
  have hnearest := divRound_nearest num (Nat.mul_pos hden (Nat.two_pow_pos s)) k
  rw [hquot]
  push_cast at hnearest ⊢
  rw [← sub_mul, ← sub_mul, abs_mul, abs_mul]
  exact mul_le_mul_of_nonneg_right hnearest (abs_nonneg _)

/-- A count with fewer excess bits lies below the lower end of the grid. -/
theorem lt_of_excessBits_lt {m s : ℕ} (h : excessBits m < s) : m < 2 ^ (52 : ℕ) * 2 ^ s := by
  by_cases hm : m = 0
  · rw [hm]
    positivity
  · rw [← Nat.pow_add, ← Nat.log2_lt hm]
    unfold excessBits at h
    omega

/-- No count that fits is nearer to a quotient than the rounded one. -/
theorem roundUnits_nearest (num : ℕ) (hden : 0 < den) {m : ℕ} (hm : 2 ^ excessBits m ∣ m) :
    |(roundUnits num den : ℚ) - num / den| ≤ |(m : ℚ) - num / den| := by
  by_cases hbits : excessBits (num / den) ≤ excessBits m
  · obtain ⟨k, hk⟩ := (Nat.pow_dvd_pow 2 hbits).trans hm
    have hnearest := roundUnits_nearest_mul num hden k
    rwa [Nat.mul_comm, ← hk] at hnearest
  · -- the count is not on the grid, so it lies below the power of two at the grid's lower end
    have hbelow : (m : ℚ) ≤ (2 ^ (52 : ℕ) * 2 ^ excessBits (num / den) : ℕ) := by
      exact_mod_cast (lt_of_excessBits_lt (by omega)).le
    have hreach : ((2 ^ (52 : ℕ) * 2 ^ excessBits (num / den) : ℕ) : ℚ) ≤ num / den := by
      have h52 := le_div_pow_excessBits (q := num / den) (by omega)
      have hfloor := (Nat.le_div_iff_mul_le (Nat.two_pow_pos _)).1 h52
      calc ((2 ^ (52 : ℕ) * 2 ^ excessBits (num / den) : ℕ) : ℚ) ≤ (num / den : ℕ) := by
            exact_mod_cast hfloor
        _ ≤ num / den := Nat.cast_div_le
    have hnearest := roundUnits_nearest_mul num hden (2 ^ (52 : ℕ))
    rw [abs_of_nonpos (sub_nonpos.2 hreach)] at hnearest
    rw [abs_of_nonpos (sub_nonpos.2 (hbelow.trans hreach))]
    linarith

/-- What is nearer than a smaller one lies beyond the middle of the two. -/
theorem add_le_two_mul_of_nearer {p q r : ℚ} (hlt : p < r) (h : |r - q| ≤ |p - q|) :
    p + r ≤ 2 * q := by
  by_contra hmiddle
  have hp : |p - q| < r - q := abs_lt.2 ⟨by linarith, by linarith⟩
  have hr := le_abs_self (r - q)
  linarith

/-- Rounding keeps the order of quotients. -/
theorem roundUnits_mono {num' den' : ℕ} (hden : 0 < den) (hden' : 0 < den')
    (h : (num : ℚ) / den ≤ num' / den') : roundUnits num den ≤ roundUnits num' den' := by
  by_contra hlt
  have hlt' : (roundUnits num' den' : ℚ) < roundUnits num den := by
    exact_mod_cast Nat.lt_of_not_le hlt
  have hlow := add_le_two_mul_of_nearer hlt'
    (roundUnits_nearest num hden (pow_excessBits_dvd_roundUnits num' den'))
  have hhigh := add_le_two_mul_of_nearer (neg_lt_neg hlt') (q := -(num' / den')) (by
    have hnearest := roundUnits_nearest num' hden' (pow_excessBits_dvd_roundUnits num den)
    rwa [neg_sub_neg, neg_sub_neg, abs_sub_comm, abs_sub_comm (num' / den' : ℚ)])
  -- both quotients are the middle of the two counts, so they are rounded alike
  have heq : (num : ℚ) / den = num' / den' := by linarith
  have hcross : num * den' = num' * den := by
    rw [div_eq_div_iff (by positivity) (by positivity)] at heq
    exact_mod_cast heq
  exact hlt (roundUnits_congr hden hden' hcross).le

/-! ## Rational values -/

/-- A magnitude with a sign. -/
def signed (negative : Bool) (q : ℚ) : ℚ := if negative then -q else q

/-- The sign makes no difference to the distance of two magnitudes. -/
theorem abs_signed_sub (negative : Bool) (p q : ℚ) :
    |signed negative p - signed negative q| = |p - q| := by
  cases negative with
  | false => rfl
  | true => rw [signed, signed, if_pos rfl, if_pos rfl, neg_sub_neg, abs_sub_comm]

/-- A magnitude with a sign has that magnitude. -/
theorem abs_signed (negative : Bool) {q : ℚ} (hq : 0 ≤ q) : |signed negative q| = q := by
  cases negative with
  | false => exact abs_of_nonneg hq
  | true => exact (abs_neg q).trans (abs_of_nonneg hq)

namespace Double

/-- The magnitude of a double as a rational number. -/
def magnitude (x : Double) : ℚ := x.units / unitsPerOne

/-- The rational number that a double is. -/
def value (x : Double) : ℚ := x.signedUnits / unitsPerOne

/-- The value of a double is its magnitude with its sign. -/
theorem value_eq_signed (x : Double) : x.value = signed x.negative x.magnitude := by
  unfold value signedUnits signed magnitude
  split
  · push_cast
    ring
  · rfl

theorem magnitude_nonneg (x : Double) : 0 ≤ x.magnitude := by
  unfold magnitude
  positivity

theorem abs_value (x : Double) : |x.value| = x.magnitude := by
  rw [value_eq_signed]
  exact abs_signed _ x.magnitude_nonneg

end Double

/-- Ten to an integer, as a quotient of powers. -/
theorem ten_zpow (e : ℤ) : (10 : ℚ) ^ e = 10 ^ e.toNat / 10 ^ (-e).toNat := by
  have he : e = (e.toNat : ℤ) - ((-e).toNat : ℤ) := by omega
  conv_lhs => rw [he]
  rw [zpow_sub₀ (by norm_num), zpow_natCast, zpow_natCast]

namespace Number

/-- A quotient that is rounded to a double has its sign and its count of units. -/
theorem of_ofRatio_eq_finite {negative : Bool} {y : Double}
    (h : ofRatio negative num den = .finite y) :
    y.negative = negative ∧ y.units = roundUnits num den := by
  unfold ofRatio at h
  split at h
  · obtain rfl := Number.finite.inj h
    exact ⟨rfl, rfl⟩
  · cases h

end Number

namespace Decimal

/-- The rational number that a decimal is. -/
def value (d : Decimal) : ℚ := d.coefficient * 10 ^ d.exponent

theorem value_nonneg (d : Decimal) : 0 ≤ d.value := by
  unfold value
  positivity

/-- The decimal in units. -/
theorem numerator_div_denominator (d : Decimal) :
    (d.numerator : ℚ) / d.denominator = d.value * unitsPerOne := by
  unfold numerator denominator value
  rw [ten_zpow]
  push_cast
  ring

end Decimal

theorem unitsPerOne_cast_pos : (0 : ℚ) < unitsPerOne := by
  exact_mod_cast Nat.two_pow_pos scaleBits

/-- How far a double is from a decimal, in units. -/
theorem Double.abs_units_sub (x : Double) (d : Decimal) :
    |(x.units : ℚ) - d.numerator / d.denominator| = |x.magnitude - d.value| * unitsPerOne := by
  have hunits : (x.units : ℚ) = x.magnitude * unitsPerOne := by
    rw [magnitude, div_mul_cancel₀ _ unitsPerOne_cast_pos.ne']
  rw [hunits, d.numerator_div_denominator, ← sub_mul, abs_mul, abs_of_pos unitsPerOne_cast_pos]

/-- No double is nearer to a decimal than the one that it is read as. -/
theorem Decimal.toNumber_nearest {d : Decimal} {negative : Bool} {y : Double}
    (h : d.toNumber negative = .finite y) (z : Double) :
    |y.value - signed negative d.value| ≤ |z.value - signed negative d.value| := by
  rw [toNumber_eq_ofRatio] at h
  obtain ⟨hsign, hunits⟩ := Number.of_ofRatio_eq_finite h
  have hnearest := roundUnits_nearest d.numerator d.denominator_pos z.representable.2
  rw [← hunits, y.abs_units_sub, z.abs_units_sub] at hnearest
  calc |y.value - signed negative d.value|
      = |y.magnitude - d.value| := by rw [y.value_eq_signed, hsign, abs_signed_sub]
    _ ≤ |z.magnitude - d.value| := le_of_mul_le_mul_right hnearest unitsPerOne_cast_pos
    -- with the other sign a double is only farther away
    _ = |(|z.value| - |signed negative d.value|)| := by
        rw [z.abs_value, abs_signed _ d.value_nonneg]
    _ ≤ |z.value - signed negative d.value| := abs_abs_sub_abs_le_abs_sub _ _

end Keypad
