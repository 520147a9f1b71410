import Keypad.Number.Rounding

/-!
# Doubles

The numbers the calculator computes with: a sign and a magnitude, counted in units of 2⁻¹⁰⁷⁴ and
representable with 53 bits. Every operation is done exactly on the counts and rounded once, by
`Number.ofRatio`, so a result is the double nearest to the true one, with ties to even. What lies
beyond the largest double becomes infinite.
-/

namespace Keypad

/-- The common scale: a double's magnitude times `2 ^ scaleBits` is its count of units. -/
def scaleBits : Nat := 1074

/-- One, in units. -/
def unitsPerOne : Nat := 2 ^ scaleBits

/-- A finite double: its sign and its magnitude in units of `2 ^ (-scaleBits)`. -/
structure Double where
  /-- Whether the sign is minus; zero has both signs. -/
  negative : Bool
  /-- The magnitude, counted in units. -/
  units : Nat
  representable : Representable units
deriving DecidableEq

/-- A double, an infinity, or the result that is no number. -/
inductive Number where
  | finite (x : Double)
  | infinite (negative : Bool)
  | undefined
deriving DecidableEq

/-- The number nearest to `num / den` units. -/
def Number.ofRatio (negative : Bool) (num den : Nat) : Number :=
  if h : roundUnits num den < 2 ^ limitBits then
    .finite ⟨negative, roundUnits num den, h, pow_excessBits_dvd_roundUnits num den⟩
  else .infinite negative

/-- A quotient that reaches the limit is infinite. -/
theorem Number.ofRatio_of_limit_le (negative : Bool) {num den : Nat}
    (h : 2 ^ limitBits ≤ num / den) : Number.ofRatio negative num den = .infinite negative :=
  dif_neg (Nat.not_lt.2 (two_pow_le_roundUnits h))

/-- A double is the number nearest to itself. -/
theorem Number.ofRatio_units (x : Double) : Number.ofRatio x.negative x.units 1 = .finite x := by
  have hround := roundUnits_of_dvd x.representable.2
  unfold Number.ofRatio
  rw [dif_pos (by rw [hround]; exact x.representable.1)]
  simp only [hround]

namespace Double

/-- Zero has no bits to keep. -/
theorem representable_zero : Representable 0 := by
  constructor
  · exact Nat.two_pow_pos _
  · exact Nat.dvd_zero _

/-- The zero of a sign. -/
def zero (negative : Bool) : Double := ⟨negative, 0, representable_zero⟩

/-- Less than half a unit is zero. -/
theorem ofRatio_of_lt (negative : Bool) {num den : Nat} (h : 2 * num < den) :
    Number.ofRatio negative num den = .finite (zero negative) := by
  have hround := roundUnits_of_lt h
  unfold Number.ofRatio
  rw [dif_pos (by rw [hround]; exact Nat.two_pow_pos _)]
  simp only [hround, zero]

/-- Whether it is a zero of either sign. -/
def isZero (x : Double) : Bool := x.units == 0

/-- The count of units with its sign. -/
def signedUnits (x : Double) : Int := if x.negative then -x.units else x.units

/-- The same magnitude with the other sign. -/
def neg (x : Double) : Double := ⟨!x.negative, x.units, x.representable⟩

/-- The sum. A sum of zero is negative only if both parts are. -/
def add (x y : Double) : Number :=
  let sum := x.signedUnits + y.signedUnits
  let negative := if sum = 0 then x.negative && y.negative else decide (sum < 0)
  .ofRatio negative sum.natAbs 1

/-- The difference. -/
def sub (x y : Double) : Number := x.add y.neg

/-- The product. -/
def mul (x y : Double) : Number :=
  .ofRatio (x.negative ^^ y.negative) (x.units * y.units) unitsPerOne

/-- The quotient: by zero it is infinite, and undefined if the dividend is zero as well. -/
def div (x y : Double) : Number :=
  if y.isZero then
    if x.isZero then .undefined else .infinite (x.negative ^^ y.negative)
  else .ofRatio (x.negative ^^ y.negative) (x.units * unitsPerOne) y.units

end Double

end Keypad
