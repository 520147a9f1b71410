import Keypad.Number.Decimal

/-!
# The shortest decimal of a double

Of the decimals that read back as a double, the shortest is the one on the coarsest grid of
multiples of a power of ten that holds any. On a grid only the two neighbours of the double need to
be tried, the nearer one first. `Double.shortest` searches the grids downward from the double's own
decimal exponent, and `Double.nearestOn` rounds to a grid that is given.
-/

namespace Keypad.Double

/-- Numerator of the magnitude over `10 ^ e`. -/
def gridNumerator (x : Double) (e : Int) : Nat := x.units * 10 ^ (-e).toNat

/-- Denominator of the magnitude over `10 ^ e`. -/
def gridDenominator (e : Int) : Nat := unitsPerOne * 10 ^ e.toNat

/-- The multiple of `10 ^ e` just below the magnitude. -/
def floorOn (x : Double) (e : Int) : Nat := x.gridNumerator e / gridDenominator e

/-- The multiple of `10 ^ e` nearest to the magnitude, ties to even. -/
def nearestOn (x : Double) (e : Int) : Nat := divRound (x.gridNumerator e) (gridDenominator e)

/-- Whether the decimal, with the sign of the double, reads as it. -/
def readsFrom (x : Double) (d : Decimal) : Bool := d.toNumber x.negative == .finite x

/-- The point of the grid of `10 ^ e` that reads as the double, the nearest if there are two. -/
def pointOn? (x : Double) (e : Int) : Option Decimal :=
  [x.nearestOn e, x.floorOn e, x.floorOn e + 1].map (⟨·, e⟩) |>.find? x.readsFrom

/-- The magnitude in full. -/
def exactDecimal (x : Double) : Decimal := ⟨x.units * 5 ^ scaleBits, -scaleBits⟩

/-- The exponent of the leading decimal digit of a magnitude that is not zero: the digits of the
number moved up by so many places that every double becomes an integer part. -/
def decimalExponent (x : Double) : Int :=
  (Nat.toDigits 10 (x.floorOn (-Decimal.farPlaces))).length - 1 - Decimal.farPlaces

/-- The coarsest of the `n` grids from `10 ^ e` downward that holds a decimal reading as the
double; the magnitude in full if none does. -/
def searchFrom (x : Double) : Nat → Int → Decimal
  | 0, _ => x.exactDecimal
  | n + 1, e => (x.pointOn? e).getD (x.searchFrom n (e - 1))

/-- The shortest decimal that reads as the double. Seventeen digits always suffice, and one grid
more is tried for a magnitude just below a power of ten. -/
def shortest (x : Double) : Decimal :=
  if x.isZero then ⟨0, 0⟩ else x.searchFrom 18 (x.decimalExponent + 1)

/-- A point that is found on a grid reads as the double. -/
theorem readsFrom_of_pointOn? {x : Double} {e : Int} {d : Decimal} (h : x.pointOn? e = some d) :
    x.readsFrom d = true :=
  List.find?_some h

/-- A point that is found on a grid lies on it. -/
theorem exponent_of_pointOn? {x : Double} {e : Int} {d : Decimal} (h : x.pointOn? e = some d) :
    d.exponent = e := by
  obtain ⟨n, _, rfl⟩ := List.mem_map.1 (List.mem_of_find?_eq_some h)
  rfl

end Keypad.Double
