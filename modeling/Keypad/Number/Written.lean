import Keypad.Number.Shortest

/-!
# How numbers are written

A double has three texts. `shortestText` is the shortest that reads back, with a point in it or an
exponent. `canonicalText` is what the machine stores: integers below 10²¹ in full and without a
point, all else by `shortestText`. `resultText` is what a calculation shows: the canonical text
unless it is longer than twelve characters, then seven digits with an exponent.
-/

namespace Keypad

namespace Decimal

/-- Least exponent of the leading digit that is written with leading zeros. -/
def leastPositional : Int := -4

/-- Least exponent of the leading digit that is written as a power of ten. -/
def leastExponential : Int := 16

/-- The digits of a natural number. -/
def digits (n : Nat) : List Char := Nat.toDigits 10 n

/-- The exponent part: the letter, a sign in every case, and at least two digits. -/
def exponentPart (e : Int) : List Char :=
  let ds := digits e.natAbs
  'e' :: (if e < 0 then '-' else '+') :: (List.replicate (2 - ds.length) '0' ++ ds)

/-- Digits with a point behind the first, unless it is the only one, and an exponent. -/
def exponential (ds : List Char) (e : Int) : List Char :=
  match ds with
  | d :: d' :: ds' => d :: '.' :: d' :: (ds' ++ exponentPart e)
  | ds => ds ++ exponentPart e

/-- Digits times `10 ^ e`, with a point and a digit on either side of it. -/
def positional (ds : List Char) (e : Int) : List Char :=
  if 0 ≤ e then ds ++ List.replicate e.toNat '0' ++ ['.', '0']
  else
    let places := (-e).toNat
    let padded := List.replicate (places + 1 - ds.length) '0' ++ ds
    padded.take (padded.length - places) ++ '.' :: padded.drop (padded.length - places)

/-- The text of a decimal: positional unless its leading digit stands too far from the point. -/
def text (d : Decimal) : List Char :=
  let ds := digits d.coefficient
  let leading := ds.length - 1 + d.exponent
  if leastPositional ≤ leading ∧ leading < leastExponential then positional ds d.exponent
  else exponential ds leading

end Decimal

namespace Double

/-- Integers of this magnitude and above have no canonical text in full. -/
def integerLimit : Nat := 10 ^ (21 : Nat)

/-- The most characters a result may have before it is written with an exponent. -/
def resultWidth : Nat := 12

/-- Digits behind the point of a result written with an exponent. -/
def resultPlaces : Nat := 6

/-- The sign as it is written: nothing for plus. -/
def signText (x : Double) : List Char := if x.negative then ['-'] else []

/-- The shortest text that reads back, sign of zero included. -/
def shortestText (x : Double) : String := String.ofList (x.signText ++ x.shortest.text)

/-- Whether the double is an integer. -/
def isIntegral (x : Double) : Bool := x.units % unitsPerOne == 0

/-- The integral part of the magnitude. -/
def whole (x : Double) : Nat := x.units / unitsPerOne

/-- The text that the machine stores: an integer below the limit in full, zero without a sign, and
all else in the shortest text that reads back. -/
def canonicalText (x : Double) : String :=
  if x.isIntegral && decide (x.whole < integerLimit) then
    String.ofList ((if x.isZero then [] else x.signText) ++ Decimal.digits x.whole)
  else x.shortestText

/-- The text rounded to `places` digits behind the point of the leading digit. -/
def exponentialText (places : Nat) (x : Double) : String :=
  let e := if x.isZero then 0 else x.decimalExponent
  let n := x.nearestOn (e - places)
  -- Rounding up to the next power of ten moves the leading digit.
  let (n, e) := if n = 10 ^ (places + 1) then (10 ^ places, e + 1) else (n, e)
  let ds := Decimal.digits n
  String.ofList
    (x.signText ++ Decimal.exponential (List.replicate (places + 1 - ds.length) '0' ++ ds) e)

/-- The text that a calculation shows and stores. -/
def resultText (x : Double) : String :=
  let text := x.canonicalText
  if text.length ≤ resultWidth then text else x.exponentialText resultPlaces

end Double

end Keypad
