/-!
# Sets of characters

The character classes of the key text are properties of code points, and a property is kept as the
list of the ranges it covers, in ascending order. `CharSet.contains` asks one character.
-/

namespace Keypad.Text

/-- A set of characters, as ranges of code points with both ends included. -/
structure CharSet where
  /-- First and last code point of each run. -/
  ranges : List (Nat × Nat)

namespace CharSet

/-- Whether the character lies in one of the ranges. -/
def contains (s : CharSet) (c : Char) : Bool :=
  s.ranges.any fun r => decide (r.1 ≤ c.toNat) && decide (c.toNat ≤ r.2)

/-- A character is in the set if its code lies in one of the ranges. -/
theorem contains_iff {s : CharSet} {c : Char} :
    s.contains c = true ↔ ∃ r ∈ s.ranges, r.1 ≤ c.toNat ∧ c.toNat ≤ r.2 := by
  simp [contains]

end CharSet

end Keypad.Text
