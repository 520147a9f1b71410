import Keypad.Text.Digit

/-!
# Display text of a number

For reading, the digits before the point are set in groups of three, counted from the right and
separated by commas. `displayText` does that to the text of a plain number, whose own commas it
drops first; a text with an exponent, or one that is no plain number, is shown as it stands. `line`
adds the unit of the number.
-/

namespace Keypad.Number

open Keypad.Text

/-- Sets a comma before every third digit from the right. -/
def groupThousands : List Char → List Char
  | [] => []
  | d :: ds =>
    if ds.length % 3 = 0 ∧ ds ≠ [] then d :: ',' :: groupThousands ds
    else d :: groupThousands ds

/-- Grouping changes nothing but the commas. -/
theorem filter_groupThousands (ds : List Char) :
    (groupThousands ds).filter (· != ',') = ds.filter (· != ',') := by
  induction ds with
  | nil => rfl
  | cons d ds ih =>
    unfold groupThousands
    split
    · simp [List.filter_cons, ih]
    · simp [List.filter_cons, ih]

/-- Whether the character may stand before the point of a plain number. -/
def isGrouped (c : Char) : Bool := isDigit c || c == ','

/-- Whether the text is nothing, or a point and digits. -/
def isFraction : List Char → Bool
  | [] => true
  | c :: cs => c == '.' && cs.all isDigit

/-- The text without one line feed at its end, if it has one there. -/
def dropFinalNewline (cs : List Char) : List Char :=
  if cs.getLast? = some '\n' then cs.dropLast else cs

/-- A sign at the front as text, and what follows it. -/
def spanSign : List Char → List Char × List Char
  | '-' :: cs => (['-'], cs)
  | '+' :: cs => (['+'], cs)
  | cs => ([], cs)

/-- The grouped form of a plain number: a sign, digits and commas, a fraction, and possibly a line
feed at the end, which is dropped. -/
def regroup? (cs : List Char) : Option (List Char) :=
  let (sign, body) := spanSign (dropFinalNewline cs)
  let whole := body.takeWhile isGrouped
  let fraction := body.dropWhile isGrouped
  if isFraction fraction then
    some (sign ++ groupThousands (whole.filter (· != ',')) ++ fraction)
  else none

/-- Whether the text has an exponent in it. -/
def hasExponent (cs : List Char) : Bool := cs.any fun c => c == 'e' || c == 'E'

/-- The text as it is displayed. -/
def displayText (text : String) : String :=
  if hasExponent text.toList then text
  else ((regroup? text.toList).map String.ofList).getD text

/-- The line of a number: its display text, and its unit behind a space if it has one. -/
def line (text : String) (unit : Option String) : String :=
  match unit.filter (· ≠ "") with
  | none => displayText text
  | some u => displayText text ++ " " ++ u

end Keypad.Number
