import Keypad.Number.Decimal
import Keypad.Text.Blank
import Keypad.Text.Digit

/-!
# Numerals

The text of a number: an optional sign, digits with an optional fraction, an optional exponent, and
white space around it. Digits are those of any script, and a single underscore may stand between
two of them. The words for infinity and for no number are numerals too. `Numeral.parse` reads one,
and `Numeral.toNumber` is the number it stands for.
-/

namespace Keypad

open Keypad.Text

/-- What a text of a number says. -/
inductive Numeral where
  | decimal (negative : Bool) (magnitude : Decimal)
  | infinite (negative : Bool)
  | undefined
deriving DecidableEq

namespace Numeral

/-- The number a numeral stands for. -/
def toNumber : Numeral → Number
  | .decimal negative d => d.toNumber negative
  | .infinite negative => .infinite negative
  | .undefined => .undefined

/-- Whether the text goes on with a digit that can be read. -/
def startsWithDigit : List Char → Bool
  | [] => false
  | c :: _ => (digitValue? c).isSome

/-- The values of the digits at the front, and the text behind them. An underscore between two
digits belongs to them. -/
def spanDigits : List Char → List Nat × List Char
  | [] => ([], [])
  | c :: cs =>
    match digitValue? c with
    | none => ([], c :: cs)
    | some d =>
      let more :=
        match cs with
        | '_' :: cs' => if startsWithDigit cs' then spanDigits cs' else ([], '_' :: cs')
        | cs => spanDigits cs
      (d :: more.1, more.2)

/-- The natural number that decimal digits write. -/
def ofDigits (ds : List Nat) : Nat := ds.foldl (fun n d => 10 * n + d) 0

/-- A sign at the front, if there is one: whether it is minus, and the text behind it. -/
def splitSign : List Char → Bool × List Char
  | '-' :: cs => (true, cs)
  | '+' :: cs => (false, cs)
  | cs => (false, cs)

/-- The exponent that the text is, zero for no text: the letter, a sign and digits. -/
def parseExponent : List Char → Option Int
  | [] => some 0
  | c :: cs =>
    if c = 'e' ∨ c = 'E' then
      let (negative, rest) := splitSign cs
      match spanDigits rest with
      | ([], _) => none
      | (ds, []) => some (if negative then -(ofDigits ds) else ofDigits ds)
      | (_, _ :: _) => none
    else none

/-- The fraction behind a point, if the text goes on with one. -/
def splitFraction : List Char → List Nat × List Char
  | '.' :: cs => spanDigits cs
  | cs => ([], cs)

/-- The unsigned decimal that the text is. There is a digit before the point or behind it. -/
def parseDecimal (cs : List Char) : Option Decimal :=
  let (whole, rest) := spanDigits cs
  let (fraction, rest) := splitFraction rest
  if whole.isEmpty && fraction.isEmpty then none
  else (parseExponent rest).map fun e => ⟨ofDigits (whole ++ fraction), e - fraction.length⟩

/-- The numeral that the text is, apart from white space at its ends. Letters may be of either
case. -/
def parse (cs : List Char) : Option Numeral :=
  let (negative, body) := splitSign (trim isBlank cs)
  let letters := body.map Char.toLower
  if letters = "inf".toList ∨ letters = "infinity".toList then some (.infinite negative)
  else if letters = "nan".toList then some .undefined
  else (parseDecimal body).map (.decimal negative)

end Numeral

end Keypad
