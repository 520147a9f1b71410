import Keypad.Text.Quoted

/-!
# Faults

Everything that the calculator can refuse, as causes. `Fault.kind` sorts them into the classes a
host tells apart, and `Fault.message` is the one place where those that a user is told of are put
into words.
-/

namespace Keypad

open Keypad.Text

/-- Why something was refused. -/
inductive Fault where
  /-- The text is no numeral. -/
  | unreadable (text : String)
  /-- The text is a numeral, but of no finite number. -/
  | notFinite (text : String)
  /-- A result is no finite number. -/
  | outOfRange
  | divisionByZero
  /-- Fewer than two values stand before the operator. -/
  | missingOperand (operator : String)
  /-- More than one value is left. -/
  | missingOperator
  /-- A token that is applied as an operator has the symbol of none. -/
  | noOperation (symbol : String)
  | unknownOperator (text : String)
  | unknownMark (text : String)
  | unknownColor (text : String)
  | unknownTarget (text : String)
  | notADigit (text : String)
  | notAParenthesis (text : String)
  | unlabelledVariable
  | noSuchVariable (label : String)
  | nothingToSave
  /-- The rest of a line starts with no lexeme. -/
  | unlexable (rest : String)
  /-- The digits of an index are too many, or not all of them can be read. -/
  | unreadableIndex (digits : String)
  | negativeLimit (limit : Int)
  /-- The limit does not fit a machine word. -/
  | unboundedLimit (limit : Int)
deriving DecidableEq

/-- The classes of faults. -/
inductive FaultKind where
  /-- A request the calculator does not know how to meet. -/
  | request
  | divisionByZero
  | malformed
  | overflow
  /-- A symbol that was looked up and not found. -/
  | lookup
  /-- An argument that stands for no value it could have. -/
  | argument
  /-- A whole number that does not fit a machine word. -/
  | magnitude
deriving DecidableEq

/-- Whether the user is told of such a fault and goes on. The others are no faults of a user, and
end what is going on. -/
def FaultKind.isTold : FaultKind → Bool
  | .request | .divisionByZero | .malformed | .overflow => true
  | .lookup | .argument | .magnitude => false

namespace Fault

/-- The class of the fault. -/
def kind : Fault → FaultKind
  | unreadable _ | notFinite _ | missingOperand _ | missingOperator => .malformed
  | outOfRange => .overflow
  | divisionByZero => .divisionByZero
  | noOperation _ => .lookup
  | unreadableIndex _ | negativeLimit _ => .argument
  | unboundedLimit _ => .magnitude
  | unknownOperator _ | unknownMark _ | unknownColor _ | unknownTarget _ | notADigit _
  | notAParenthesis _ | unlabelledVariable | noSuchVariable _ | nothingToSave | unlexable _ =>
    .request

/-- What the user is told. A fault that is not told has no wording of the calculator. -/
def message : Fault → String
  | unreadable text => "Cannot convert " ++ quote text
  | notFinite text => "Not a finite number: " ++ quote text
  | outOfRange => "Result out of range"
  | divisionByZero => "Division by zero"
  | missingOperand operator => "Missing operand for " ++ operator
  | missingOperator => "Missing operator between operands"
  | unknownOperator text => "Unknown operator " ++ quote text
  | unknownMark text => "Unknown grouping mark " ++ quote text
  | unknownColor text => "Unknown colour " ++ quote text
  | unknownTarget text => "Unknown target " ++ quote text
  | notADigit text => "Not a digit: " ++ quote text
  | notAParenthesis text => "Not a parenthesis: " ++ quote text
  | unlabelledVariable => "Variable needs a label"
  | noSuchVariable label => "No such variable " ++ quote label
  | nothingToSave => "Nothing to save"
  | unlexable rest => "Couldn't lex " ++ rest
  | noOperation _ | unreadableIndex _ | negativeLimit _ | unboundedLimit _ => ""

end Fault

end Keypad
