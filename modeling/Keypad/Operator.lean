import Keypad.Fault
import Keypad.Number.Reading

/-!
# Operators

The four operations: how they are written and typed, how tightly they bind, and what they do to two
doubles. `Operator.perform` refuses a zero divisor and a result that is no finite number.
-/

namespace Keypad

/-- The operations of the calculator. -/
inductive Operator where
  | add
  | subtract
  | multiply
  | divide
deriving DecidableEq

namespace Operator

/-- The symbol under which an operator is kept and shown. -/
def symbol : Operator → String
  | add => "+"
  | subtract => "-"
  | multiply => "×"
  | divide => "÷"

/-- The operator of a symbol. -/
def ofSymbol? (text : String) : Option Operator :=
  [add, subtract, multiply, divide].find? fun op => op.symbol == text

/-- Other spellings, as they are typed on a keyboard. -/
def aliases : List (String × Operator) :=
  [("−", subtract), ("*", multiply), ("x", multiply), ("/", divide)]

/-- The operator that a text spells, as a symbol or otherwise. -/
def read (text : String) : Except Fault Operator :=
  match (aliases.lookup text).or (ofSymbol? text) with
  | some op => .ok op
  | none => .error (.unknownOperator text)

/-- How tightly the operator binds. All operators associate to the left. -/
def precedence : Operator → Nat
  | add | subtract => 1
  | multiply | divide => 2

/-- The rounded result. -/
def apply : Operator → Double → Double → Number
  | add => Double.add
  | subtract => Double.sub
  | multiply => Double.mul
  | divide => Double.div

/-- The result of the operation, if it has one that is finite. -/
def perform (op : Operator) (left right : Double) : Except Fault Double :=
  if op = divide ∧ right.isZero then .error .divisionByZero
  else (op.apply left right).toDouble

/-- The symbol of an operator is that of no other. -/
theorem ofSymbol?_symbol (op : Operator) : ofSymbol? op.symbol = some op := by
  cases op <;> decide

/-- An operator is found only by its symbol. -/
theorem eq_symbol_of_ofSymbol? {text : String} {op : Operator} (h : ofSymbol? text = some op) :
    text = op.symbol :=
  (beq_iff_eq.1 (List.find?_some (p := fun op : Operator => op.symbol == text) h)).symm

end Operator

end Keypad
