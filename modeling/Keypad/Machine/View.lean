import Keypad.Machine.Basic

/-!
# Reading the machine

What a host shows after an action. The expression is the committed tokens and, while a number is
being typed, the buffer; it cannot be shown if the buffer holds no number.
-/

namespace Keypad.Machine

/-- The text of the buffer, grouped for reading. -/
def display (m : Machine) : String := Number.displayText m.buffer

/-- The line of the buffer's number, with its unit. -/
def displayLine (m : Machine) : String := Number.line m.buffer m.naming.unit

/-- The committed tokens, and the number being typed behind them. -/
def expression (m : Machine) : Except Fault Expression :=
  if !m.settled && m.buffer != "" then
    (Token.operand m.buffer m.naming (some currentIdent)).map fun token => m.committed ++ [token]
  else .ok m.committed

end Keypad.Machine
