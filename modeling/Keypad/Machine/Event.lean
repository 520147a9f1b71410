import Keypad.Token

/-!
# Events

What the machine notes down for a reader of its log, as values; `Event.text` words them.
-/

namespace Keypad

/-- A record of the log. -/
inductive Event where
  /-- A number was added to the expression. -/
  | committed (token : Token)
  /-- An action had no effect because the machine is in the error state. -/
  | ignored (action : String)
  /-- A calculation failed. -/
  | failed (fault : Fault)
  /-- An operator took the place of the one before it. -/
  | replaced (old new : String)
  | calculated (tokens : Expression) (result : String)
  /-- A notice was put up for the user. -/
  | noticed (notice : String)
  | noOperandToLabel
  | noOperandForUnit
  | noEntry (index : Int)
deriving DecidableEq

/-- The wording of a record. -/
def Event.text : Event → String
  | committed token => "committed operand " ++ token.describe
  | ignored action => action ++ " ignored in error state"
  | failed fault => "evaluation failed: " ++ fault.message
  | replaced old new => "replacing operator " ++ old ++ " with " ++ new
  | calculated tokens result => "calculated " ++ Expression.describe tokens ++ " = " ++ result
  | noticed notice => notice
  | noOperandToLabel => "no committed operand to label"
  | noOperandForUnit => "no committed operand to set unit on"
  | noEntry index => "no history entry " ++ toString index

end Keypad
