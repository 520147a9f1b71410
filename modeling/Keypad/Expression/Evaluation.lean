import Keypad.Expression.Reordering

/-!
# Evaluation

A queue of tokens in the order of evaluation is worked off on a stack of values. `evaluateQueue`
gives the one value that is left, or says what was missing; `evaluate` does it for an infix row.
-/

namespace Keypad.Expression

/-- What applying the symbol to two values gives. A zero divisor is refused first. -/
def applySymbol (symbol : String) (left right : Double) : Except Fault Double :=
  match Operator.ofSymbol? symbol with
  | some op => op.perform left right
  | none => .error (.noOperation symbol)

/-- The stack of values, latest first, after one token of the queue. -/
def evaluateToken (values : List Double) (t : Token) : Except Fault (List Double) :=
  if t.isOperand then (Number.read t.value).map (· :: values)
  else
    match values with
    | right :: left :: rest => (applySymbol t.value left right).map (· :: rest)
    | _ => .error (.missingOperand t.value)

/-- The value of what is left on the stack: nothing counts as zero. -/
def resultOf : List Double → Except Fault Double
  | [] => .ok (.zero false)
  | [value] => .ok value
  | _ => .error .missingOperator

/-- The value of a queue in the order of evaluation. -/
def evaluateQueue (queue : Expression) : Except Fault Double :=
  queue.foldlM evaluateToken [] >>= resultOf

/-- The value of an infix row. -/
def evaluate (ts : Expression) : Except Fault Double := toQueue ts >>= evaluateQueue

end Keypad.Expression
