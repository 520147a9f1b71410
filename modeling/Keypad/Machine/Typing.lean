import Keypad.Machine.Basic

/-!
# Typing an expression

Digits and the point go into the buffer; operators and grouping marks commit it to the expression.
After a result, an operator or a closing mark the next digit starts a new number. An operator typed
straight after another replaces it, and a number typed straight before an opening mark is multiplied
by the group.
-/

namespace Keypad.Machine

open Outcome

/-- Puts an edited text into the buffer, and takes the name off the number that stood there. -/
def retype (m : Machine) (text : String) : Machine :=
  { m with buffer := text, naming := { m.naming with label := none } }

/-- Types a key of a number. A key without effect leaves the name as well as the text. -/
def typeKey (m : Machine) (key : Char) : Machine :=
  if m.settled then { m.beginEntry with buffer := Buffer.first key }
  else if Buffer.ignores m.buffer key then m
  else m.retype (Buffer.type m.buffer key)

/-- The key that a text is. -/
def readKey (text : String) : Except Fault Char :=
  match text.toList with
  | [c] => if Buffer.isKey c then .ok c else .error (.notADigit text)
  | _ => .error (.notADigit text)

/-- Types a digit or the point. -/
def pressDigit (m : Machine) (key : String) : Outcome Event :=
  m.checking (readKey key) fun c => m.guarded "digit" fun m => done (m.typeKey c)

/-- Types the point. -/
def pressPoint (m : Machine) : Outcome Event :=
  m.guarded "dot" fun m => done (m.typeKey '.')

/-- Adds an operator to the expression. The next digit starts a new number. -/
def appendOperator (m : Machine) (op : Operator) : Machine :=
  { m with
    committed := m.committed ++ [Token.operator op], settled := true, naming := .blank }

/-- The operator that the expression ends with. -/
def lastOperator? (m : Machine) : Option Token :=
  m.committed.getLast?.filter Token.isOperator

/-- Types an operator: after a number it is added, and so it is to a result that nothing follows
yet; straight after an operator it takes its place. -/
def typeOperator (m : Machine) (op : Operator) : Outcome Event :=
  if !m.settled || m.committed.isEmpty then
    m.commit.andThen fun m => done (m.appendOperator op)
  else
    match m.lastOperator? with
    | some last =>
      noted { m with committed := m.committed.dropLast ++ [{ last with value := op.symbol }] }
        (.replaced last.value op.symbol)
    | none => done (m.appendOperator op)

/-- Presses the operator key of a spelling. -/
def pressOperator (m : Machine) (text : String) : Outcome Event :=
  m.checking (Operator.read text) fun op => m.guarded "operator" fun m => m.typeOperator op

/-- Adds a grouping mark to the expression. -/
def appendMark (m : Machine) (mark : Mark) : Machine :=
  { m with committed := m.committed ++ [Token.grouping mark] }

/-- Whether a number stands in the buffer that an opening mark would multiply. -/
def hasFactor (m : Machine) : Bool := !m.settled && m.buffer != "0" && m.buffer != ""

/-- Types a grouping mark. -/
def typeMark (m : Machine) : Mark → Outcome Event
  | .opening =>
    (if m.hasFactor then m.typeOperator .multiply else done m).andThen fun m =>
      done (m.appendMark .opening)
  | .closing =>
    m.commitTyped.andThen fun m => done { m.appendMark .closing with settled := true }

/-- The mark that a text is. -/
def readMark (text : String) : Except Fault Mark :=
  match Mark.ofText? text with
  | some mark => .ok mark
  | none => .error (.notAParenthesis text)

/-- Types an opening or closing mark. -/
def pressMark (m : Machine) (text : String) : Outcome Event :=
  m.checking (readMark text) fun mark => m.guarded "parenthesis" fun m => m.typeMark mark

end Keypad.Machine
