import Keypad.Expression.Evaluation
import Keypad.Machine.Basic

/-!
# Calculating

`calculate` evaluates the committed expression together with the number being typed, keeps it in the
history and shows the result; a failure puts the machine into the error state instead of being
refused. `toggleSign` and `percentage` change the number in the buffer and fail in the same way.

What can go wrong in reading a number is told to the user, and so is what can go wrong in evaluating
a row of known operators. Only an operator that is none is no failure of a calculation.
-/

namespace Keypad.Machine

open Outcome

/-- The machine after a calculation: the result in the buffer, and the entry in the history. -/
def concluded (m : Machine) (result : String) : Machine :=
  { m with
    buffer := result, naming := .blank, committed := [], settled := true,
    intermediate := false, history := m.history.push ⟨m.committed, result⟩ }

/-- Evaluates the committed expression, if there is one. A fault that the user is not told of does
not lead into the error state: it is passed on. -/
def evaluateCommitted (m : Machine) : Outcome Event :=
  if m.committed.isEmpty then done m
  else
    match Expression.evaluate m.committed with
    | .error fault => if fault.kind.isTold then m.fail fault else refused m fault
    | .ok x => noted (m.concluded x.resultText) (.calculated m.committed x.resultText)

/-- Evaluates the expression, keeps it in the history and shows the result. -/
def calculate (m : Machine) : Outcome Event :=
  m.guarded "calculate" fun m =>
    match m.commitTyped with
    | ⟨m', some fault, log⟩ => ⟨m'.enterError, none, log ++ [.failed fault]⟩
    | typed => typed.andThen evaluateCommitted

/-- Back to the start. The history and the variables are kept. -/
def clear (m : Machine) : Outcome Event := done m.cleared

/-- Changes the sign of the number in the buffer, unless that is zero. -/
def toggleSign (m : Machine) : Outcome Event :=
  m.guarded "toggle sign" fun m =>
    match Number.read m.buffer with
    | .error fault => m.fail fault
    | .ok x => done (if x.isZero then m else { m with buffer := Buffer.toggleSign m.buffer })

/-- One hundred. -/
def hundred : Double := ⟨false, 100 * unitsPerOne, by decide +kernel⟩

/-- Divides the number in the buffer by a hundred. -/
def percentage (m : Machine) : Outcome Event :=
  m.guarded "percentage" fun m =>
    match Number.read m.buffer >>= fun x => (x.div hundred).toDouble with
    | .error fault => m.fail fault
    | .ok x => done { m with buffer := x.canonicalText }

end Keypad.Machine
