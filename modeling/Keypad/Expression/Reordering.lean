import Keypad.Token

/-!
# Evaluation order

`reorder` brings an infix row into the order of evaluation: every operator stands behind the values
it applies to, operators that bind tighter come first, all of them associate to the left, and
grouping marks are gone. It keeps a stack of operators and opening marks that wait for their right
side. Marks that match nothing have no effect. `toQueue` refuses a row with an operator that is
none.
-/

namespace Keypad.Expression

/-- How tightly a token binds, if it is the symbol of an operator. -/
def binding (t : Token) : Nat := ((Operator.ofSymbol? t.value).map Operator.precedence).getD 0

/-- What is already in order, and the operators and opening marks that still wait, latest first. -/
structure Reordering where
  output : Expression
  waiting : List Token

namespace Reordering

/-- Whether a waiting token goes before an operator of this binding is put to wait. -/
def goesBefore (strength : Nat) (t : Token) : Bool :=
  t.isOperator && decide (strength ≤ binding t)

/-- The reordering after the next token of the row. -/
def step (r : Reordering) (t : Token) : Reordering :=
  if t.isOperand then ⟨r.output ++ [t], r.waiting⟩
  else if t.isOperator then
    ⟨r.output ++ r.waiting.takeWhile (goesBefore (binding t)),
      t :: r.waiting.dropWhile (goesBefore (binding t))⟩
  else if t.isOpening then ⟨r.output, t :: r.waiting⟩
  else if t.isClosing then
    ⟨r.output ++ r.waiting.takeWhile (!·.isOpening),
      (r.waiting.dropWhile (!·.isOpening)).tail⟩
  else r

/-- The finished order: the operators that wait follow, latest first. -/
def finish (r : Reordering) : Expression := r.output ++ r.waiting.filter Token.isOperator

end Reordering

/-- The row in the order of evaluation. -/
def reorder (ts : Expression) : Expression := (ts.foldl Reordering.step ⟨[], []⟩).finish

/-- The first operator of the row that has the symbol of none. -/
def unknownOperator? (ts : Expression) : Option Token :=
  ts.find? fun t => t.isOperator && (Operator.ofSymbol? t.value).isNone

/-- The row in the order of evaluation, if all its operators are known. -/
def toQueue (ts : Expression) : Except Fault Expression :=
  match unknownOperator? ts with
  | some t => .error (.noOperation t.value)
  | none => .ok (reorder ts)

end Keypad.Expression
