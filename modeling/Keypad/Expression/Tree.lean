import Keypad.Expression.Evaluation

/-!
# Expression trees

What an infix row means: a tree of operators over operands, with the groups that were written. A
tree has three readings: `tokens` writes it out as an infix row, `postorder` lists it in the order
of evaluation, and `value` computes it by recursion, left side before right side before operator.
`Derives` is the grammar, which says for which trees the row can be read without further marks.
-/

namespace Keypad.Expression

/-- A tree of operators over leaves. A group is a subtree in marks. -/
inductive Tree (α : Type) where
  | leaf (a : α)
  | group (inside : Tree α)
  | node (op : Operator) (left right : Tree α)
deriving DecidableEq

/-- The levels of the grammar: sums of products of factors. -/
inductive Level where
  | sum
  | product
  | factor
deriving DecidableEq

namespace Tree

variable {α β : Type}

/-- The grammar `E = T | E (+|-) T`, `T = F | T (×|÷) F`, `F = leaf | ( E )`. -/
inductive Derives : Level → Tree α → Prop where
  | leaf (a : α) : Derives .factor (leaf a)
  | group {e : Tree α} : Derives .sum e → Derives .factor (group e)
  | product {f : Tree α} : Derives .factor f → Derives .product f
  | multiply {t f : Tree α} {op : Operator} : op = .multiply ∨ op = .divide →
      Derives .product t → Derives .factor f → Derives .product (node op t f)
  | sum {t : Tree α} : Derives .product t → Derives .sum t
  | add {e t : Tree α} {op : Operator} : op = .add ∨ op = .subtract →
      Derives .sum e → Derives .product t → Derives .sum (node op e t)

/-- The tree with other leaves. -/
def map (f : α → β) : Tree α → Tree β
  | leaf a => leaf (f a)
  | group inside => group (inside.map f)
  | node op left right => node op (left.map f) (right.map f)

/-- The tree as an infix row, groups in their marks. -/
def tokens : Tree Token → Expression
  | leaf t => [t]
  | group inside => Token.grouping .opening :: (inside.tokens ++ [Token.grouping .closing])
  | node op left right => left.tokens ++ Token.operator op :: right.tokens

/-- The tree in the order of evaluation, without marks. -/
def postorder : Tree Token → Expression
  | leaf t => [t]
  | group inside => inside.postorder
  | node op left right => left.postorder ++ right.postorder ++ [Token.operator op]

/-- The value of the tree. -/
def value : Tree Token → Except Fault Double
  | leaf t => Number.read t.value
  | group inside => inside.value
  | node op left right => do
    let x ← left.value
    let y ← right.value
    op.perform x y

end Tree

end Keypad.Expression
