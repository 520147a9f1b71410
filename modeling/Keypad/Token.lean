import Keypad.Naming
import Keypad.Operator

/-!
# Tokens

An expression is a row of tokens: operands, operators and grouping marks. A token is its text with
whatever a user attached to it. `Token.operand`, `Token.operator` and `Token.grouping` check the
text; `Token.plain` takes any. The lines that show an operand are computed from the token, so they
always fit it.
-/

namespace Keypad

open Keypad.Text

/-- The three sorts of tokens. -/
inductive Kind where
  | operand
  | operator
  | grouping
deriving DecidableEq

/-- The two grouping marks. -/
inductive Mark where
  | opening
  | closing
deriving DecidableEq

namespace Mark

/-- The mark as it is typed and shown. -/
def text : Mark → String
  | opening => "("
  | closing => ")"

/-- The mark that a text is. -/
def ofText? (text : String) : Option Mark :=
  [opening, closing].find? fun mark => mark.text == text

end Mark

/-- One element of an expression. -/
structure Token where
  kind : Kind
  /-- The text of the number, operator or mark. -/
  value : String
  naming : Naming
  /-- Tells an operand of a machine apart from the others. -/
  ident : Option String
deriving DecidableEq

namespace Token

/-- A token of any text. Empty names and units are missing ones. -/
def plain (kind : Kind) (value : String) (naming : Naming) (ident : Option String) : Token :=
  ⟨kind, value, naming.normalize, ident⟩

/-- An operand, if its text stands for a finite number. -/
def operand (value : String) (naming : Naming) (ident : Option String) : Except Fault Token :=
  (Number.read value).map fun _ => plain .operand value naming ident

/-- An operand whose naming is still to be looked up, after its text has been read. -/
def requestOperand (value : String) (naming : Naming.Request) (ident : Option String) :
    Except Fault Token := do
  let _ ← Number.read value
  return plain .operand value (← naming.read) ident

/-- The token of an operator. -/
def operator (op : Operator) : Token := plain .operator op.symbol .blank none

/-- The token of a grouping mark. -/
def grouping (mark : Mark) : Token := plain .grouping mark.text .blank none

/-- The token of the grouping mark that a text is. -/
def readGrouping (text : String) : Except Fault Token :=
  match Mark.ofText? text with
  | some mark => .ok (grouping mark)
  | none => .error (.unknownMark text)

/-- Whether the token is an operand. -/
def isOperand (t : Token) : Bool := t.kind == .operand

/-- Whether the token is an operator. -/
def isOperator (t : Token) : Bool := t.kind == .operator

/-- Whether the token is an opening mark. -/
def isOpening (t : Token) : Bool := t.kind == .grouping && t.value == Mark.opening.text

/-- Whether the token is a closing mark. -/
def isClosing (t : Token) : Bool := t.kind == .grouping && t.value == Mark.closing.text

/-- The line of an operand's number, with its unit. -/
def numberLine (t : Token) : Option String :=
  if t.isOperand then some (Number.line t.value t.naming.unit) else none

/-- The line of an operand's name, if it has one. -/
def nameLine (t : Token) : Option String :=
  if t.isOperand then t.naming.nameLine else none

/-- The token on one line: a named operand shows its name, and its number in parentheses. -/
def render (t : Token) : String :=
  if t.isOperand then
    let number := Number.line t.value t.naming.unit
    match t.nameLine with
    | none => number
    | some name => name ++ " (" ++ number ++ ")"
  else t.value

/-- Changes to a copy of a token. -/
structure Changes where
  value : Option String
  label : Edit String
  unit : Edit String
  color : Edit String
  ident : Edit String

/-- A copy with changes. Only the colour is checked. -/
def copy (t : Token) (changes : Changes) : Except Fault Token :=
  changes.color.readColor.map fun color =>
    plain t.kind (changes.value.getD t.value)
      ⟨changes.label.apply t.naming.label, changes.unit.apply t.naming.unit,
        color.apply t.naming.color⟩
      (changes.ident.apply t.ident)

/-- The word for a sort of tokens in a description. -/
def kindWord : Kind → String
  | .operand => "OPERAND"
  | .operator => "OPERATOR"
  | .grouping => "GROUPING"

/-- A colour in a description. -/
def describeColor (color : Color) : String :=
  "<Color." ++ String.ofList (color.name.toList.map Char.toUpper) ++ ": " ++ quote color.name ++ ">"

/-- A field of a description, nothing if it is missing. -/
def describeField (name : String) (value : Option String) : String :=
  match value with
  | none => ""
  | some text => ", " ++ name ++ "=" ++ text

/-- The token in full, for the log. -/
def describe (t : Token) : String :=
  let fields :=
    if t.isOperand then
      describeField "label" (t.naming.label.map quote) ++
      describeField "unit" (t.naming.unit.map quote) ++
      describeField "color" (t.naming.color.map describeColor) ++
      describeField "ident" (t.ident.map quote)
    else ""
  "Token(" ++ kindWord t.kind ++ ", " ++ quote t.value ++ fields ++ ")"

/-! ## Telling tokens apart -/

section Sorts

variable {t : Token}

/-- An operator is no operand. -/
theorem isOperand_of_isOperator (h : t.isOperator = true) : t.isOperand = false := by
  rw [isOperator, beq_iff_eq] at h
  rw [isOperand, h]
  rfl

/-- An opening mark is no operand. -/
theorem isOperand_of_isOpening (h : t.isOpening = true) : t.isOperand = false := by
  rw [isOpening, Bool.and_eq_true, beq_iff_eq] at h
  rw [isOperand, h.1]
  rfl

/-- Nor is it an operator. -/
theorem isOperator_of_isOpening (h : t.isOpening = true) : t.isOperator = false := by
  rw [isOpening, Bool.and_eq_true, beq_iff_eq] at h
  rw [isOperator, h.1]
  rfl

/-- Nor does it close anything. -/
theorem isClosing_of_isOpening (h : t.isOpening = true) : t.isClosing = false := by
  rw [isOpening, Bool.and_eq_true, beq_iff_eq, beq_iff_eq] at h
  rw [isClosing, h.1, h.2]
  decide

end Sorts

@[simp] theorem isOperand_operator (op : Operator) : (operator op).isOperand = false := rfl

/-- The operator of an operator token can be told from its text. -/
@[simp] theorem ofSymbol?_operator (op : Operator) :
    Operator.ofSymbol? (operator op).value = some op := Operator.ofSymbol?_symbol op

/-- Grouping marks are no operators. -/
theorem isOperator_grouping (mark : Mark) : (grouping mark).isOperator = false := rfl

@[simp] theorem isOpening_grouping (mark : Mark) :
    (grouping mark).isOpening = decide (mark = .opening) := by
  cases mark <;> decide

@[simp] theorem isClosing_grouping (mark : Mark) :
    (grouping mark).isClosing = decide (mark = .closing) := by
  cases mark <;> decide

end Token

/-- A row of tokens. -/
abbrev Expression := List Token

namespace Expression

/-- The row on one line. -/
def render (ts : Expression) : String := " ".intercalate (ts.map Token.render)

/-- The row in full, for the log. -/
def describe : Expression → String
  | [t] => "(" ++ t.describe ++ ",)"
  | ts => "(" ++ ", ".intercalate (ts.map Token.describe) ++ ")"

end Expression

end Keypad
