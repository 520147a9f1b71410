import Keypad.Lexeme.Scan
import Keypad.Machine.Action
import Keypad.Number.Numeral

/-!
# What lexemes do

A lexeme stands for commands, most of them actions of the machine: the digits of a number are typed
one by one, a label or unit is aimed at the number being typed or, behind a caret, at the operand
entered last. `Lexeme.commands` reads them off the text. It fails only on an index that cannot be
read.
-/

namespace Keypad

open Keypad.Text

/-- What the console does on a lexeme. -/
inductive Command where
  /-- An action of the machine. -/
  | act (action : Action)
  /-- Keep the number being typed under a name, and name it so. -/
  | store (name : String)
  | showHistory
  | showVariables
  | showHelp
deriving DecidableEq

namespace Command

/-- The command of a key. -/
def ofKey? : Char → Option Command
  | '=' => some (.act .calculate)
  | 'c' => some (.act .clear)
  | '<' => some (.act .delete)
  | '_' => some (.act .toggleSign)
  | '%' => some (.act .percentage)
  | 'h' => some .showHistory
  | 'v' => some .showVariables
  | '?' => some .showHelp
  | _ => none

/-- The name of an action in a listing of lexemes. -/
def actionName : Action → String
  | .digit _ => "input_digit"
  | .point => "input_dot"
  | .parenthesis _ => "input_parenthesis"
  | .operator _ => "set_operation"
  | .calculate => "calculate"
  | .clear => "clear"
  | .delete => "delete"
  | .toggleSign => "toggle_sign"
  | .percentage => "percentage"
  | .label _ _ _ => "set_label"
  | .unit _ _ => "set_unit"
  | .load _ => "load_from_history"
  | .save _ _ _ _ => "save_variable"
  | .forget _ => "delete_variable"
  | .retrieve _ | .retrieveSaved _ _ => "input_variable"

/-- The name of a command in a listing of lexemes. -/
def name : Command → String
  | .act action => actionName action
  | .store _ => "store"
  | .showHistory => "show_history"
  | .showVariables => "show_variables"
  | .showHelp => "show_help"

end Command

namespace Lexeme

/-- What a label or unit is aimed at, and its text without the caret. -/
def aim : List Char → Target × List Char
  | '^' :: cs => (.previous, cs)
  | cs => (.current, cs)

/-- The text without its first and last character. -/
def inner (cs : List Char) : List Char := cs.tail.dropLast

/-- The colour at the end of a label that does not end with its apostrophe: what stands behind the
last colon. -/
def colorWord (cs : List Char) : List Char := (cs.reverse.takeWhile (· ≠ ':')).reverse

/-- The name in a label's text, and its colour if it has one. -/
def labelParts (cs : List Char) : List Char × Edit String :=
  if cs.getLast? = some '\x27' then (inner cs, .keep)
  else
    let color := colorWord cs
    (inner (cs.take (cs.length - color.length - 1)), .set (String.ofList color))

/-- The most digits an index may be written with, zeros at its front among them. -/
def indexPlaces : Nat := 4300

/-- The index that digits write, which have to be readable and not too many. -/
def readIndex (cs : List Char) : Except Fault Nat :=
  match cs.mapM digitValue? with
  | some ds =>
    if ds.length ≤ indexPlaces then .ok (Numeral.ofDigits ds)
    else .error (.unreadableIndex (String.ofList cs))
  | none => .error (.unreadableIndex (String.ofList cs))

/-- The commands of a lexeme, in order. -/
def commands (lexeme : Lexeme) : Except Fault (List Command) :=
  match lexeme.form with
  | .number => .ok (lexeme.text.map fun c => .act (.digit (String.singleton c)))
  | .operator => .ok [.act (.operator (String.ofList lexeme.text))]
  | .paren => .ok [.act (.parenthesis (String.ofList lexeme.text))]
  | .command => .ok (lexeme.text.filterMap Command.ofKey?)
  | .label =>
    let (target, body) := aim lexeme.text
    let (name, color) := labelParts body
    .ok [.act (.label target.name (some (String.ofList name)) color)]
  | .unit =>
    let (target, body) := aim lexeme.text
    .ok [.act (.unit target.name (Naming.unlessEmpty (some (String.ofList (inner body)))))]
  | .store => .ok [.store (String.ofList lexeme.text.tail)]
  | .retrieve => .ok [.act (.retrieve (String.ofList lexeme.text.tail))]
  | .forget => .ok [.act (.forget (String.ofList lexeme.text.tail))]
  | .load => (readIndex lexeme.text.tail).map fun index => [.act (.load index)]
  | .space => .ok []

end Lexeme

end Keypad
