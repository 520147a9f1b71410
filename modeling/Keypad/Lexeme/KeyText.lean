import Keypad.Lexeme.Command

/-!
# Commands as key text

The other direction of lexing: `Command.keyText?` writes a command the way a user types it, and
`keyLine?` writes a list of commands with a space between neighbours. Some actions have no keys:
saving a value under a name without typing it, or typing a point apart from a number.
-/

namespace Keypad

open Keypad.Text

namespace Command

/-- The caret of a target, if it is one. -/
def caretOf? (target : String) : Option (List Char) :=
  if target = Target.current.name then some []
  else if target = Target.previous.name then some ['^']
  else none

/-- The colour part of a label, if it can be typed. A colour cannot be taken away by keys. -/
def colorPart? : Edit String → Option (List Char)
  | .keep => some []
  | .clear => none
  | .set word => some (':' :: word.toList)

/-- The keys of an action of the machine. -/
def actionKeys? : Action → Option (List Char)
  | .digit key => some key.toList
  | .parenthesis mark => some mark.toList
  | .operator spelling => some spelling.toList
  | .calculate => some ['=']
  | .clear => some ['c']
  | .delete => some ['<']
  | .toggleSign => some ['_']
  | .percentage => some ['%']
  | .label target text color => do
    let caret ← caretOf? target
    let suffix ← colorPart? color
    return caret ++ '\x27' :: ((text.getD "").toList ++ '\x27' :: suffix)
  | .unit target text => do
    let caret ← caretOf? target
    return caret ++ '[' :: ((text.getD "").toList ++ [']'])
  | .load index => if index < 0 then none else some ('@' :: Decimal.digits index.toNat)
  | .forget label => some ('!' :: label.toList)
  | .retrieve label => some ('$' :: label.toList)
  | .point | .save _ _ _ _ | .retrieveSaved _ _ => none

/-- The keys of a command. -/
def keyText? : Command → Option (List Char)
  | .act action => actionKeys? action
  | .store name => some ('>' :: name.toList)
  | .showHistory => some ['h']
  | .showVariables => some ['v']
  | .showHelp => some ['?']

/-- The keys of several commands, with a space between neighbours. -/
def keyLine? (commands : List Command) : Option (List Char) :=
  (commands.mapM keyText?).map fun texts => [' '].intercalate texts

end Command

end Keypad
