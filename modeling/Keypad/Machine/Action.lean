import Keypad.Machine.Calculation
import Keypad.Machine.Editing
import Keypad.Machine.Recall
import Keypad.Machine.Typing

/-!
# Actions

Everything a host can ask of a machine, as a value. Arguments are texts as the host gave them;
`Machine.perform` checks them before it changes anything. So a variable that a host hands back comes
as words, and the colour is looked up to make it the variable that is typed. A run is a list of
actions, and goes on after one that is refused.
-/

namespace Keypad

/-- A request to a machine. -/
inductive Action where
  | digit (key : String)
  | point
  | parenthesis (mark : String)
  | operator (spelling : String)
  | calculate
  | clear
  | delete
  | toggleSign
  | percentage
  | label (target : String) (text : Option String) (color : Edit String)
  | unit (target : String) (text : Option String)
  | load (index : Int)
  | save (label value : String) (unit color : Option String)
  | forget (label : String)
  | retrieve (label : String)
  | retrieveSaved (value : String) (naming : Naming.Request)
deriving DecidableEq

namespace Machine

/-- What an action does to the machine. -/
def perform (m : Machine) : Action → Outcome Event
  | .digit key => m.pressDigit key
  | .point => m.pressPoint
  | .parenthesis mark => m.pressMark mark
  | .operator spelling => m.pressOperator spelling
  | .calculate => m.calculate
  | .clear => m.clear
  | .delete => m.delete
  | .toggleSign => m.toggleSign
  | .percentage => m.percentage
  | .label target text color => m.editLabel target text color
  | .unit target text => m.editUnit target text
  | .load index => m.load index
  | .save label value unit color => m.save label value unit color
  | .forget label => m.forget label
  | .retrieve label => m.retrieve label
  | .retrieveSaved value naming => m.checking naming.read fun naming => m.typeKept value naming

/-- The machine after a run of actions, refused ones among them. -/
def run (m : Machine) (actions : List Action) : Machine :=
  actions.foldl (fun m action => (m.perform action).machine) m

end Machine

end Keypad
