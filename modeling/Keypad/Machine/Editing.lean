import Keypad.Machine.Basic

/-!
# Editing and naming

`delete` takes back what was typed last. `editLabel` and `editUnit` name the number being typed, or
the operand committed last. An intermediate result cannot be named, which a notice says.
-/

namespace Keypad.Machine

open Outcome

/-- Takes back the last key of the number being typed. -/
def delete (m : Machine) : Outcome Event :=
  m.guarded "delete" fun m =>
    done (if m.settled then m else { m with buffer := Buffer.erase m.buffer })

/-- What is said about naming an intermediate result. -/
def intermediateNotice : String := "Intermediate results cannot be edited"

/-- Edits the naming of the buffer, unless that is an intermediate result. -/
def editBuffer (m : Machine) (edit : Naming → Naming) : Outcome Event :=
  if m.intermediate then
    noted { m with notice := some intermediateNotice } (.noticed intermediateNotice)
  else done { m with naming := edit m.naming }

/-- The row with its last operand changed, if it has one. -/
def editLastOperand? (edit : Token → Token) : Expression → Option Expression
  | [] => none
  | t :: ts =>
    match editLastOperand? edit ts with
    | some ts' => some (t :: ts')
    | none => if t.isOperand then some (edit t :: ts) else none

/-- Edits the naming of the operand committed last. Without one there is just a record. -/
def editPrevious (m : Machine) (edit : Naming → Naming) (missing : Event) : Outcome Event :=
  match editLastOperand? (fun t => { t with naming := edit t.naming }) m.committed with
  | some tokens => done { m with committed := tokens }
  | none => noted m missing

/-- Edits the naming of the target. -/
def editNaming (m : Machine) (target : Target) (edit : Naming → Naming) (missing : Event) :
    Outcome Event :=
  match target with
  | .current => m.editBuffer edit
  | .previous => m.editPrevious edit missing

/-- Names a number and perhaps colours it. An empty name takes the name away. -/
def editLabel (m : Machine) (target : String) (label : Option String) (color : Edit String) :
    Outcome Event :=
  m.checking (Target.read target) fun target =>
    m.checking color.readColor fun color =>
      m.guarded "label" fun m =>
        m.editNaming target
          (fun n => { n with label := Naming.unlessEmpty label, color := color.apply n.color })
          .noOperandToLabel

/-- Gives a number a unit. An empty one takes the unit away. -/
def editUnit (m : Machine) (target : String) (unit : Option String) : Outcome Event :=
  m.checking (Target.read target) fun target =>
    m.guarded "unit" fun m =>
      m.editNaming target (fun n => { n with unit := Naming.unlessEmpty unit }) .noOperandForUnit

end Keypad.Machine
