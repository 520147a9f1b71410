import Keypad.Naming
import Keypad.Number.Reading

/-!
# Variables

Numbers kept under a name, the last one saved first. Each save is stamped: with the reading of a
clock, or with the next number if the clock has not moved on, so that stamps grow even where the
clock stands still or goes back.
-/

namespace Keypad

/-- A number kept under a name. -/
structure Variable where
  label : String
  value : String
  unit : Option String
  color : Option Color
  /-- When it was saved. -/
  stamp : Int
deriving DecidableEq

/-- The variables that are kept, latest first. -/
structure Variables where
  saved : List Variable
  /-- The stamp of the last save, zero before the first. -/
  lastStamp : Int
deriving DecidableEq

namespace Variables

/-- No variables. -/
def empty : Variables := ⟨[], 0⟩

/-- The stamp of a save when the clock reads `now`. -/
def nextStamp (vs : Variables) (now : Int) : Int := max now (vs.lastStamp + 1)

/-- The variables without the one of this name. -/
def delete (vs : Variables) (label : String) : Variables :=
  { vs with saved := vs.saved.filter (·.label ≠ label) }

/-- The variables with one added that has a new stamp, ordered by stamp. -/
def insert (vs : Variables) (v : Variable) : Variables :=
  ⟨((vs.delete v.label).saved ++ [v]).mergeSort fun a b => decide (b.stamp ≤ a.stamp), v.stamp⟩

/-- Saves a number under a name when the clock reads `now`, in place of any other of that name. The
name must not be empty, and the value must stand for a finite number. -/
def saveAt (vs : Variables) (now : Int) (label value : String) (unit color : Option String) :
    Except Fault Variables := do
  if label = "" then
    throw .unlabelledVariable
  let _ ← Number.read value
  let color ← Color.readOption color
  return vs.insert ⟨label, value, Naming.unlessEmpty unit, color, vs.nextStamp now⟩

/-- Saves a number where no clock is read: stamps just count the saves. -/
def save (vs : Variables) (label value : String) (unit color : Option String) :
    Except Fault Variables :=
  vs.saveAt 0 label value unit color

/-- The variable of a name. -/
def find? (vs : Variables) (label : String) : Option Variable :=
  vs.saved.find? (·.label == label)

/-- Whether there is a variable of this name. -/
def contains (vs : Variables) (label : String) : Bool := vs.saved.any (·.label == label)

/-- The names of the variables. -/
def labels (vs : Variables) : List String := vs.saved.map (·.label)

/-- How many variables there are. -/
def size (vs : Variables) : Nat := vs.saved.length

end Variables

end Keypad
