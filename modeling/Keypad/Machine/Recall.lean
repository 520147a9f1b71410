import Keypad.Machine.Basic

/-!
# Bringing numbers back

A past calculation can be loaded as the expression, and a number that is kept as a variable can be
typed by its name. Loading and keeping variables work in the error state too.
-/

namespace Keypad.Machine

open Outcome

/-- Brings a past calculation back as the expression. An index beyond the history has no effect. -/
def load (m : Machine) (index : Int) : Outcome Event :=
  if index < 0 then noted m (.noEntry index)
  else
    match m.history.get? index with
    | none => noted m (.noEntry index)
    | some entry =>
      done { m.cleared with committed := entry.tokens, buffer := entry.result, settled := true }

/-- Keeps a number under a name. -/
def save (m : Machine) (label value : String) (unit color : Option String) :
    Outcome Event :=
  m.checking (m.store.save label value unit color) fun vs => done { m with store := vs }

/-- Gives up the variable of a name. -/
def forget (m : Machine) (label : String) : Outcome Event :=
  done { m with store := m.store.delete label }

/-- Types a number that was kept, with its naming as it stands. It is not read again, so a host that
hands one back may hand back any text. -/
def typeKept (m : Machine) (value : String) (naming : Naming) : Outcome Event :=
  m.guarded "variable" fun m =>
    done { m with buffer := value, naming := naming, settled := false, intermediate := false }

/-- The variable of a name, which has to be there. -/
def findVariable (m : Machine) (label : String) : Except Fault Variable :=
  match m.store.find? label with
  | some v => .ok v
  | none => .error (.noSuchVariable label)

/-- Types the variable of a name. -/
def retrieve (m : Machine) (label : String) : Outcome Event :=
  m.checking (m.findVariable label) fun v => m.typeKept v.value ⟨some v.label, v.unit, v.color⟩

end Keypad.Machine
