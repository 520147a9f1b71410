import Keypad.Fault
import Keypad.Number.Numeral
import Keypad.Number.Written

/-!
# Reading numbers

`Number.read` turns the text of a number, canonical or grouped for display, into a double, and says
what is wrong with a text that gives none. `Number.toDouble` refuses the results that are no
doubles.
-/

namespace Keypad.Number

/-- The number that the text stands for once its commas are dropped. -/
def ofText? (text : String) : Option Number :=
  (Numeral.parse (text.toList.filter (· != ','))).map Numeral.toNumber

/-- The double that the text stands for. -/
def read (text : String) : Except Fault Double :=
  match ofText? text with
  | none => .error (.unreadable text)
  | some (.finite x) => .ok x
  | some _ => .error (.notFinite text)

/-- A text that cannot be read is told to the user. -/
theorem isTold_of_read {text : String} {fault : Fault} (h : read text = .error fault) :
    fault.kind.isTold = true := by
  unfold read at h
  split at h
  · obtain rfl := Except.error.inj h
    rfl
  · cases h
  · obtain rfl := Except.error.inj h
    rfl

/-- Whether the text stands for a double. -/
def isReadable (text : String) : Bool :=
  match read text with
  | .ok _ => true
  | .error _ => false

/-- The double that a computed number is. -/
def toDouble : Number → Except Fault Double
  | .finite x => .ok x
  | .infinite _ | .undefined => .error .outOfRange

end Keypad.Number
