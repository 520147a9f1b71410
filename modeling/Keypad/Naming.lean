import Keypad.Fault
import Keypad.Number.Display

/-!
# Naming

What a user attaches to a number: a name, a unit and a colour. None of it takes part in a
calculation. `Naming.Request` is the same as a host hands it over, with the colour still to be
looked up, and an `Edit` is a change to one optional part.
-/

namespace Keypad

/-- The colours a number can have. -/
inductive Color where
  | red
  | yellow
  | blue
  | orange
  | green
  | white
deriving DecidableEq

namespace Color

/-- The word for a colour. -/
def name : Color → String
  | red => "red"
  | yellow => "yellow"
  | blue => "blue"
  | orange => "orange"
  | green => "green"
  | white => "white"

/-- The colour that a word names. -/
def read (text : String) : Except Fault Color :=
  match [red, yellow, blue, orange, green, white].find? fun c => c.name == text with
  | some color => .ok color
  | none => .error (.unknownColor text)

/-- The colour that a word names, where there is a word. -/
def readOption : Option String → Except Fault (Option Color)
  | none => .ok none
  | some text => (read text).map some

end Color

/-- Which number an edit of the naming applies to. -/
inductive Target where
  /-- The number being typed. -/
  | current
  /-- The number entered last. -/
  | previous
deriving DecidableEq

namespace Target

/-- The word for a target. -/
def name : Target → String
  | current => "current"
  | previous => "previous"

/-- The target that a word names. -/
def read (text : String) : Except Fault Target :=
  match [current, previous].find? fun t => t.name == text with
  | some target => .ok target
  | none => .error (.unknownTarget text)

end Target

/-- A change to an optional value. -/
inductive Edit (α : Type) where
  | keep
  | clear
  | set (value : α)
deriving DecidableEq

namespace Edit

/-- The value after the change. -/
def apply {α : Type} : Edit α → Option α → Option α
  | keep, old => old
  | clear, _ => none
  | set value, _ => some value

/-- The change to a colour that is given by its word. -/
def readColor : Edit String → Except Fault (Edit Color)
  | keep => .ok keep
  | clear => .ok clear
  | set text => (Color.read text).map set

end Edit

/-- A name, a unit and a colour, each of which may be missing. -/
structure Naming where
  label : Option String
  unit : Option String
  color : Option Color
deriving DecidableEq

namespace Naming

/-- No name, no unit and no colour. -/
def blank : Naming := ⟨none, none, none⟩

/-- An empty text is kept as a missing one. -/
def unlessEmpty (text : Option String) : Option String := text.filter (· ≠ "")

/-- The naming with its empty texts taken as missing. -/
def normalize (n : Naming) : Naming := ⟨unlessEmpty n.label, unlessEmpty n.unit, n.color⟩

/-- The line that shows the name. The unit only ever stands on the line of the number. -/
def nameLine (n : Naming) : Option String := unlessEmpty n.label

/-- The naming as a host asks for it: the colour is a word. -/
structure Request where
  label : Option String
  unit : Option String
  color : Option String
deriving DecidableEq

/-- The naming that was asked for, if its colour is one. -/
def Request.read (r : Request) : Except Fault Naming :=
  (Color.readOption r.color).map fun color => ⟨r.label, r.unit, color⟩

end Naming

end Keypad
