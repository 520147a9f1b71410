import Keypad.Lexeme.Form

/-!
# The language of each form

Which texts are lexemes of a form, said without scanning: `Form.Spells f cs` holds of the whole
texts that the form stands for. A lexeme is cut off as the longest text at the front of which this
holds.
-/

namespace Keypad.Form

open Keypad.Text

/-- A text of characters of a class only. -/
def Only (cls : Char → Bool) (cs : List Char) : Prop := ∀ c ∈ cs, cls c = true

instance (cls : Char → Bool) (cs : List Char) : Decidable (Only cls cs) :=
  decidable_of_iff (cs.all cls = true) List.all_eq_true

/-- A character, and at least one character of a class behind it. -/
def Led (lead : Char) (cls : Char → Bool) (cs : List Char) : Prop :=
  ∃ name, name ≠ [] ∧ Only cls name ∧ cs = lead :: name

/-- A text between an opening character and the first closing one. -/
def Enclosed (opening closing : Char) (cs : List Char) : Prop :=
  ∃ inside, closing ∉ inside ∧ cs = opening :: (inside ++ [closing])

/-- A text, or the same behind a caret. -/
def Aimed (language : List Char → Prop) (cs : List Char) : Prop :=
  language cs ∨ ∃ rest, language rest ∧ cs = '^' :: rest

/-- A name between apostrophes, perhaps with a colour behind a colon. -/
def Labels (cs : List Char) : Prop :=
  ∃ name color, Enclosed '\x27' '\x27' name ∧ (color = [] ∨ Led ':' isColorLetter color) ∧
    cs = name ++ color

/-- Digits, perhaps with a point and further digits; or a point and digits. -/
def Numbers (cs : List Char) : Prop :=
  (cs ≠ [] ∧ Only isDigit cs) ∨
    ∃ whole fraction, Only isDigit whole ∧ Only isDigit fraction ∧ cs = whole ++ '.' :: fraction

/-- The texts of a form. -/
def Spells : Form → List Char → Prop
  | number, cs => Numbers cs
  | operator, cs => ∃ text ∈ operatorTexts, cs = text.toList
  | paren, cs => ∃ text ∈ markTexts, cs = text.toList
  | command, cs => ∃ key ∈ commandKeys, cs = [key]
  | label, cs => Aimed Labels cs
  | unit, cs => Aimed (Enclosed '[' ']') cs
  | store, cs => Led '>' isWord cs
  | retrieve, cs => Led '$' isWord cs
  | forget, cs => Led '!' isWord cs
  | load, cs => Led '@' isDigit cs
  | space, cs => cs ≠ [] ∧ Only isBlank cs

end Keypad.Form
