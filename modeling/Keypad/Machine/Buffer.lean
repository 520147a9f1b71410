import Keypad.Number.Display
import Keypad.Number.Reading

/-!
# The text in the edit buffer

The number being typed is edited as text. A digit typed on a lone zero replaces it, and a second
point is ignored. Erasing takes the last character, or an exponent as a whole, and never leaves a
text that is no number. Each edit is a function on the text alone.
-/

namespace Keypad.Buffer

/-- The buffer before anything is typed. -/
def start : String := "0"

/-- Whether the text is one that a digit replaces: a zero, perhaps with a minus. -/
def isLoneZero (text : String) : Bool := text == "0" || text == "-0"

/-- Whether the character is a key for typing numbers: an ASCII digit or the point. -/
def isKey (c : Char) : Bool := c.isDigit || c == '.'

/-- A key that is not the point is a digit. -/
theorem isDigit_of_isKey {c : Char} (h : isKey c = true) (hc : c ≠ '.') : c.isDigit = true := by
  simpa [isKey, hc] using h

/-- The text without its last character. -/
def dropLast (text : String) : String := String.ofList text.toList.dropLast

/-- The text that a first key starts. -/
def first (key : Char) : String := if key = '.' then "0." else String.singleton key

/-- The text after one more digit. -/
def typeDigit (text : String) (digit : Char) : String :=
  if isLoneZero text then
    if digit = '0' then text else (dropLast text).push digit
  else text.push digit

/-- The text after a point, which is ignored if there is one. -/
def typePoint (text : String) : String :=
  if text.toList.contains '.' then text else text.push '.'

/-- The text after one more key. -/
def type (text : String) (key : Char) : String :=
  if key = '.' then typePoint text else typeDigit text key

/-- Whether the key has no effect on the text: a second point, or a zero on a lone zero. -/
def ignores (text : String) (key : Char) : Bool :=
  if key = '.' then text.toList.contains '.' else isLoneZero text && key == '0'

/-- What is left when the last character goes, or the whole exponent: cutting into that would
change the magnitude. -/
def cut (text : String) : String :=
  if Number.hasExponent text.toList then
    String.ofList (text.toList.takeWhile fun c => !(c == 'e' || c == 'E'))
  else dropLast text

/-- The text after erasing. What is no number any more becomes the start text. -/
def erase (text : String) : String :=
  if Number.isReadable (cut text) then cut text else start

/-- The text with a minus in front, or without the one it has. -/
def toggleSign (text : String) : String :=
  match text.toList with
  | '-' :: rest => String.ofList rest
  | cs => String.ofList ('-' :: cs)

/-! ## Keys that change the text -/

/-- A character at the end makes another text. -/
theorem push_ne_self (text : String) (c : Char) : text.push c ≠ text := by
  intro h
  have hlength := congrArg (fun text => text.toList.length) h
  simp at hlength

/-- A digit that takes the place of a lone zero makes another text, unless it is a zero. -/
theorem push_dropLast_ne_self {text : String} (h : isLoneZero text = true) {digit : Char}
    (hdigit : digit ≠ '0') : (dropLast text).push digit ≠ text := by
  intro heq
  have hlast := congrArg (fun text => text.toList.getLast?) heq
  rw [isLoneZero, Bool.or_eq_true, beq_iff_eq, beq_iff_eq] at h
  -- the lone zero ends in a zero, and the new text in the digit
  rcases h with rfl | rfl <;> simp [hdigit] at hlast

/-- The keys without effect are those that leave the text as it was. -/
theorem ignores_iff {text : String} {key : Char} :
    ignores text key = true ↔ type text key = text := by
  unfold ignores type typePoint typeDigit
  by_cases hkey : key = '.'
  · rw [if_pos hkey, if_pos hkey]
    cases hpoint : text.toList.contains '.' with
    | true => exact iff_of_true rfl (if_pos rfl)
    | false => exact iff_of_false Bool.false_ne_true (push_ne_self text '.')
  · rw [if_neg hkey, if_neg hkey]
    cases hzero : isLoneZero text with
    | false => exact iff_of_false Bool.false_ne_true (push_ne_self text key)
    | true =>
      rw [Bool.true_and, beq_iff_eq, if_pos rfl]
      by_cases hdigit : key = '0'
      · exact iff_of_true hdigit (if_pos hdigit)
      · rw [if_neg hdigit]
        exact iff_of_false hdigit (push_dropLast_ne_self hzero hdigit)

end Keypad.Buffer
