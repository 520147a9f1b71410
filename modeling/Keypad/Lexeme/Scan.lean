import Keypad.Fault
import Keypad.Lexeme.Form

/-!
# Cutting key text into lexemes

`scan` takes the longest lexeme off the front of a text as long as there is one, and gives the
lexemes with the rest that starts with none. The lexemes and the rest make up the text
(`scan_flatten`).
-/

namespace Keypad

open Keypad.Text

/-- A piece of key text and its form. -/
structure Lexeme where
  form : Form
  text : List Char
deriving DecidableEq

namespace Lexeme

/-- The form of the lexeme at the front, and its length. -/
def measure? (cs : List Char) : Option (Form × Nat) :=
  (Form.all.find? fun f => f.prefixLength cs != 0).map fun f => (f, f.prefixLength cs)

/-- The lexemes of a text, and the rest that starts with no lexeme. -/
def scan : List Char → List Lexeme × List Char
  | [] => ([], [])
  | c :: cs =>
    match measure? (c :: cs) with
    | none => ([], c :: cs)
    | some (form, n) =>
      let more := scan (cs.drop (n - 1))
      (⟨form, c :: cs.take (n - 1)⟩ :: more.1, more.2)
termination_by cs => cs.length
decreasing_by
  simp only [List.length_drop, List.length_cons]
  omega

/-- Nothing is lost: the lexemes and the rest make up the text. -/
theorem scan_flatten (cs : List Char) :
    ((scan cs).1.map Lexeme.text).flatten ++ (scan cs).2 = cs := by
  fun_induction scan cs with
  | case1 => rfl
  | case2 => rfl
  | case3 c cs form n _ more ih =>
    simp only [List.map_cons, List.flatten_cons, List.cons_append, List.append_assoc]
    rw [ih, List.take_append_drop]

/-- Whether the lexeme stands for key presses; white space only separates. -/
def isFeedable (lexeme : Lexeme) : Bool := lexeme.form != .space

/-- What is said about a rest that starts with no lexeme, if there is any. -/
def unlexedFault? (rest : List Char) : Option Fault :=
  if rest.isEmpty then none else some (.unlexable (String.ofList (trim isMargin rest)))

end Lexeme

end Keypad
