import Keypad.Operator
import Keypad.Text.Blank
import Keypad.Text.Digit
import Keypad.Text.Word
import Keypad.Token

/-!
# The forms of lexemes

Key text is made of eleven forms of lexemes. `Form.prefixLength` is the length of the longest
lexeme of a form that a text starts with, zero if it starts with none. The forms differ in their
first characters, or in the second behind a caret, so no text starts with lexemes of two forms.
-/

namespace Keypad

open Keypad.Text

/-- What a lexeme is written for. -/
inductive Form where
  /-- Digits of any script, with at most one point. -/
  | number
  | operator
  | paren
  /-- A command of one key. -/
  | command
  /-- A name between apostrophes, with a colour behind a colon. -/
  | label
  /-- A unit in brackets. -/
  | unit
  /-- `>` and the name to keep a number under. -/
  | store
  /-- `$` and the name of a variable to type. -/
  | retrieve
  /-- `!` and the name of a variable to give up. -/
  | forget
  /-- `@` and the index of a calculation to load. -/
  | load
  | space
deriving DecidableEq

namespace Form

/-- All forms, in the order of the grammar. -/
def all : List Form :=
  [number, operator, paren, command, label, unit, store, retrieve, forget, load, space]

/-- The word for a form. -/
def name : Form → String
  | number => "number"
  | operator => "operator"
  | paren => "paren"
  | command => "command"
  | label => "label"
  | unit => "unit"
  | store => "store"
  | retrieve => "recall"
  | forget => "forget"
  | load => "load"
  | space => "space"

/-- The texts of operators, symbols first. -/
def operatorTexts : List String :=
  [Operator.add, .subtract, .multiply, .divide].map Operator.symbol ++ Operator.aliases.map (·.1)

/-- The texts of grouping marks. -/
def markTexts : List String := [Mark.opening, .closing].map Mark.text

/-- The keys that are commands. -/
def commandKeys : List Char := ['=', 'c', '<', '_', '%', 'h', 'v', '?']

/-- The length of the run of characters of a class at the front. -/
def runLength (cls : Char → Bool) (cs : List Char) : Nat := (cs.takeWhile cls).length

/-- Digits, and a point with further digits; a point alone will do. -/
def numberLength (cs : List Char) : Nat :=
  let whole := runLength isDigit cs
  match cs.drop whole with
  | '.' :: rest => whole + 1 + runLength isDigit rest
  | _ => whole

/-- One character of a class. -/
def oneLength (cls : Char → Bool) : List Char → Nat
  | c :: _ => if cls c then 1 else 0
  | [] => 0

/-- A character, and a run of one or more of a class behind it. -/
def leadLength (lead : Char) (cls : Char → Bool) : List Char → Nat
  | c :: cs => if c = lead ∧ runLength cls cs ≠ 0 then 1 + runLength cls cs else 0
  | [] => 0

/-- A text that ends at the first closing character behind the opening one. -/
def enclosedLength (opening closing : Char) : List Char → Nat
  | c :: cs =>
    if c = opening ∧ closing ∈ cs then runLength (· ≠ closing) cs + 2 else 0
  | [] => 0

/-- The same with a caret in front, which aims at the operand entered last. -/
def aimedLength (length : List Char → Nat) : List Char → Nat
  | '^' :: cs => if length cs = 0 then 0 else 1 + length cs
  | cs => length cs

/-- Whether the character may stand in the word for a colour. -/
def isColorLetter (c : Char) : Bool := c.isLower

/-- A name between apostrophes, and a colour if one follows. -/
def labelLength (cs : List Char) : Nat :=
  let quoted := enclosedLength '\x27' '\x27' cs
  if quoted = 0 then 0 else quoted + leadLength ':' isColorLetter (cs.drop quoted)

/-- The length of the longest lexeme of the form at the front, zero if there is none. -/
def prefixLength : Form → List Char → Nat
  | number => numberLength
  | operator => oneLength fun c => operatorTexts.contains (String.singleton c)
  | paren => oneLength fun c => markTexts.contains (String.singleton c)
  | command => oneLength fun c => commandKeys.contains c
  | label => aimedLength labelLength
  | unit => aimedLength (enclosedLength '[' ']')
  | store => leadLength '>' isWord
  | retrieve => leadLength '$' isWord
  | forget => leadLength '!' isWord
  | load => leadLength '@' isDigit
  | space => runLength isBlank

end Form

end Keypad
