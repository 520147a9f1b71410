import Keypad.Lexeme.Form

/-!
# The grammar as text

The forms of lexemes written as one extended regular expression, for the user who asks for the
grammar. White space and comments in it mean nothing.
-/

namespace Keypad.Form

/-- The characters that mean something in a pattern. -/
def patternMarks : List Char := "()[]\x7b\x7d?*+|^$\\.-#&~".toList

/-- The text as a pattern of itself. -/
def escapePattern (text : String) : String :=
  String.ofList (text.toList.flatMap fun c => if patternMarks.contains c then ['\\', c] else [c])

/-- The pattern that is one of some texts. -/
def oneOf (texts : List String) : String :=
  "(?:" ++ "|".intercalate (texts.map escapePattern) ++ ")"

/-- Lines set at an indentation. -/
def block (indentation : Nat) (lines : List String) : String :=
  let start := "\n" ++ String.ofList (List.replicate indentation ' ')
  String.join (lines.map (start ++ ·)) ++ start

/-- The pattern of a form. -/
def pattern : Form → String
  | number => block 14 ["\\d+", "\\.?", "\\d*", "|", "\\.\\d*"]
  | operator => oneOf operatorTexts
  | paren => "[()]"
  | command => oneOf (commandKeys.map String.singleton)
  | label =>
    block 13 ["\\^?", "'", "[^']*", "'", "# Optional colour, 'rent':red", "(?::[a-z]+)?"]
  | unit => block 12 ["\\^?", "\\[", "[^\\]]*", "\\]"]
  | store => ">\\w+"
  | retrieve => "\\$\\w+"
  | forget => "!\\w+"
  | load => "@\\d+"
  | space => "\\s+"

/-- The grammar of all lexemes, one group to a form. -/
def grammar : String :=
  "|".intercalate (all.map fun form => "(?<" ++ form.name ++ ">" ++ form.pattern ++ ")")

end Keypad.Form
