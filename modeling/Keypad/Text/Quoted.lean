import Keypad.Text.Printable

/-!
# Quoted text

Messages show a text between quotation marks. The apostrophe is the mark, unless the text holds
apostrophes and no double quotes. The mark and the backslash are escaped by a backslash, line feed,
tab and carriage return have letters of their own, and any other character that is not printable is
written by its code point, in the shortest of the three widths two, four and eight.
-/

namespace Keypad.Text

/-- The mark that quotes the text: a double quote only where that saves escaping apostrophes. -/
def quoteMark (cs : List Char) : Char :=
  if cs.contains '\x27' && !cs.contains '"' then '"' else '\x27'

/-- The number in lower-case hexadecimal, filled with zeros to the width. -/
def hexadecimal (width n : Nat) : List Char :=
  let ds := Nat.toDigits 16 n
  List.replicate (width - ds.length) '0' ++ ds

/-- How one character stands between the marks. -/
def escapeChar (mark c : Char) : List Char :=
  if c = mark ∨ c = '\\' then ['\\', c]
  else if c = '\n' then ['\\', 'n']
  else if c = '\t' then ['\\', 't']
  else if c = '\r' then ['\\', 'r']
  else if isPrintable c then [c]
  else if c.toNat < 0x100 then '\\' :: 'x' :: hexadecimal 2 c.toNat
  else if c.toNat < 0x10000 then '\\' :: 'u' :: hexadecimal 4 c.toNat
  else '\\' :: 'U' :: hexadecimal 8 c.toNat

/-- The text between quotation marks. -/
def quote (s : String) : String :=
  let mark := quoteMark s.toList
  String.ofList (mark :: (s.toList.flatMap (escapeChar mark) ++ [mark]))

end Keypad.Text
