/-!
# White space

`isBlank` is the Unicode property of white space, which separates lexemes and may surround a number.
`isMargin` adds the four information separators, which are no white space but are cut from the ends
of a text that is shown. `trim` cuts such characters from both ends.
-/

namespace Keypad.Text

/-- Code points of the white space characters. -/
def blanks : List Nat :=
  [0x9, 0xA, 0xB, 0xC, 0xD, 0x20, 0x85, 0xA0, 0x1680, 0x2000, 0x2001, 0x2002, 0x2003, 0x2004,
   0x2005, 0x2006, 0x2007, 0x2008, 0x2009, 0x200A, 0x2028, 0x2029, 0x202F, 0x205F, 0x3000]

/-- Whether the character is white space. -/
def isBlank (c : Char) : Bool := blanks.contains c.toNat

/-- Whether the character is cut from the ends of a shown text: white space, or one of the
information separators U+001C to U+001F. -/
def isMargin (c : Char) : Bool :=
  isBlank c || (decide (0x1C ≤ c.toNat) && decide (c.toNat ≤ 0x1F))

/-- The text without the characters of the class at its two ends. -/
def trim (cls : Char → Bool) (cs : List Char) : List Char :=
  ((cs.dropWhile cls).reverse.dropWhile cls).reverse

/-- What is of the class at the end of a text is cut off with its end. -/
theorem trim_append {cls : Char → Bool} {behind : List Char} (h : ∀ c ∈ behind, cls c = true)
    (cs : List Char) : trim cls (cs ++ behind) = trim cls cs := by
  have hreverse : ∀ c ∈ behind.reverse, cls c = true := fun c hc => h c (List.mem_reverse.1 hc)
  have hnil : (behind ++ []).dropWhile cls = [] := List.dropWhile_append_of_pos h
  rw [List.append_nil] at hnil
  unfold trim
  rw [List.dropWhile_append]
  split
  · next hempty => rw [List.isEmpty_iff.1 hempty, hnil]
  · rw [List.reverse_append, List.dropWhile_append_of_pos hreverse]

end Keypad.Text
