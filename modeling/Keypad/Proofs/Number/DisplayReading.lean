import Keypad.Number.Reading
import Keypad.Proofs.Number.Grouping

/-!
# Reading what is displayed

The text that is displayed for a number can be typed in its place. Displaying it once more changes
nothing, since its commas are dropped and set anew, and it is read as the number it was displayed
for, since commas and a line feed at the end make no difference to that. Neither depends on the text
being that of a number.
-/

namespace Keypad

open Keypad.Text

/-- White space at the end of a numeral makes no difference. -/
theorem Numeral.parse_append {behind : List Char} (h : ∀ c ∈ behind, isBlank c = true)
    (cs : List Char) : parse (cs ++ behind) = parse cs := by
  rw [parse, parse, trim_append h]

namespace Number

/-- Nothing but commas is added to digits. -/
theorem mem_groupThousands {c : Char} {ds : List Char} (h : c ∈ groupThousands ds) :
    c ∈ ds ∨ c = ',' := by
  by_cases hcomma : c = ','
  · exact .inr hcomma
  · have hfilter : c ∈ (groupThousands ds).filter (· != ',') :=
      List.mem_filter.2 ⟨h, bne_iff_ne.2 hcomma⟩
    rw [filter_groupThousands] at hfilter
    exact .inl (List.mem_filter.1 hfilter).1

namespace PlainNumber

/-- What is shown is the text of a plain number too, with its commas in place. -/
def regrouped (n : PlainNumber) : PlainNumber where
  sign := n.sign
  whole := groupThousands n.digits
  fraction := n.fraction
  sign_eq := n.sign_eq
  whole_mem c hc := by
    rcases mem_groupThousands hc with hc | hc
    · exact n.whole_mem c (List.mem_filter.1 hc).1
    · exact .inr hc
  fraction_eq := n.fraction_eq

theorem text_regrouped (n : PlainNumber) : n.regrouped.text = n.shown := rfl

/-- What is shown is shown as it is. -/
theorem shown_regrouped (n : PlainNumber) : n.regrouped.shown = n.shown := by
  have hdigits : n.regrouped.digits = n.digits := by
    simp [digits, regrouped, filter_groupThousands, List.filter_filter]
  rw [shown, hdigits]
  rfl

/-- Showing changes nothing but the commas. -/
theorem filter_shown (n : PlainNumber) :
    n.shown.filter (· != ',') = n.text.filter (· != ',') := by
  simp [shown, text, digits, filter_groupThousands, List.filter_append, List.filter_filter]

end PlainNumber

/-- A text is shown as a plain number is, or as it stands. -/
theorem displayText_cases (text : String) :
    displayText text = text ∨
      ∃ n : PlainNumber, n.WrittenAs text.toList ∧ (displayText text).toList = n.shown := by
  by_cases h : ∃ n : PlainNumber, n.WrittenAs text.toList
  · obtain ⟨n, hn⟩ := h
    exact .inr ⟨n, hn, toList_displayText hn⟩
  · exact .inl (displayText_eq_self (not_exists.1 h))

/-- Displaying a displayed text changes nothing. -/
theorem displayText_displayText (text : String) :
    displayText (displayText text) = displayText text := by
  rcases displayText_cases text with heq | ⟨n, -, hshown⟩
  · rw [heq, heq]
  · apply String.toList_inj.1
    have hwritten : n.regrouped.WrittenAs (displayText text).toList :=
      .inl (hshown.trans n.text_regrouped.symm)
    rw [toList_displayText hwritten, n.shown_regrouped, hshown]

/-- The text that is displayed stands for the same number, if for any. -/
theorem ofText?_displayText (text : String) : ofText? (displayText text) = ofText? text := by
  rcases displayText_cases text with heq | ⟨n, hwritten, hshown⟩
  · rw [heq]
  · rw [ofText?, ofText?, hshown, n.filter_shown]
    rcases hwritten with htext | htext
    · rw [htext]
    · -- a line feed at the end was not shown, and is white space where it is read
      have hblank : ∀ c ∈ ['\n'], isBlank c = true :=
        List.forall_mem_singleton.2 rfl
      have hfilter : (n.text ++ ['\n']).filter (· != ',') =
          n.text.filter (· != ',') ++ ['\n'] := List.filter_append ..
      rw [htext, hfilter, Numeral.parse_append hblank]

/-- What is displayed for a text is displayed for itself, and it is read as a number exactly if the
text is, and as the same one. -/
theorem displayText_reads_back (text : String) :
    displayText (displayText text) = displayText text ∧
      ∀ x, read (displayText text) = .ok x ↔ read text = .ok x := by
  refine ⟨displayText_displayText text, fun x => ?_⟩
  rw [read, read, ofText?_displayText]
  cases ofText? text with
  | none => exact iff_of_false nofun nofun
  | some number =>
    cases number with
    | finite y => rfl
    | infinite negative => exact iff_of_false nofun nofun
    | undefined => exact iff_of_false nofun nofun

end Number

end Keypad
