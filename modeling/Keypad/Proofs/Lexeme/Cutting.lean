import Keypad.Proofs.Lexeme.Longest
import Keypad.Proofs.Number.NumeralLanguage

/-!
# Cutting an expression into lexemes

The lexeme at the front of a text, where that is a number, an operator, a grouping mark or white
space. A number is cut off whole if it is not followed by a further digit or point; an operator and
a mark are cut off whatever follows. `scan_append` goes on from there.
-/

namespace Keypad

open Keypad.Text

namespace Text

theorem isDigit_of_char_isDigit {c : Char} (h : c.isDigit = true) : isDigit c = true := by
  rw [isDigit, digitValue?_of_isDigit h]
  rfl

end Text

/-- Every spelling that is read is one that the lexer knows. -/
theorem Operator.mem_operatorTexts_of_read {text : String} {op : Operator}
    (h : Operator.read text = .ok op) : text ∈ Form.operatorTexts := by
  unfold Operator.read at h
  cases halias : aliases.lookup text with
  | some op' =>
    obtain ⟨before, behind, heq, -⟩ := List.lookup_eq_some_iff.1 halias
    refine List.mem_append_right _ (List.mem_map.2 ⟨(text, op'), ?_, rfl⟩)
    rw [heq]
    exact List.mem_append_right _ List.mem_cons_self
  | none =>
    rw [halias, Option.none_or] at h
    cases hsymbol : ofSymbol? text with
    | none =>
      rw [hsymbol] at h
      cases h
    | some op' =>
      refine List.mem_append_left _ (List.mem_map.2 ⟨op', List.mem_of_find?_eq_some hsymbol, ?_⟩)
      exact (eq_symbol_of_ofSymbol? hsymbol).symm

namespace Form

/-! ## The front of a text -/

/-- A number before this text ends there. -/
def EndsNumber (rest : List Char) : Prop := ∀ c ∈ rest.head?, isDigit c = false ∧ c ≠ '.'

/-- Digits are a whole number if they end there. -/
theorem numberLength_of_digits {ds rest : List Char} (h : ∀ c ∈ ds, isDigit c = true)
    (hrest : EndsNumber rest) : numberLength (ds ++ rest) = ds.length :=
  numberLength_digits_append h (fun c hc => (hrest c hc).1) fun hpoint => (hrest '.' hpoint).2 rfl

/-- Digits with a point among them are a whole number if they end there. -/
theorem numberLength_of_point {whole fraction rest : List Char}
    (hwhole : ∀ c ∈ whole, isDigit c = true) (hfraction : ∀ c ∈ fraction, isDigit c = true)
    (hrest : EndsNumber rest) :
    numberLength (whole ++ '.' :: (fraction ++ rest)) = (whole ++ '.' :: fraction).length := by
  rw [numberLength_point_append hwhole, runLength_only_append hfraction,
    runLength_eq_zero fun c hc => (hrest c hc).1, List.length_append, List.length_cons]
  omega

/-- The texts of operators and marks are single characters that end a number. -/
theorem exists_singleton_of_mem {text : String} (h : text ∈ operatorTexts ++ markTexts) :
    ∃ c, text = String.singleton c ∧ EndsNumber [c] := by
  have hends {form : Form} {c : Char} (hc : c ∈ form.marks) (hform : form ≠ .number) :
      EndsNumber [c] := by
    intro c' hc'
    cases hc'
    refine ⟨(not_digit_or_blank_of_mem_marks hc).1, ?_⟩
    rintro rfl
    exact hform (eq_of_mem_marks hc (by decide))
  rcases List.mem_append.1 h with h | h
  · rw [operatorTexts_eq] at h
    obtain ⟨c, hc, rfl⟩ := List.mem_map.1 h
    exact ⟨c, rfl, hends hc (by decide)⟩
  · rw [markTexts_eq] at h
    obtain ⟨c, hc, rfl⟩ := List.mem_map.1 h
    exact ⟨c, rfl, hends hc (by decide)⟩

end Form

namespace Lexeme

open Form

/-! ## The lexeme at the front -/

theorem measure?_number {cs : List Char} (h : numberLength cs ≠ 0) :
    measure? cs = some (.number, numberLength cs) := measure?_eq_some_iff.2 ⟨h, rfl⟩

/-- An operator at the front is cut off, whatever follows. -/
theorem measure?_operator {c : Char} (h : String.singleton c ∈ operatorTexts)
    (rest : List Char) : measure? (c :: rest) = some (.operator, 1) :=
  measure?_eq_some_iff.2 ⟨Nat.one_ne_zero, if_pos (List.contains_iff_mem.2 h)⟩

theorem measure?_mark {c : Char} (h : String.singleton c ∈ markTexts) (rest : List Char) :
    measure? (c :: rest) = some (.paren, 1) :=
  measure?_eq_some_iff.2 ⟨Nat.one_ne_zero, if_pos (List.contains_iff_mem.2 h)⟩

/-- White space at the front is cut off as far as it goes. -/
theorem measure?_space {c : Char} (h : isBlank c = true) (cs : List Char) :
    measure? (c :: cs) = some (.space, runLength isBlank (c :: cs)) := by
  refine measure?_eq_some_iff.2 ⟨?_, rfl⟩
  rw [runLength, List.takeWhile_cons, if_pos h]
  exact Nat.succ_ne_zero _

/-! ## What is cut off -/

/-- Once the lexeme at the front is known, the rest is cut on its own. -/
theorem scan_append {cs rest : List Char} {form : Form}
    (h : measure? (cs ++ rest) = some (form, cs.length)) (hne : cs ≠ []) :
    scan (cs ++ rest) = (⟨form, cs⟩ :: (scan rest).1, (scan rest).2) := by
  obtain ⟨c, cs, rfl⟩ := List.exists_cons_of_ne_nil hne
  rw [List.cons_append] at h ⊢
  rw [scan, h]
  simp only [List.length_cons, Nat.add_sub_cancel, List.drop_left, List.take_left]

/-- White space is cut off as far as it goes. -/
theorem scan_of_isBlank {c : Char} (h : isBlank c = true) (cs : List Char) :
    scan (c :: cs) =
      (⟨.space, (c :: cs).takeWhile isBlank⟩ :: (scan ((c :: cs).dropWhile isBlank)).1,
        (scan ((c :: cs).dropWhile isBlank)).2) := by
  have hsplit := List.takeWhile_append_dropWhile (p := isBlank) (l := c :: cs)
  have hne : (c :: cs).takeWhile isBlank ≠ [] := by
    rw [List.takeWhile_cons, if_pos h]
    exact List.cons_ne_nil _ _
  have hmeasure : measure? ((c :: cs).takeWhile isBlank ++ (c :: cs).dropWhile isBlank) =
      some (.space, ((c :: cs).takeWhile isBlank).length) := by
    rw [hsplit]
    exact measure?_space h cs
  have hscan := scan_append hmeasure hne
  rwa [hsplit] at hscan

end Lexeme

end Keypad
