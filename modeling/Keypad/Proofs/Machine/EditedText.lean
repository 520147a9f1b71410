import Keypad.Machine.Buffer
import Keypad.Proofs.Number.Layout
import Keypad.Proofs.Number.ReadBack

/-!
# When an edit leaves a number

A key puts a character behind the text in the buffer, and the sign key puts a minus in front of it
or takes one away. Most of the time what comes out is the text of a number again. The three
predicates here say exactly when it is not: a point behind an exponent, anything behind white space,
a digit that makes the number too large, a minus before a sign or white space.

* `isReadable_typePoint_iff`, `isReadable_typeDigit_iff`, `isReadable_toggleSign_iff`
-/

namespace Keypad

open Keypad.Text Keypad.Numeral Keypad.Number

namespace Number

/-- A character other than a comma stays where it is put. -/
theorem ungrouped_push {c : Char} (hc : c ≠ ',') (text : String) :
    ungrouped (text.push c) = ungrouped text ++ [c] := by
  rw [ungrouped, String.toList_push, List.filter_append]
  exact congrArg (ungrouped text ++ ·) (List.filter_cons_of_pos (bne_iff_ne.2 hc))

/-- Dropping commas drops nothing else. -/
theorem mem_ungrouped {c : Char} {text : String} (hc : c ≠ ',') :
    c ∈ ungrouped text ↔ c ∈ text.toList := by
  rw [ungrouped, List.mem_filter, bne_iff_ne]
  exact and_iff_left hc

/-- An exponent shows in the text without commas. -/
theorem hasExponent_iff {text : String} :
    hasExponent text.toList = true ↔ 'e' ∈ ungrouped text ∨ 'E' ∈ ungrouped text := by
  rw [mem_ungrouped (by decide), mem_ungrouped (by decide)]
  simp only [hasExponent, List.any_eq_true, Bool.or_eq_true, beq_iff_eq]
  constructor
  · rintro ⟨c, hc, rfl | rfl⟩
    · exact .inl hc
    · exact .inr hc
  · rintro (h | h)
    · exact ⟨_, h, .inl rfl⟩
    · exact ⟨_, h, .inr rfl⟩

end Number

namespace Buffer

/-- The text ends with white space, commas apart. -/
def EndsBlank (text : String) : Prop := ∃ c ∈ (ungrouped text).getLast?, isBlank c = true

/-- A point cannot be read behind this text. -/
def PointSpoils (text : String) : Prop :=
  '.' ∉ text.toList ∧ (hasExponent text.toList = true ∨ EndsBlank text)

/-- A digit cannot be read behind this text, or makes it a number too large for a double. -/
def DigitSpoils (text : String) (digit : Char) : Prop :=
  isLoneZero text = false ∧
    (EndsBlank text ∨ ∃ negative, ofText? (text.push digit) = some (.infinite negative))

/-- A minus cannot be read before this text. -/
def SignSpoils (text : String) : Prop :=
  text.toList.head? ≠ some '-' ∧ ∃ c ∈ (ungrouped text).head?, IsLead c

variable {text : String}

/-- If the text does not end blank, neither does it without its commas. -/
theorem getLast?_of_not_endsBlank (h : ¬EndsBlank text) :
    ∀ c ∈ (ungrouped text).getLast?, isBlank c = false := by
  intro c hc
  cases hblank : isBlank c with
  | false => rfl
  | true => exact absurd ⟨c, hc, hblank⟩ h

/-- No digit and no letter stands before a decimal. -/
theorem not_mem_lead {before sign : List Char} {negative : Bool}
    (hbefore : ∀ c ∈ before, isBlank c = true) (hsign : SpellsSign sign negative) {c : Char}
    (hblank : isBlank c = false) (hplus : c ≠ '+') (hminus : c ≠ '-') : c ∉ before ++ sign := by
  intro hc
  rcases List.mem_append.1 hc with hc | hc
  · rw [hbefore c hc] at hblank
    cases hblank
  · cases hsign with
    | missing => cases hc
    | plus => exact hplus (List.mem_singleton.1 hc)
    | minus => exact hminus (List.mem_singleton.1 hc)

/-! ## Points -/

/-- A run holds no exponent. -/
theorem not_mem_run {cs : List Char} {ds : List Nat} (h : Run cs ds) {c : Char}
    (hc : digitValue? c = none) (hu : c ≠ '_') : c ∉ cs := by
  induction h with
  | nil => exact List.not_mem_nil
  | digit hd _ ih =>
    rintro (_ | ⟨_, hmem⟩)
    · rw [hc] at hd
      cases hd
    · exact ih hmem
  | joined hd _ _ ih =>
    rintro (_ | ⟨_, _ | ⟨_, hmem⟩⟩)
    · rw [hc] at hd
      cases hd
    · exact hu rfl
    · exact ih hmem

/-- A decimal without point and exponent is a run. -/
theorem run_of_spells {cs : List Char} {d : Decimal} (h : Spells cs d) (hpoint : '.' ∉ cs)
    (he : 'e' ∉ cs) (hE : 'E' ∉ cs) : ∃ ds, Run cs ds ∧ d = ⟨ofDigits ds, 0⟩ := by
  have hletter : ∀ letter, letter = 'e' ∨ letter = 'E' → letter ∉ cs := by
    rintro letter (rfl | rfl)
    · exact he
    · exact hE
  cases h with
  | pointed => exact absurd (List.mem_append_right _ List.mem_cons_self) hpoint
  | plain hwhole hne hexp =>
    cases hexp with
    | missing =>
      rw [List.append_nil]
      exact ⟨_, hwhole, rfl⟩
    | plain hl _ _ =>
      exact absurd (List.mem_append_right _ List.mem_cons_self) (hletter _ hl)
    | plus hl _ _ =>
      exact absurd (List.mem_append_right _ List.mem_cons_self) (hletter _ hl)
    | minus hl _ _ =>
      exact absurd (List.mem_append_right _ List.mem_cons_self) (hletter _ hl)

/-- Behind a number without point, exponent and white space a point can be read. -/
theorem isReadable_push_point (h : isReadable text = true) (hpoint : '.' ∉ text.toList)
    (hexponent : hasExponent text.toList = false) (hblank : ¬EndsBlank text) :
    isReadable (text.push '.') = true := by
  obtain ⟨negative, d, hlaid, hfits⟩ := isReadable_iff_laidOut.1 h
  obtain ⟨before, sign, body, heq, hbefore, hsign, hbody⟩ :=
    hlaid.exists_eq_append (getLast?_of_not_endsBlank hblank)
  have hbodyOf : ∀ c, c ∉ ungrouped text → c ∉ body := by
    intro c hmem hbodymem
    refine hmem ?_
    rw [heq]
    exact List.mem_append_right _ (List.mem_append_right _ hbodymem)
  have hletters := mt hasExponent_iff.2 (Bool.eq_false_iff.1 hexponent)
  rw [not_or] at hletters
  rw [← mem_ungrouped (by decide)] at hpoint
  -- without point and exponent the number is a run of digits, and that can end with a point
  obtain ⟨ds, hrun, rfl⟩ := run_of_spells hbody (hbodyOf '.' hpoint) (hbodyOf 'e' hletters.1)
    (hbodyOf 'E' hletters.2)
  refine isReadable_iff_laidOut.2 ⟨negative, _, ?_, hfits⟩
  rw [ungrouped_push (by decide), heq, List.append_assoc, List.append_assoc]
  exact .of_last hbefore hsign (hrun.spells_append_point hbody.ne_nil)

/-- What a point can stand behind has no exponent and no white space at its end. -/
theorem not_spoils_of_isReadable_push_point (h : isReadable (text.push '.') = true) :
    hasExponent text.toList = false ∧ ¬EndsBlank text := by
  obtain ⟨negative, d, hlaid, -⟩ := isReadable_iff_laidOut.1 h
  rw [ungrouped_push (by decide)] at hlaid
  obtain ⟨before, sign, body, heq, hbefore, hsign, hbody⟩ :=
    hlaid.exists_eq_append_of_concat (by decide)
  -- what stands before the point is a run of digits, which holds no letter and ends with a digit
  obtain ⟨hne, ds, hrun⟩ := spells_append_point_iff.1 ⟨d, hbody⟩
  have hletter : ∀ c, isBlank c = false → c ≠ '+' → c ≠ '-' → digitValue? c = none → c ≠ '_' →
      c ∉ ungrouped text := by
    intro c hblank hplus hminus hdigit hunderscore
    rw [heq, ← List.append_assoc, List.mem_append, not_or]
    exact ⟨not_mem_lead hbefore hsign hblank hplus hminus, not_mem_run hrun hdigit hunderscore⟩
  constructor
  · rw [Bool.eq_false_iff, Ne, hasExponent_iff, not_or]
    exact ⟨hletter 'e' (by decide) (by decide) (by decide) rfl (by decide),
      hletter 'E' (by decide) (by decide) (by decide) rfl (by decide)⟩
  · rintro ⟨c, hc, hblank⟩
    obtain ⟨front, c', v, rfl, hv⟩ := hrun.exists_eq_concat hne
    rw [heq, ← List.append_assoc, ← List.append_assoc, List.getLast?_concat] at hc
    cases hc
    rw [isBlank_of_digitValue? hv] at hblank
    cases hblank

/-- So a point leaves a number exactly if it does not spoil the text. -/
theorem isReadable_typePoint_iff (h : isReadable text = true) :
    isReadable (typePoint text) = true ↔ ¬PointSpoils text := by
  unfold typePoint PointSpoils
  simp only [List.contains_iff_mem]
  split
  · next hpoint => exact ⟨fun _ hspoils => hspoils.1 hpoint, fun _ => h⟩
  · next hpoint =>
    constructor
    · rintro hread ⟨-, hspoils⟩
      obtain ⟨hexponent, hblank⟩ := not_spoils_of_isReadable_push_point hread
      rcases hspoils with hspoils | hspoils
      · rw [hexponent] at hspoils
        cases hspoils
      · exact hblank hspoils
    · intro hspoils
      refine isReadable_push_point h hpoint (Bool.eq_false_iff.2 fun he => ?_) fun hb => ?_
      · exact hspoils ⟨hpoint, .inl he⟩
      · exact hspoils ⟨hpoint, .inr hb⟩

/-! ## Digits -/

/-- A number of one digit fits a double. -/
theorem fits_of_lt_ten {v : Nat} (h : v < 10) : (⟨v, 0⟩ : Decimal).Fits := by
  have hnumerator : (⟨v, 0⟩ : Decimal).numerator ≤ Double.largest.units * 1 := by
    have hlargest : 10 * unitsPerOne ≤ Double.largest.units * 1 := by decide +kernel
    refine Nat.le_trans ?_ hlargest
    exact Nat.mul_le_mul_right _ (by simp; omega)
  unfold Decimal.Fits
  rw [Decimal.toNumber_eq_ofRatio]
  exact Number.exists_ofRatio_eq_finite false Nat.one_pos Double.largest hnumerator

/-- One digit is a number, with a minus or without. -/
theorem isReadable_digit {digit : Char} (h : digit.isDigit = true) (negative : Bool) :
    isReadable (String.ofList ((if negative then ['-'] else []) ++ [digit])) = true := by
  have hrun : Run [digit] (keyValues [digit]) :=
    Run.of_isDigit fun c hc => List.mem_singleton.1 hc ▸ h
  have hspells : Spells [digit] ⟨ofDigits (keyValues [digit]), 0⟩ := by
    simpa using Spells.plain hrun (List.cons_ne_nil _ _) .missing
  have hfits : (⟨ofDigits (keyValues [digit]), 0⟩ : Decimal).Fits := by
    refine fits_of_lt_ten ?_
    rw [show ofDigits (keyValues [digit]) = digit.toNat - 48 from Nat.zero_add _]
    exact digitValue?_lt (digitValue?_of_isDigit h)
  obtain ⟨x, hx⟩ := (Decimal.exists_toNumber_iff_fits negative).2 hfits
  exact isReadable_iff.2 ⟨x, read_ofList_of_spells hspells hx⟩

/-- A lone zero gives way to a digit, and its minus stays. -/
theorem push_dropLast_of_isLoneZero (h : isLoneZero text = true) (digit : Char) :
    ∃ negative : Bool, (dropLast text).push digit =
      String.ofList ((if negative then ['-'] else []) ++ [digit]) := by
  simp only [isLoneZero, Bool.or_eq_true, beq_iff_eq] at h
  rcases h with rfl | rfl
  · exact ⟨false, by simp [dropLast]⟩
  · exact ⟨true, by simp [dropLast]⟩

/-- A lone zero that a digit has replaced is a number. -/
theorem isReadable_replaceZero (h : isLoneZero text = true) {digit : Char}
    (hdigit : digit.isDigit = true) : isReadable ((dropLast text).push digit) = true := by
  obtain ⟨negative, heq⟩ := push_dropLast_of_isLoneZero h digit
  rw [heq]
  exact isReadable_digit hdigit negative

/-- The text that a first key starts is a number. -/
theorem isReadable_first {key : Char} (h : isKey key = true) : isReadable (first key) = true := by
  unfold first
  split
  · decide +kernel
  · next hpoint =>
    have hdigit : key.isDigit = true := by simpa [isKey, hpoint] using h
    rw [show String.singleton key = String.ofList [key] by simp]
    exact isReadable_digit hdigit false

theorem ne_comma_of_isDigit {digit : Char} (h : digit.isDigit = true) : digit ≠ ',' := by
  rintro rfl
  cases h

/-- A digit can stand only behind a text that does not end blank. -/
theorem not_endsBlank_of_isReadable_push (h : isReadable text = true) {digit : Char}
    (hdigit : digit.isDigit = true) (hread : isReadable (text.push digit) = true) :
    ¬EndsBlank text := by
  rintro ⟨c, hc, hblank⟩
  obtain ⟨negative, d, hlaid, -⟩ := isReadable_iff_laidOut.1 h
  obtain ⟨negative', d', hlaid', -⟩ := isReadable_iff_laidOut.1 hread
  rw [ungrouped_push (ne_comma_of_isDigit hdigit)] at hlaid'
  obtain ⟨before, sign, body, heq, hbefore, hsign, hbody⟩ :=
    hlaid'.exists_eq_append_of_concat (isBlank_of_digitValue? (digitValue?_of_isDigit hdigit))
  rw [heq] at hlaid hc
  rcases List.eq_nil_or_concat' body with rfl | ⟨front, c', rfl⟩
  · -- nothing but white space and a sign would be left of a text that holds a digit
    obtain ⟨c', hc', v, hv⟩ := hlaid.exists_digit
    rw [List.append_nil] at hc'
    refine not_mem_lead hbefore hsign (isBlank_of_digitValue? hv) ?_ ?_ hc'
    · rintro rfl
      cases hv
    · rintro rfl
      cases hv
  · rw [← List.append_assoc, ← List.append_assoc, List.getLast?_concat] at hc
    cases hc
    rw [(hbody.isNumeralChar c (by simp)).isBlank_eq] at hblank
    cases hblank

/-- Where it spoils nothing, a digit makes a decimal of the text, if perhaps a large one. -/
theorem exists_laidOut_push_digit (h : isReadable text = true) {digit : Char}
    (hdigit : digit.isDigit = true) (hblank : ¬EndsBlank text) :
    ∃ negative d, LaidOut (ungrouped (text.push digit)) negative d := by
  obtain ⟨negative, d, hlaid, -⟩ := isReadable_iff_laidOut.1 h
  obtain ⟨before, sign, body, heq, hbefore, hsign, hbody⟩ :=
    hlaid.exists_eq_append (getLast?_of_not_endsBlank hblank)
  obtain ⟨d', hbody'⟩ := hbody.exists_append_digit (digitValue?_of_isDigit hdigit)
  rw [ungrouped_push (ne_comma_of_isDigit hdigit), heq, List.append_assoc, List.append_assoc]
  exact ⟨negative, d', .of_last hbefore hsign hbody'⟩

/-- A text that can be read is not too large. -/
theorem not_infinite_of_isReadable (h : isReadable text = true) (negative : Bool) :
    ofText? text ≠ some (.infinite negative) := by
  obtain ⟨negative', d, hlaid, hfits⟩ := isReadable_iff_laidOut.1 h
  obtain ⟨x, hx⟩ := (Decimal.exists_toNumber_iff_fits negative').2 hfits
  rw [ofText?_of_laidOut hlaid, hx]
  exact fun heq => by cases heq

/-- A digit behind a number makes another one, unless there is white space between them or it gets
too large. -/
theorem isReadable_push_digit_iff (h : isReadable text = true) {digit : Char}
    (hdigit : digit.isDigit = true) :
    isReadable (text.push digit) = true ↔
      ¬(EndsBlank text ∨ ∃ negative, ofText? (text.push digit) = some (.infinite negative)) := by
  rw [not_or]
  constructor
  · intro hread
    refine ⟨not_endsBlank_of_isReadable_push h hdigit hread, ?_⟩
    rintro ⟨negative, hinfinite⟩
    exact not_infinite_of_isReadable hread negative hinfinite
  · rintro ⟨hblank, hfinite⟩
    obtain ⟨negative, d, hlaid⟩ := exists_laidOut_push_digit h hdigit hblank
    -- a decimal that does not fit is read as an infinite number
    refine isReadable_iff_laidOut.2 ⟨negative, d, hlaid, ?_⟩
    by_contra hfits
    refine hfinite ⟨negative, ?_⟩
    rw [ofText?_of_laidOut hlaid, Decimal.toNumber_eq_infinite hfits]

/-- So a digit leaves a number exactly if it does not spoil the text: on a lone zero it never does.
-/
theorem isReadable_typeDigit_iff (h : isReadable text = true) {digit : Char}
    (hdigit : digit.isDigit = true) :
    isReadable (typeDigit text digit) = true ↔ ¬DigitSpoils text digit := by
  unfold typeDigit DigitSpoils
  cases hzero : isLoneZero text with
  | true =>
    simp only [if_true, Bool.true_eq_false, false_and, not_false_eq_true, iff_true]
    split
    · exact h
    · exact isReadable_replaceZero hzero hdigit
  | false =>
    simp only [Bool.false_eq_true, if_false, true_and]
    exact isReadable_push_digit_iff h hdigit

/-- A key cannot be read behind this text. -/
def KeySpoils (text : String) (key : Char) : Prop :=
  if key = '.' then PointSpoils text else DigitSpoils text key

/-- Either key leaves a number exactly if it does not spoil the text. -/
theorem isReadable_type_iff (h : isReadable text = true) {key : Char} (hkey : isKey key = true) :
    isReadable (type text key) = true ↔ ¬KeySpoils text key := by
  unfold type KeySpoils
  split
  · exact isReadable_typePoint_iff h
  · next hpoint => exact isReadable_typeDigit_iff h (isDigit_of_isKey hkey hpoint)

/-! ## Signs -/

/-- A text begins with a minus or it does not. -/
theorem minus_cases (text : String) :
    (∃ rest, text = String.ofList ('-' :: rest)) ∨ text.toList.head? ≠ some '-' := by
  by_cases hminus : text.toList.head? = some '-'
  · obtain ⟨rest, hrest⟩ := List.head?_eq_some_iff.1 hminus
    exact .inl ⟨rest, by rw [← hrest, String.ofList_toList]⟩
  · exact .inr hminus

/-- A minus in front is taken away. -/
theorem toggleSign_of_minus (rest : List Char) :
    toggleSign (String.ofList ('-' :: rest)) = String.ofList rest := by
  rw [toggleSign, String.toList_ofList]
  rfl

/-- Where there is no minus in front, one is put there. -/
theorem toggleSign_of_ne_minus (h : text.toList.head? ≠ some '-') :
    toggleSign text = String.ofList ('-' :: text.toList) := by
  unfold toggleSign
  split
  · next heq =>
    rw [heq] at h
    exact absurd rfl h
  · rfl

/-- A minus stays in front when commas are dropped. -/
theorem ungrouped_minus_cons (cs : List Char) :
    ungrouped (String.ofList ('-' :: cs)) = '-' :: ungrouped (String.ofList cs) := by
  rw [ungrouped, ungrouped, String.toList_ofList, String.toList_ofList]
  rfl

/-- Behind a minus in front nothing stands before the decimal. -/
theorem exists_decimal_of_minus {rest : List Char} {x : Double}
    (h : read (String.ofList ('-' :: rest)) = .ok x) :
    ∃ d body behind, ungrouped (String.ofList rest) = body ++ behind ∧ Spells body d ∧
      (∀ c ∈ behind, isBlank c = true) ∧ d.toNumber true = .finite x := by
  obtain ⟨negative, d, hlaid, hx⟩ := read_eq_ok_iff_laidOut.1 h
  rw [ungrouped_minus_cons, laidOut_minus_cons_iff] at hlaid
  obtain ⟨rfl, body, behind, heq, hbody, hbehind⟩ := hlaid
  exact ⟨d, body, behind, heq, hbody, hbehind, hx⟩

/-- Where a minus stands or can be put, the edit negates the number. -/
theorem read_toggleSign {x : Double} (h : read text = .ok x) (hspoils : ¬SignSpoils text) :
    read (toggleSign text) = .ok x.neg := by
  rcases minus_cases text with ⟨rest, rfl⟩ | hminus
  · obtain ⟨d, body, behind, heq, hbody, hbehind, hx⟩ := exists_decimal_of_minus h
    have hneg := Decimal.toNumber_not hx
    rw [Bool.not_true] at hneg
    rw [toggleSign_of_minus]
    refine read_eq_ok_iff_laidOut.2 ⟨false, d, ?_, hneg⟩
    rw [heq]
    exact .of_first hbody hbehind
  · obtain ⟨negative, d, hlaid, hx⟩ := read_eq_ok_iff_laidOut.1 h
    have hhead : ∀ c ∈ (ungrouped text).head?, ¬IsLead c := fun c hc hlead =>
      hspoils ⟨hminus, c, hc, hlead⟩
    obtain ⟨body, behind, heq, hbody, hbehind⟩ := hlaid.of_not_isLead hhead
    -- the text can be read in one way only, and without a sign it is positive
    have hpositive : parse (ungrouped text) = some (.decimal false d) :=
      parse_eq_decimal_iff_laidOut.2 (heq ▸ .of_first hbody hbehind)
    rw [parse_eq_decimal_iff_laidOut.2 hlaid] at hpositive
    cases hpositive
    have hneg := Decimal.toNumber_not hx
    rw [Bool.not_false] at hneg
    rw [toggleSign_of_ne_minus hminus]
    refine read_eq_ok_iff_laidOut.2 ⟨true, d, ?_, hneg⟩
    rw [ungrouped_minus_cons, String.ofList_toList]
    exact laidOut_minus_cons_iff.2 ⟨rfl, body, behind, heq, hbody, hbehind⟩

/-- So the sign key leaves a number exactly if it does not spoil the text. -/
theorem isReadable_toggleSign_iff (h : isReadable text = true) :
    isReadable (toggleSign text) = true ↔ ¬SignSpoils text := by
  constructor
  · -- behind the new minus a decimal would begin at once, but the text begins with a sign or blank
    rintro hread ⟨hminus, c, hc, hlead⟩
    rw [toggleSign_of_ne_minus hminus] at hread
    obtain ⟨y, hy⟩ := isReadable_iff.1 hread
    obtain ⟨d, body, behind, heq, hbody, -⟩ := exists_decimal_of_minus hy
    rw [String.ofList_toList] at heq
    rw [heq] at hc
    exact hbody.not_isLead_append c hc hlead
  · intro hspoils
    obtain ⟨x, hx⟩ := isReadable_iff.1 h
    exact isReadable_iff.2 ⟨_, read_toggleSign hx hspoils⟩

end Buffer

end Keypad
