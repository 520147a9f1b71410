import Keypad.Lexeme.Language
import Keypad.Lexeme.Scan
import Mathlib.Data.List.Basic
import Mathlib.Data.List.TakeWhile

/-!
# The longest lexeme at the front

A form of lexemes is given twice: by the length that is cut off, and by the language of its texts.
`Measures` says that the two fit: what is cut off is a text of the language, and no longer text of
the language stands at the front. It is proved once for each way of putting a form together. No two
forms have texts at the front of one text, because a single character tells them apart: the first,
or behind a caret the second. So the lexeme at the front is the longest of any form.

* `prefixLength_measures` — the lengths and the languages of the forms fit.
* `Spells.form_eq`        — no text starts with lexemes of two forms.
* `measure?_eq_some_iff`  — the lexeme that is cut off is of the one form that there is.
-/

namespace Keypad

open Keypad.Text

namespace Text

/-- White space is no digit of any script. -/
theorem isDigit_of_isBlank {c : Char} (h : isBlank c = true) : isDigit c = false := by
  -- blanks and digits are far enough apart for no blank to lie in a run of ten
  have hapart : ∀ b ∈ blanks, ∀ z ∈ zeros ++ laterZeros, ¬(z ≤ b ∧ b < z + 10) := by decide +kernel
  have hmem : c.toNat ∈ blanks := List.contains_iff_mem.1 h
  have hrun : ∀ z ∈ zeros ++ laterZeros, isInRun c z = false := by
    intro z hz
    have hz' := hapart c.toNat hmem z hz
    simp only [isInRun, Bool.and_eq_false_iff, decide_eq_false_iff_not]
    omega
  have hread : zeros.find? (isInRun c) = none := by
    rw [List.find?_eq_none]
    intro z hz
    rw [hrun z (List.mem_append_left _ hz)]
    exact Bool.false_ne_true
  have hlater : laterZeros.any (isInRun c) = false := by
    rw [List.any_eq_false]
    intro z hz
    rw [hrun z (List.mem_append_right _ hz)]
    exact Bool.false_ne_true
  rw [isDigit, digitValue?, hread, hlater]
  rfl

end Text

namespace Form

/-! ## Lengths and languages -/

/-- The length is that of the longest text of the language at the front, and zero if there is
none. -/
structure Measures (length : List Char → Nat) (language : List Char → Prop) : Prop where
  front : ∀ cs, length cs ≠ 0 →
    ∃ text rest, cs = text ++ rest ∧ text.length = length cs ∧ language text
  longest : ∀ text rest, language text → text.length ≤ length (text ++ rest)
  ne_nil : ∀ text, language text → text ≠ []

/-- A length measures a language however that is described. -/
theorem Measures.congr {length : List Char → Nat} {language language' : List Char → Prop}
    (h : Measures length language) (heq : ∀ cs, language' cs ↔ language cs) :
    Measures length language' := by
  rwa [show language' = language from funext fun cs => propext (heq cs)]

section Runs

variable {cls : Char → Bool}

/-- A run goes on with what stands behind it. -/
theorem runLength_only_append {text : List Char} (h : Only cls text) (rest : List Char) :
    runLength cls (text ++ rest) = text.length + runLength cls rest := by
  rw [runLength, List.takeWhile_append_of_pos h, List.length_append]
  rfl

/-- There is no run where the first character is of another class. -/
theorem runLength_eq_zero {rest : List Char} (h : ∀ c ∈ rest.head?, cls c = false) :
    runLength cls rest = 0 := by
  cases rest with
  | nil => rfl
  | cons c rest => rw [runLength, List.takeWhile_cons, h c rfl]; rfl

/-- A text is its run and a rest that starts otherwise. -/
theorem exists_run_append (cls : Char → Bool) (cs : List Char) :
    ∃ text rest, cs = text ++ rest ∧ text.length = runLength cls cs ∧ Only cls text ∧
      ∀ c ∈ rest.head?, cls c = false := by
  refine ⟨cs.takeWhile cls, cs.dropWhile cls, List.takeWhile_append_dropWhile.symm, rfl,
    fun c hc => List.mem_takeWhile_imp hc, fun c hc => ?_⟩
  have hstop := List.head?_dropWhile_not cls cs
  rwa [show (cs.dropWhile cls).head? = some c from hc] at hstop

/-- The length of a run is that of the longest text of its characters. -/
theorem runs_measure (cls : Char → Bool) :
    Measures (runLength cls) fun cs => cs ≠ [] ∧ Only cls cs where
  front cs hcs := by
    obtain ⟨text, rest, heq, hlength, honly, -⟩ := exists_run_append cls cs
    exact ⟨text, rest, heq, hlength, List.length_pos_iff.1 (by omega), honly⟩
  longest text rest h := by
    rw [runLength_only_append h.2]
    exact Nat.le_add_right _ _
  ne_nil text h := h.1

/-- A form of single characters is measured by the first character. -/
theorem one_measures (cls : Char → Bool) :
    Measures (oneLength cls) fun cs => ∃ c, cls c = true ∧ cs = [c] where
  front cs hcs := by
    cases cs with
    | nil => exact absurd rfl hcs
    | cons c cs =>
      by_cases h : cls c = true
      · exact ⟨[c], cs, rfl, (if_pos h).symm, c, h, rfl⟩
      · exact absurd (if_neg h) hcs
  longest text rest h := by
    obtain ⟨c, hc, rfl⟩ := h
    exact Nat.le_of_eq (if_pos hc).symm
  ne_nil text h := by
    obtain ⟨c, -, rfl⟩ := h
    exact List.cons_ne_nil _ _

/-- A leading character counts only with a name behind it. -/
theorem led_measures (lead : Char) (cls : Char → Bool) :
    Measures (leadLength lead cls) (Led lead cls) where
  front cs hcs := by
    cases cs with
    | nil => exact absurd rfl hcs
    | cons c cs =>
      by_cases h : c = lead ∧ runLength cls cs ≠ 0
      · obtain ⟨name, rest, rfl, hlength, hname⟩ := (runs_measure cls).front cs h.2
        refine ⟨c :: name, rest, rfl, ?_, name, hname.1, hname.2, h.1 ▸ rfl⟩
        rw [leadLength, if_pos h, List.length_cons, hlength, Nat.add_comm]
      · exact absurd (if_neg h) hcs
  longest text rest h := by
    obtain ⟨name, hne, honly, rfl⟩ := h
    have hname := (runs_measure cls).longest name rest ⟨hne, honly⟩
    have hpos := List.length_pos_iff.2 hne
    rw [List.cons_append, leadLength, if_pos ⟨rfl, by omega⟩, List.length_cons]
    omega
  ne_nil text h := by
    obtain ⟨name, -, -, rfl⟩ := h
    exact List.cons_ne_nil _ _

end Runs

/-! ## Numbers -/

/-- Digits that no point follows are a whole number. -/
theorem numberLength_digits_append {ds rest : List Char} (h : Only isDigit ds)
    (hrest : ∀ c ∈ rest.head?, isDigit c = false) (hpoint : rest.head? ≠ some '.') :
    numberLength (ds ++ rest) = ds.length := by
  unfold numberLength
  simp only [runLength_only_append h, runLength_eq_zero hrest, Nat.add_zero, List.drop_left]
  split
  · exact absurd rfl hpoint
  · rfl

/-- Behind a point the number goes on with all digits that stand there. -/
theorem numberLength_point_append {whole : List Char} (h : Only isDigit whole)
    (rest : List Char) :
    numberLength (whole ++ '.' :: rest) = whole.length + 1 + runLength isDigit rest := by
  have hstop : runLength isDigit ('.' :: rest) = 0 := rfl
  unfold numberLength
  simp only [runLength_only_append h, hstop, Nat.add_zero, List.drop_left]

/-- A number is at least as long as its first digits. -/
theorem runLength_le_numberLength (cs : List Char) : runLength isDigit cs ≤ numberLength cs := by
  unfold numberLength
  dsimp only
  split
  · omega
  · exact Nat.le_refl _

/-- The length of a number is that of the longest one at the front. -/
theorem numbers_measure : Measures numberLength Numbers where
  front cs hcs := by
    obtain ⟨ds, rest, rfl, -, hds, hrest⟩ := exists_run_append isDigit cs
    -- the digits are the number, unless a point follows them
    by_cases hpoint : rest.head? = some '.'
    · obtain ⟨rest, rfl⟩ := List.head?_eq_some_iff.1 hpoint
      obtain ⟨fraction, rest, rfl, hlength, hfraction, -⟩ := exists_run_append isDigit rest
      refine ⟨ds ++ '.' :: fraction, rest, by simp, ?_, .inr ⟨ds, fraction, hds, hfraction, rfl⟩⟩
      rw [numberLength_point_append hds, List.length_append, List.length_cons, hlength]
      omega
    · have hlength := numberLength_digits_append hds hrest hpoint
      refine ⟨ds, rest, rfl, hlength.symm, .inl ⟨List.length_pos_iff.1 (by omega), hds⟩⟩
  longest text rest h := by
    rcases h with h | ⟨whole, fraction, hwhole, hfraction, rfl⟩
    · exact ((runs_measure isDigit).longest text rest h).trans (runLength_le_numberLength _)
    · rw [List.append_assoc, List.cons_append, numberLength_point_append hwhole,
        runLength_only_append hfraction, List.length_append, List.length_cons]
      omega
  ne_nil text h := by
    rcases h with h | ⟨whole, fraction, -, -, rfl⟩
    · exact h.1
    · exact List.append_ne_nil_of_right_ne_nil _ (List.cons_ne_nil _ _)

/-! ## Names and units -/

section Enclosed

variable {opening closing : Char}

/-- What is enclosed is as long as its inside and the two characters around it. -/
theorem enclosedLength_append {inside : List Char} (h : closing ∉ inside) (rest : List Char) :
    enclosedLength opening closing (opening :: (inside ++ closing :: rest)) =
      inside.length + 2 := by
  have honly : Only (fun c => decide (c ≠ closing)) inside := fun c hc =>
    decide_eq_true fun heq => h (heq ▸ hc)
  have hstop : runLength (fun c => decide (c ≠ closing)) (closing :: rest) = 0 := by
    simp [runLength]
  rw [enclosedLength, if_pos ⟨rfl, by simp⟩, runLength_only_append honly, hstop]

/-- An enclosed text ends at its first closing character, whatever follows. -/
theorem Enclosed.length_eq {text : List Char} (h : Enclosed opening closing text)
    (rest : List Char) : enclosedLength opening closing (text ++ rest) = text.length := by
  obtain ⟨inside, hinside, rfl⟩ := h
  rw [List.cons_append, List.append_assoc, List.singleton_append, enclosedLength_append hinside]
  simp

/-- What is enclosed ends at the first character that closes it, so there is only one. -/
theorem enclosed_measures (opening closing : Char) :
    Measures (enclosedLength opening closing) (Enclosed opening closing) where
  front cs hcs := by
    cases cs with
    | nil => exact absurd rfl hcs
    | cons c cs =>
      by_cases h : c = opening ∧ closing ∈ cs
      · obtain ⟨rfl, hmem⟩ := h
        obtain ⟨inside, rest, rfl, hinside⟩ := List.eq_append_cons_of_mem hmem
        have htext : Enclosed c closing (c :: (inside ++ [closing])) := ⟨inside, hinside, rfl⟩
        refine ⟨_, rest, by simp, ?_, htext⟩
        rw [enclosedLength_append hinside]
        simp
      · exact absurd (if_neg h) hcs
  longest text rest h := Nat.le_of_eq (h.length_eq rest).symm
  ne_nil text h := by
    obtain ⟨inside, -, rfl⟩ := h
    exact List.cons_ne_nil _ _

/-- Behind a caret comes a text of the language, which itself starts with no caret. -/
theorem aimed_measures {length : List Char → Nat} {language : List Char → Prop}
    (h : Measures length language) (hcaret : ∀ rest, ¬language ('^' :: rest)) :
    Measures (aimedLength length) (Aimed language) where
  front cs hcs := by
    unfold aimedLength at hcs ⊢
    split at hcs
    · next cs =>
      by_cases hne : length cs = 0
      · exact absurd (if_pos hne) hcs
      · obtain ⟨text, rest, rfl, hlength, htext⟩ := h.front cs hne
        refine ⟨'^' :: text, rest, rfl, ?_, .inr ⟨text, htext, rfl⟩⟩
        rw [if_neg hne, List.length_cons, hlength, Nat.add_comm]
    · obtain ⟨text, rest, rfl, hlength, htext⟩ := h.front cs hcs
      exact ⟨text, rest, rfl, hlength, .inl htext⟩
  longest text rest htext := by
    rcases htext with htext | ⟨text, htext, rfl⟩
    · -- a text without a caret is not taken for one behind a caret
      obtain ⟨c, text, rfl⟩ := List.exists_cons_of_ne_nil (h.ne_nil text htext)
      have hlongest := h.longest (c :: text) rest htext
      unfold aimedLength
      split
      · next heq =>
        obtain ⟨rfl, -⟩ := List.cons.inj heq
        exact absurd htext (hcaret text)
      · exact hlongest
    · have hlongest := h.longest text rest htext
      have hpos := List.length_pos_iff.2 (h.ne_nil text htext)
      simp only [List.cons_append, aimedLength, List.length_cons]
      rw [if_neg (by omega)]
      omega
  ne_nil text htext := by
    rcases htext with htext | ⟨text, -, rfl⟩
    · exact h.ne_nil text htext
    · exact List.cons_ne_nil _ _

end Enclosed

/-- The length of a name covers its colour, if there is one. -/
theorem labels_measure : Measures labelLength Labels where
  front cs hcs := by
    unfold labelLength at hcs ⊢
    dsimp only at hcs ⊢
    split at hcs
    · exact absurd rfl hcs
    · next hquoted =>
      obtain ⟨name, rest, rfl, hlength, hname⟩ := (enclosed_measures _ _).front cs hquoted
      rw [if_neg hquoted, ← hlength, List.drop_left]
      -- a colon without letters behind it is no colour and stays behind the name
      by_cases hcolor : leadLength ':' isColorLetter rest = 0
      · refine ⟨name, rest, rfl, ?_, name, [], hname, .inl rfl, (List.append_nil _).symm⟩
        rw [hcolor, Nat.add_zero]
      · obtain ⟨color, rest, rfl, hlength', hcolor'⟩ := (led_measures _ _).front rest hcolor
        refine ⟨name ++ color, rest, by simp, ?_, name, color, hname, .inr hcolor', rfl⟩
        rw [List.length_append, hlength']
  longest text rest h := by
    obtain ⟨name, color, hname, hcolor, rfl⟩ := h
    have hquoted := hname.length_eq (color ++ rest)
    have hpos := List.length_pos_iff.2 ((enclosed_measures _ _).ne_nil name hname)
    unfold labelLength
    simp only [List.append_assoc, hquoted, List.drop_left, List.length_append]
    rw [if_neg (by omega)]
    refine Nat.add_le_add_left ?_ _
    rcases hcolor with rfl | hcolor
    · exact Nat.zero_le _
    · exact (led_measures _ _).longest color rest hcolor
  ne_nil text h := by
    obtain ⟨name, color, hname, -, rfl⟩ := h
    exact List.append_ne_nil_of_left_ne_nil ((enclosed_measures _ _).ne_nil name hname) _

/-! ## The character that tells the form -/

/-- The characters besides digits and white space that the texts of a form are known by. -/
def marks : Form → List Char
  | number => ['.']
  | operator => ['+', '-', '×', '÷', '−', '*', 'x', '/']
  | paren => ['(', ')']
  | command => commandKeys
  | label => ['\x27']
  | unit => ['[']
  | store => ['>']
  | retrieve => ['$']
  | forget => ['!']
  | load => ['@']
  | space => []

/-- The character tells that a text is of the form. -/
inductive Tells (c : Char) : Form → Prop where
  | mark {form : Form} (h : c ∈ form.marks) : Tells c form
  | digit (h : isDigit c = true) : Tells c number
  | blank (h : isBlank c = true) : Tells c space

/-- The text begins with a character that tells the form. -/
def Begins (form : Form) (text : List Char) : Prop := ∃ c cs, text = c :: cs ∧ Tells c form

theorem mem_all (form : Form) : form ∈ all := by
  cases form <;> decide

/-- No mark of a form is a digit or white space. -/
theorem not_digit_or_blank_of_mem_marks {form : Form} {c : Char} (h : c ∈ form.marks) :
    isDigit c = false ∧ isBlank c = false := by
  -- the forms and their marks are few, so that both facts about them are checked
  have hall : (all.all fun form => form.marks.all fun c => !(isDigit c || isBlank c)) = true := by
    decide +kernel
  have hc := List.all_eq_true.1 (List.all_eq_true.1 hall form (mem_all form)) c h
  rwa [Bool.not_eq_true', Bool.or_eq_false_iff] at hc

/-- No mark is shared by two forms. -/
theorem eq_of_mem_marks {form form' : Form} {c : Char} (h : c ∈ form.marks)
    (h' : c ∈ form'.marks) : form = form' := by
  have hall : (all.all fun form => all.all fun form' => form.marks.all fun c =>
      !form'.marks.contains c || form == form') = true := by decide +kernel
  have hform := List.all_eq_true.1 hall form (mem_all form)
  have hforms := List.all_eq_true.1 hform form' (mem_all form')
  have hc := List.all_eq_true.1 hforms c h
  rw [List.contains_iff_mem.2 h', Bool.not_true, Bool.false_or, beq_iff_eq] at hc
  exact hc

/-- A character tells one form at most. -/
theorem Tells.eq {form form' : Form} {c : Char} (h : Tells c form) (h' : Tells c form') :
    form = form' := by
  cases h with
  | mark h =>
    obtain ⟨hdigit, hblank⟩ := not_digit_or_blank_of_mem_marks h
    cases h' with
    | mark h' => exact eq_of_mem_marks h h'
    | digit h' => cases hdigit.symm.trans h'
    | blank h' => cases hblank.symm.trans h'
  | digit h =>
    cases h' with
    | mark h' => cases (not_digit_or_blank_of_mem_marks h').1.symm.trans h
    | digit h' => rfl
    | blank h' => cases (isDigit_of_isBlank h').symm.trans h
  | blank h =>
    cases h' with
    | mark h' => cases (not_digit_or_blank_of_mem_marks h').2.symm.trans h
    | digit h' => cases (isDigit_of_isBlank h).symm.trans h'
    | blank h' => rfl

/-- The caret tells no form. -/
theorem Tells.ne_caret {form : Form} {c : Char} (h : Tells c form) : c ≠ '^' := by
  rintro rfl
  cases h with
  | mark h =>
    have hall : ∀ form ∈ all, '^' ∉ form.marks := by decide
    exact hall form (mem_all form) h
  | digit h => exact absurd h (by decide)
  | blank h => exact absurd h (by decide)

/-- No text that begins with a telling character begins with a caret. -/
theorem Begins.ne_caret {form : Form} {rest : List Char} : ¬form.Begins ('^' :: rest) := by
  rintro ⟨c, cs, heq, h⟩
  exact h.ne_caret (List.cons.inj heq).1.symm

/-- A number begins with a digit or the point. -/
theorem Numbers.begins {text : List Char} (h : Numbers text) : number.Begins text := by
  rcases h with ⟨hne, hdigits⟩ | ⟨whole, fraction, hwhole, -, rfl⟩
  · obtain ⟨c, cs, rfl⟩ := List.exists_cons_of_ne_nil hne
    exact ⟨c, cs, rfl, .digit (hdigits c List.mem_cons_self)⟩
  · cases whole with
    | nil => exact ⟨'.', fraction, rfl, .mark (by decide)⟩
    | cons c whole => exact ⟨c, _, rfl, .digit (hwhole c List.mem_cons_self)⟩

/-- What has a leading character begins with it. -/
theorem Led.begins {form : Form} {lead : Char} {cls : Char → Bool} (hlead : lead ∈ form.marks)
    {text : List Char} (h : Led lead cls text) : form.Begins text := by
  obtain ⟨name, -, -, rfl⟩ := h
  exact ⟨lead, name, rfl, .mark hlead⟩

/-- What is enclosed begins with the character that opens it. -/
theorem Enclosed.begins {form : Form} {opening closing : Char} (hopening : opening ∈ form.marks)
    {text : List Char} (h : Enclosed opening closing text) : form.Begins text := by
  obtain ⟨inside, -, rfl⟩ := h
  exact ⟨opening, _, rfl, .mark hopening⟩

/-- A name begins with its quote. -/
theorem Labels.begins {text : List Char} (h : Labels text) : label.Begins text := by
  obtain ⟨name, color, hname, -, rfl⟩ := h
  have hbegins : label.Begins name := hname.begins (by decide)
  obtain ⟨c, cs, rfl, hc⟩ := hbegins
  exact ⟨c, cs ++ color, rfl, hc⟩

/-- The character that tells the form of a text: the first, or behind a caret the second. -/
def telling? : List Char → Option Char
  | '^' :: cs => cs.head?
  | cs => cs.head?

/-- In a text without a caret the first character tells the form. -/
theorem Begins.exists_telling {form : Form} {text : List Char} (h : form.Begins text)
    (rest : List Char) : ∃ c, Tells c form ∧ telling? (text ++ rest) = some c := by
  obtain ⟨c, cs, rfl, hc⟩ := h
  refine ⟨c, hc, ?_⟩
  unfold telling?
  split
  · next heq => exact absurd (List.cons.inj heq).1 hc.ne_caret
  · rfl

/-- In a text that may have a caret the first character behind it does. -/
theorem Aimed.exists_telling {form : Form} {language : List Char → Prop} {text : List Char}
    (h : Aimed language text) (hbegins : ∀ text, language text → form.Begins text)
    (rest : List Char) : ∃ c, Tells c form ∧ telling? (text ++ rest) = some c := by
  rcases h with h | ⟨text, h, rfl⟩
  · exact (hbegins text h).exists_telling rest
  · obtain ⟨c, cs, rfl, hc⟩ := hbegins text h
    exact ⟨c, hc, rfl⟩

/-! ## Every form -/

/-- The spellings of operators are single characters, the marks of their form. -/
theorem operatorTexts_eq : operatorTexts = operator.marks.map String.singleton := by
  decide +kernel

theorem markTexts_eq : markTexts = paren.marks.map String.singleton := by decide +kernel

/-- A text in a list of single characters is one of them. -/
theorem mem_texts_iff {texts : List String} {chars : List Char}
    (h : texts = chars.map String.singleton) {cs : List Char} :
    (∃ text ∈ texts, cs = text.toList) ↔ ∃ c ∈ chars, cs = [c] := by
  simp [h]

/-- A text that is one of some single characters. -/
theorem texts_measure {texts : List String} {chars : List Char}
    (h : texts = chars.map String.singleton) :
    Measures (oneLength fun c => texts.contains (String.singleton c))
      fun cs => ∃ text ∈ texts, cs = text.toList := by
  have hinj : Function.Injective String.singleton := fun a b hab => by
    simpa using congrArg String.toList hab
  refine (one_measures _).congr fun cs => ?_
  rw [mem_texts_iff h]
  refine exists_congr fun c => and_congr_left fun _ => ?_
  rw [List.contains_iff_mem, h, List.mem_map_of_injective hinj]

/-- The length that is cut off for a form is that of the longest text of the form. -/
theorem prefixLength_measures (form : Form) : Measures form.prefixLength form.Spells := by
  cases form with
  | number => exact numbers_measure
  | operator => exact texts_measure operatorTexts_eq
  | paren => exact texts_measure markTexts_eq
  | command =>
    refine (one_measures _).congr fun cs => exists_congr fun key => ?_
    rw [List.contains_iff_mem]
  | label => exact aimed_measures labels_measure fun _ h => h.begins.ne_caret
  | unit =>
    refine aimed_measures (enclosed_measures _ _) fun rest h => ?_
    have hbegins : unit.Begins ('^' :: rest) := h.begins (by decide)
    exact hbegins.ne_caret
  | store => exact led_measures _ _
  | retrieve => exact led_measures _ _
  | forget => exact led_measures _ _
  | load => exact led_measures _ _
  | space => exact runs_measure _

/-- Whatever follows a text, its form is told by one character. -/
theorem Spells.exists_telling {form : Form} {text : List Char} (h : form.Spells text)
    (rest : List Char) : ∃ c, Tells c form ∧ telling? (text ++ rest) = some c := by
  have hone {form : Form} (h : ∃ c ∈ form.marks, text = [c]) : form.Begins text := by
    obtain ⟨c, hc, rfl⟩ := h
    exact ⟨c, [], rfl, .mark hc⟩
  cases form with
  | number => exact (Numbers.begins h).exists_telling rest
  | operator => exact (hone ((mem_texts_iff operatorTexts_eq).1 h)).exists_telling rest
  | paren => exact (hone ((mem_texts_iff markTexts_eq).1 h)).exists_telling rest
  | command =>
    have hbegins : command.Begins text := hone h
    exact hbegins.exists_telling rest
  | label => exact Aimed.exists_telling h (fun _ => Labels.begins) rest
  | unit => exact Aimed.exists_telling h (fun _ => Enclosed.begins (by decide)) rest
  | store => exact (Led.begins (by decide) h).exists_telling rest
  | retrieve => exact (Led.begins (by decide) h).exists_telling rest
  | forget => exact (Led.begins (by decide) h).exists_telling rest
  | load => exact (Led.begins (by decide) h).exists_telling rest
  | space =>
    obtain ⟨c, cs, rfl⟩ := List.exists_cons_of_ne_nil h.1
    exact Begins.exists_telling ⟨c, cs, rfl, .blank (h.2 c List.mem_cons_self)⟩ rest

/-- No text starts with lexemes of two forms. -/
theorem Spells.form_eq {form form' : Form} {text text' cs : List Char} (h : form.Spells text)
    (htext : text <+: cs) (h' : form'.Spells text') (htext' : text' <+: cs) : form = form' := by
  obtain ⟨rest, rfl⟩ := htext
  obtain ⟨rest', heq⟩ := htext'
  -- both texts stand at one front, so they are told by the same character
  obtain ⟨c, hc, htelling⟩ := h.exists_telling rest
  obtain ⟨c', hc', htelling'⟩ := h'.exists_telling rest'
  rw [heq, htelling] at htelling'
  obtain rfl := Option.some.inj htelling'
  exact hc.eq hc'

/-- A form has a length at the front exactly if it has a text there. -/
theorem prefixLength_ne_zero_iff {form : Form} {cs : List Char} :
    form.prefixLength cs ≠ 0 ↔ ∃ text, form.Spells text ∧ text <+: cs := by
  have hmeasures := prefixLength_measures form
  constructor
  · intro h
    obtain ⟨text, rest, rfl, -, htext⟩ := hmeasures.front cs h
    exact ⟨text, htext, List.prefix_append _ _⟩
  · rintro ⟨text, htext, rest, rfl⟩
    have hlongest := hmeasures.longest text rest htext
    have hpos := List.length_pos_iff.2 (hmeasures.ne_nil text htext)
    omega

end Form

namespace Lexeme

open Form

/-! ## The lexeme at the front -/

/-- What is cut off is of the one form that has a text at the front. -/
theorem measure?_eq_some_iff {cs : List Char} {form : Form} {n : Nat} :
    measure? cs = some (form, n) ↔ n ≠ 0 ∧ form.prefixLength cs = n := by
  have hunique : ∀ {form form' : Form}, form.prefixLength cs ≠ 0 → form'.prefixLength cs ≠ 0 →
      form = form' := by
    intro form form' h h'
    obtain ⟨text, htext, hfront⟩ := prefixLength_ne_zero_iff.1 h
    obtain ⟨text', htext', hfront'⟩ := prefixLength_ne_zero_iff.1 h'
    exact htext.form_eq hfront htext' hfront'
  rw [measure?, Option.map_eq_some_iff]
  constructor
  · rintro ⟨form', hfind, heq⟩
    obtain ⟨rfl, rfl⟩ := Prod.mk.inj heq
    exact ⟨bne_iff_ne.1 (List.find?_some (p := fun f : Form => f.prefixLength cs != 0) hfind), rfl⟩
  · rintro ⟨hne, rfl⟩
    cases hfind : Form.all.find? fun f => f.prefixLength cs != 0 with
    | none => exact absurd (bne_iff_ne.2 hne) (List.find?_eq_none.1 hfind form (mem_all form))
    | some form' =>
      have hne' := List.find?_some (p := fun f : Form => f.prefixLength cs != 0) hfind
      exact ⟨form', rfl, by rw [hunique (bne_iff_ne.1 hne') hne]⟩

/-- Nothing is cut off just where no form has a text. -/
theorem measure?_eq_none_iff {cs : List Char} :
    measure? cs = none ↔ ∀ (form : Form) text, form.Spells text → ¬text <+: cs := by
  rw [measure?, Option.map_eq_none_iff, List.find?_eq_none]
  constructor
  · intro h form text htext hfront
    exact h form (mem_all form) (bne_iff_ne.2 (prefixLength_ne_zero_iff.2 ⟨text, htext, hfront⟩))
  · intro h form _ hne
    obtain ⟨text, htext, hfront⟩ := prefixLength_ne_zero_iff.1 (bne_iff_ne.1 hne)
    exact h form text htext hfront

end Lexeme

end Keypad
