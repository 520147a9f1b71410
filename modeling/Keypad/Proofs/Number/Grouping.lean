import Keypad.Number.Display
import Mathlib.Data.List.Basic
import Mathlib.Data.List.TakeWhile

/-!
# Digits in groups of three

A plain number is shown with the digits before its point in groups of three, counted from the right.
`ByThrees` says this of a list of groups, and `groupThousands` is what sets such groups apart by
commas. Which texts are plain numbers is said by their parts (`PlainNumber`): these are regrouped,
with a line feed at their end or without, and every other text is shown as it stands.

* `groupThousands_flatten`  — groups of three are set apart by commas.
* `exists_byThrees`         — any digits come in such groups.
* `regroup?_eq_some_iff`    — what is regrouped is a plain number.
* `displayText_grouped`     — how any text is shown.
-/

namespace Keypad.Number

open Keypad.Text

/-! ## Groups -/

/-- Groups of digits as they are shown: one to three digits in the first, and three in each of the
others. -/
inductive ByThrees : List (List Char) → Prop where
  | nil : ByThrees []
  | cons {first : List Char} {others : List (List Char)} (hne : first ≠ [])
      (hfirst : first.length ≤ 3) (hothers : ∀ group ∈ others, group.length = 3) :
      ByThrees (first :: others)

/-- Groups of three have three digits each. -/
theorem length_flatten_of_threes {groups : List (List Char)}
    (h : ∀ group ∈ groups, group.length = 3) : groups.flatten.length = 3 * groups.length := by
  induction groups with
  | nil => rfl
  | cons group groups ih =>
    obtain ⟨hgroup, hgroups⟩ := List.forall_mem_cons.1 h
    have hrest := ih hgroups
    simp only [List.flatten_cons, List.length_append, List.length_cons]
    omega

/-- Up to three digits at the end have no comma among them. -/
theorem groupThousands_of_length_le {ds : List Char} (h : ds.length ≤ 3) :
    groupThousands ds = ds := by
  induction ds with
  | nil => rfl
  | cons d ds ih =>
    rw [List.length_cons] at h
    have hcomma : ¬(ds.length % 3 = 0 ∧ ds ≠ []) := by
      rintro ⟨hmod, hne⟩
      have hpos := List.length_pos_iff.2 hne
      omega
    rw [groupThousands, if_neg hcomma, ih (by omega)]

/-- In front of whole groups, up to three digits are set apart by a comma. -/
theorem groupThousands_append {first rest : List Char} (hne : first ≠ [])
    (hfirst : first.length ≤ 3) (hrest : rest ≠ []) (hmod : rest.length % 3 = 0) :
    groupThousands (first ++ rest) = first ++ ',' :: groupThousands rest := by
  induction first with
  | nil => exact absurd rfl hne
  | cons d ds ih =>
    rw [List.length_cons] at hfirst
    rw [List.cons_append, groupThousands]
    by_cases hds : ds = []
    · subst hds
      rw [List.nil_append, if_pos ⟨hmod, hrest⟩]
      rfl
    · have hpos := List.length_pos_iff.2 hds
      have hcomma : ¬((ds ++ rest).length % 3 = 0 ∧ ds ++ rest ≠ []) := by
        rintro ⟨hmod', -⟩
        rw [List.length_append] at hmod'
        omega
      rw [if_neg hcomma, ih hds (by omega)]
      rfl

/-- Groups of three are set apart by commas. -/
theorem groupThousands_flatten {groups : List (List Char)} (h : ByThrees groups) :
    groupThousands groups.flatten = [','].intercalate groups := by
  cases h with
  | nil => rfl
  | @cons first others hne hfirst hothers =>
    -- the first group is any, so that the next one can take its place
    induction others generalizing first with
    | nil =>
      rw [List.flatten_singleton, List.intercalate_singleton, groupThousands_of_length_le hfirst]
    | cons next others ih =>
      obtain ⟨hnext, hothers'⟩ := List.forall_mem_cons.1 hothers
      have hnext' : next ≠ [] := List.length_pos_iff.1 (by omega)
      have hlength := length_flatten_of_threes hothers
      have hrest : (next :: others).flatten ≠ [] := by
        apply List.length_pos_iff.1
        rw [hlength, List.length_cons]
        omega
      rw [List.flatten_cons, groupThousands_append hne hfirst hrest (by omega),
        ih hnext' (by omega) hothers', List.intercalate_cons_cons]
      simp

/-- Any digits come in such groups. A digit in front opens a new group if the first one is full. -/
theorem exists_byThrees (ds : List Char) : ∃ groups, ByThrees groups ∧ groups.flatten = ds := by
  induction ds with
  | nil => exact ⟨[], .nil, rfl⟩
  | cons d ds ih =>
    obtain ⟨groups, hgroups, rfl⟩ := ih
    cases hgroups with
    | nil => exact ⟨[[d]], .cons (List.cons_ne_nil _ _) (by simp) (List.forall_mem_nil _), rfl⟩
    | @cons first others hne hfirst hothers =>
      -- a full group is left alone, and the digit stands in one of its own
      by_cases hfull : first.length = 3
      · refine ⟨[d] :: first :: others, .cons (List.cons_ne_nil _ _) (by simp) ?_, rfl⟩
        exact List.forall_mem_cons.2 ⟨hfull, hothers⟩
      · refine ⟨(d :: first) :: others, .cons (List.cons_ne_nil _ _) ?_ hothers, rfl⟩
        rw [List.length_cons]
        omega

/-! ## Plain numbers -/

theorem isGrouped_iff {c : Char} : isGrouped c = true ↔ isDigit c = true ∨ c = ',' := by
  rw [isGrouped, Bool.or_eq_true, beq_iff_eq]

/-- The parts of the text of a plain number: a sign or none, digits and commas in any order, and a
fraction, which is nothing or a point and digits. -/
structure PlainNumber where
  sign : List Char
  whole : List Char
  fraction : List Char
  sign_eq : sign = [] ∨ sign = ['-'] ∨ sign = ['+']
  whole_mem : ∀ c ∈ whole, isDigit c = true ∨ c = ','
  fraction_eq : fraction = [] ∨ ∃ places, fraction = '.' :: places ∧ ∀ c ∈ places, isDigit c = true

namespace PlainNumber

/-- The text of the number. -/
def text (n : PlainNumber) : List Char := n.sign ++ (n.whole ++ n.fraction)

/-- The digits before the point. -/
def digits (n : PlainNumber) : List Char := n.whole.filter (· != ',')

/-- The text is that of the number, with a line feed at its end or without. -/
def WrittenAs (n : PlainNumber) (cs : List Char) : Prop := cs = n.text ∨ cs = n.text ++ ['\n']

/-- The text with the digits before the point in groups. -/
def shown (n : PlainNumber) : List Char := n.sign ++ (groupThousands n.digits ++ n.fraction)

variable (n : PlainNumber)

/-- The characters behind the sign. -/
theorem mem_unsigned {c : Char} (h : c ∈ n.whole ++ n.fraction) :
    isDigit c = true ∨ c = ',' ∨ c = '.' := by
  rcases List.mem_append.1 h with h | h
  · exact (n.whole_mem c h).imp_right .inl
  · rcases n.fraction_eq with hnil | ⟨places, hplaces, hdigits⟩
    · rw [hnil] at h
      cases h
    · rw [hplaces] at h
      rcases List.mem_cons.1 h with rfl | h
      · exact .inr (.inr rfl)
      · exact .inl (hdigits c h)

/-- The characters of a plain number are digits, signs, commas and points. -/
theorem mem_text {c : Char} (h : c ∈ n.text) : isDigit c = true ∨ c ∈ ['-', '+', ',', '.'] := by
  rcases List.mem_append.1 h with h | h
  · rcases n.sign_eq with hsign | hsign | hsign
    · rw [hsign] at h
      cases h
    · rw [hsign] at h
      obtain rfl := List.mem_singleton.1 h
      exact .inr (by decide)
    · rw [hsign] at h
      obtain rfl := List.mem_singleton.1 h
      exact .inr (by decide)
  · refine (n.mem_unsigned h).imp_right fun h => ?_
    rcases h with rfl | rfl <;> decide

/-- A character that is none of those does not stand in the text. -/
theorem not_mem_text {c : Char} (hdigit : isDigit c = false) (hc : c ∉ ['-', '+', ',', '.']) :
    c ∉ n.text := by
  intro h
  rcases n.mem_text h with h | h
  · cases hdigit.symm.trans h
  · exact hc h

/-- A plain number has no exponent. -/
theorem hasExponent_text : hasExponent n.text = false := by
  rw [hasExponent, List.any_eq_false]
  intro c hc
  simp only [Bool.or_eq_true, beq_iff_eq, not_or]
  constructor
  · rintro rfl
    exact n.not_mem_text (by decide) (by decide) hc
  · rintro rfl
    exact n.not_mem_text (by decide) (by decide) hc

/-- A line feed at the end is dropped, and no other character is. -/
theorem dropFinalNewline_eq_text_iff {cs : List Char} :
    dropFinalNewline cs = n.text ↔ n.WrittenAs cs := by
  have hplain : dropFinalNewline n.text = n.text := by
    refine if_neg fun hlast => ?_
    exact n.not_mem_text (by decide) (by decide) (List.mem_of_getLast? hlast)
  constructor
  · intro h
    unfold dropFinalNewline at h
    split at h
    · next hlast =>
      obtain ⟨front, rfl⟩ := List.getLast?_eq_some_iff.1 hlast
      rw [List.dropLast_concat] at h
      exact .inr (h ▸ rfl)
    · exact .inl h
  · rintro (rfl | rfl)
    · exact hplain
    · rw [dropFinalNewline, if_pos List.getLast?_concat, List.dropLast_concat]

/-- The sign of a plain number is what a sign is taken for. -/
theorem spanSign_text : spanSign n.text = (n.sign, n.whole ++ n.fraction) := by
  rw [text]
  rcases n.sign_eq with hsign | hsign | hsign
  · rw [hsign, List.nil_append]
    -- without a sign the text begins with a digit, a comma or the point
    have hfirst : ∀ c rest, n.whole ++ n.fraction = c :: rest → c ≠ '-' ∧ c ≠ '+' := by
      intro c rest heq
      have hc := n.mem_unsigned (heq ▸ List.mem_cons_self : c ∈ n.whole ++ n.fraction)
      constructor
      · rintro rfl
        exact absurd hc (by decide)
      · rintro rfl
        exact absurd hc (by decide)
    unfold spanSign
    split
    · next heq => exact absurd rfl (hfirst _ _ heq).1
    · next heq => exact absurd rfl (hfirst _ _ heq).2
    · rfl
  · rw [hsign]
    rfl
  · rw [hsign]
    rfl

/-- The digits and commas reach up to the fraction. -/
theorem span_unsigned :
    (n.whole ++ n.fraction).takeWhile isGrouped = n.whole ∧
      (n.whole ++ n.fraction).dropWhile isGrouped = n.fraction := by
  have hwhole : ∀ c ∈ n.whole, isGrouped c = true :=
    fun c hc => isGrouped_iff.2 (n.whole_mem c hc)
  rw [List.takeWhile_append_of_pos hwhole, List.dropWhile_append_of_pos hwhole]
  rcases n.fraction_eq with hnil | ⟨places, hplaces, -⟩
  · rw [hnil]
    exact ⟨List.append_nil _, rfl⟩
  · have hpoint : ¬isGrouped '.' = true := by decide
    rw [hplaces, List.takeWhile_cons, if_neg hpoint, List.dropWhile_cons, if_neg hpoint]
    exact ⟨List.append_nil _, rfl⟩

/-- The fraction of a plain number is taken for one. -/
theorem isFraction_fraction : isFraction n.fraction = true := by
  rcases n.fraction_eq with hnil | ⟨places, hplaces, hdigits⟩
  · rw [hnil]
    rfl
  · rw [hplaces, isFraction, List.all_eq_true.2 hdigits]
    rfl

end PlainNumber

/-! ## Every text -/

/-- A sign is split off if there is one, and nothing is lost. -/
theorem spanSign_cases (cs : List Char) :
    ((spanSign cs).1 = [] ∨ (spanSign cs).1 = ['-'] ∨ (spanSign cs).1 = ['+']) ∧
      (spanSign cs).1 ++ (spanSign cs).2 = cs := by
  unfold spanSign
  split <;> simp

/-- A fraction is missing, or is a point with digits behind it. -/
theorem isFraction_cases {cs : List Char} (h : isFraction cs = true) :
    cs = [] ∨ ∃ places, cs = '.' :: places ∧ ∀ c ∈ places, isDigit c = true := by
  cases cs with
  | nil => exact .inl rfl
  | cons c cs =>
    rw [isFraction, Bool.and_eq_true, beq_iff_eq, List.all_eq_true] at h
    exact .inr ⟨cs, by rw [h.1], h.2⟩

/-- What is regrouped is a plain number, with a line feed at its end or without. -/
theorem regroup?_eq_some_iff {cs out : List Char} :
    regroup? cs = some out ↔ ∃ n : PlainNumber, n.WrittenAs cs ∧ out = n.shown := by
  constructor
  · intro h
    obtain ⟨hsign, hsplit⟩ := spanSign_cases (dropFinalNewline cs)
    unfold regroup? at h
    generalize spanSign (dropFinalNewline cs) = signed at h hsign hsplit
    obtain ⟨sign, body⟩ := signed
    dsimp only at h hsign hsplit
    split at h
    · next hfraction =>
      -- the parts that were split off are those of a plain number
      let n : PlainNumber := {
        sign := sign
        whole := body.takeWhile isGrouped
        fraction := body.dropWhile isGrouped
        sign_eq := hsign
        whole_mem := fun c hc => isGrouped_iff.1 (List.mem_takeWhile_imp hc)
        fraction_eq := isFraction_cases hfraction }
      have htext : dropFinalNewline cs = n.text := by
        rw [← hsplit, PlainNumber.text, List.takeWhile_append_dropWhile]
      refine ⟨n, n.dropFinalNewline_eq_text_iff.1 htext, ?_⟩
      rw [← Option.some.inj h, List.append_assoc]
      rfl
    · cases h
  · rintro ⟨n, hcs, rfl⟩
    obtain ⟨hwhole, hfraction⟩ := n.span_unsigned
    unfold regroup?
    simp only [n.dropFinalNewline_eq_text_iff.2 hcs, n.spanSign_text, hwhole, hfraction]
    rw [if_pos n.isFraction_fraction, List.append_assoc]
    rfl

/-- A plain number is shown with its digits grouped, and a line feed at its end is not shown. -/
theorem toList_displayText {text : String} {n : PlainNumber} (h : n.WrittenAs text.toList) :
    (displayText text).toList = n.shown := by
  have hexponent : hasExponent text.toList = false := by
    rcases h with h | h
    · rw [h, n.hasExponent_text]
    · rw [h, hasExponent, List.any_append]
      exact Bool.or_eq_false_iff.2 ⟨n.hasExponent_text, rfl⟩
  rw [displayText, if_neg (Bool.eq_false_iff.1 hexponent), regroup?_eq_some_iff.2 ⟨n, h, rfl⟩]
  exact String.toList_ofList

/-- What is no plain number is shown as it stands. -/
theorem displayText_eq_self {text : String} (h : ∀ n : PlainNumber, ¬n.WrittenAs text.toList) :
    displayText text = text := by
  have hnone : regroup? text.toList = none := by
    cases hregroup : regroup? text.toList with
    | none => rfl
    | some out =>
      obtain ⟨n, hcs, -⟩ := regroup?_eq_some_iff.1 hregroup
      exact absurd hcs (h n)
  rw [displayText, hnone]
  exact ite_self _

/-- Of a plain number the sign is shown, then the digits before the point in their order, in groups
of three with commas between them, and then the fraction as it is; a line feed at its end is not
shown. Every other text is shown as it stands. -/
theorem displayText_grouped (text : String) :
    (∀ n : PlainNumber, n.WrittenAs text.toList →
        ∃ groups, ByThrees groups ∧ groups.flatten = n.digits ∧
          (displayText text).toList = n.sign ++ ([','].intercalate groups ++ n.fraction)) ∧
      ((∀ n : PlainNumber, ¬n.WrittenAs text.toList) → displayText text = text) := by
  refine ⟨fun n h => ?_, displayText_eq_self⟩
  obtain ⟨groups, hgroups, hdigits⟩ := exists_byThrees n.digits
  refine ⟨groups, hgroups, hdigits, ?_⟩
  rw [toList_displayText h, PlainNumber.shown, ← hdigits, groupThousands_flatten hgroups]

/-- A negative number with commas in odd places and digits of several scripts. -/
def oddlyGrouped : PlainNumber where
  sign := ['-']
  whole := ",12,3٤56,,७".toList
  fraction := ".5000".toList
  sign_eq := .inr (.inl rfl)
  whole_mem := by
    have hall : ",12,3٤56,,७".toList.all isGrouped = true := by decide +kernel
    exact fun c hc => isGrouped_iff.1 (List.all_eq_true.1 hall c hc)
  fraction_eq := .inr ⟨"5000".toList, rfl, List.all_eq_true.1 (by decide +kernel)⟩

/-- Commas in odd places are set anew, and a text with a space in it is no plain number. -/
theorem displayText_grouped_of_odd :
    (∃ groups, ByThrees groups ∧ groups.flatten = oddlyGrouped.digits ∧
        (displayText "-,12,3٤56,,७.5000\n").toList =
          '-' :: ([','].intercalate groups ++ ".5000".toList)) ∧
      displayText "-,12,3٤56,,७.5000\n" = "-1,23٤,56७.5000" ∧
      displayText "1234 567" = "1234 567" := by
  have hwritten : oddlyGrouped.WrittenAs "-,12,3٤56,,७.5000\n".toList := .inr (by decide)
  have hnone : regroup? "1234 567".toList = none := by decide
  have hother : ∀ n : PlainNumber, ¬n.WrittenAs "1234 567".toList := fun n hn => by
    cases hnone.symm.trans (regroup?_eq_some_iff.2 ⟨n, hn, rfl⟩)
  exact ⟨(displayText_grouped _).1 oddlyGrouped hwritten, by decide +kernel,
    (displayText_grouped _).2 hother⟩

end Keypad.Number
