import Keypad.Proofs.Machine.Moves
import Keypad.Proofs.Number.DecimalValue
import Keypad.Proofs.Number.NumeralLanguage
import Mathlib.Data.List.Induction
import Mathlib.Data.List.TakeWhile

/-!
# The text that typed keys leave

Keys of a number are typed onto a zero: zeros at the front are lost, every point but the first is
ignored. `typedForm` says in one go what comes out, and `foldl_type` that the keys lead there one by
one. What comes out spells the decimal that the keys write (`spells_typedForm`), and so do the keys
themselves without the points that are ignored (`spells_singlePoint`). So a `Literal` stands for one
number before it is typed and after (`Literal.exists_read`).
-/

namespace Keypad

open Keypad.Numeral

namespace Buffer

/-- Digits without the zeros at their front, one of which stays if there is nothing else. -/
def lead (ds : List Char) : List Char :=
  match ds.dropWhile (· == '0') with
  | [] => ['0']
  | d :: ds' => d :: ds'

/-- What keys leave behind: the digits before the first point, and behind it all others. -/
def typedForm (keys : List Char) : List Char :=
  let fraction := keys.dropWhile (· != '.')
  lead (keys.takeWhile (· != '.')) ++ fraction.take 1 ++ fraction.tail.filter (· != '.')

/-- The keys without the points behind the first. -/
def singlePoint (keys : List Char) : List Char :=
  let fraction := keys.dropWhile (· != '.')
  keys.takeWhile (· != '.') ++ fraction.take 1 ++ fraction.tail.filter (· != '.')

/-- The decimal that keys write: their digits, as many of them behind the point as stand behind the
first one. Without digits it is zero. -/
def keyedDecimal (keys : List Char) : Decimal where
  coefficient := ofDigits (keyValues (keys.filter (· != '.')))
  exponent := -(((keys.dropWhile (· != '.')).filter (· != '.')).length : Int)

/-! ## Zeros at the front -/

/-- Of nothing but zeros one is left. -/
theorem lead_of_zeros {ds : List Char} (h : ∀ c ∈ ds, c = '0') : lead ds = ['0'] := by
  have hdrop : ds.dropWhile (· == '0') = [] := by
    rw [List.dropWhile_eq_nil_iff]
    exact fun c hc => beq_iff_eq.2 (h c hc)
  rw [lead, hdrop]

/-- Digits that are not all zeros go on as they are. -/
theorem lead_of_ne {ds : List Char} (h : ∃ c ∈ ds, c ≠ '0') :
    lead ds = ds.dropWhile (· == '0') ∧ ∃ d rest, lead ds = d :: rest ∧ d ≠ '0' := by
  cases hdrop : ds.dropWhile (· == '0') with
  | nil =>
    obtain ⟨c, hc, hne⟩ := h
    exact absurd (beq_iff_eq.1 (List.dropWhile_eq_nil_iff.1 hdrop c hc)) hne
  | cons d rest =>
    have hlead : lead ds = d :: rest := by rw [lead, hdrop]
    have hd := List.head?_dropWhile_not (· == '0') ds
    simp only [hdrop, List.head?_cons, beq_eq_false_iff_ne] at hd
    exact ⟨hlead, d, rest, hlead, hd⟩

/-- Behind digits that are not all zeros a digit is taken over. -/
theorem lead_append {ds : List Char} (h : ∃ c ∈ ds, c ≠ '0') (c : Char) :
    lead (ds ++ [c]) = lead ds ++ [c] := by
  obtain ⟨d, hd, hne⟩ := h
  have hds := lead_of_ne ⟨d, hd, hne⟩
  rw [(lead_of_ne ⟨d, List.mem_append_left _ hd, hne⟩).1, hds.1, List.dropWhile_append,
    if_neg]
  obtain ⟨d', rest, hrest, -⟩ := hds.2
  rw [← hds.1, hrest]
  exact Bool.false_ne_true

/-- A zero at the front adds nothing to the number. -/
theorem ofDigits_lead_append (ds : List Char) (fs : List Nat) :
    ofDigits (keyValues (lead ds) ++ fs) = ofDigits (keyValues ds ++ fs) := by
  induction ds with
  | nil => rfl
  | cons d ds ih =>
    by_cases hd : d = '0'
    · subst hd
      -- zeros all the way down are one zero; otherwise the first other digit stands where it stood
      by_cases hzeros : ∀ c ∈ ds, c = '0'
      · rw [lead_of_zeros (List.forall_mem_cons.2 ⟨rfl, hzeros⟩)]
        rw [lead_of_zeros hzeros] at ih
        exact ih
      · have hne : ∃ c ∈ ds, c ≠ '0' := by simpa using hzeros
        obtain ⟨c, hc, hc0⟩ := hne
        rw [(lead_of_ne ⟨c, List.mem_cons_of_mem _ hc, hc0⟩).1]
        rw [(lead_of_ne ⟨c, hc, hc0⟩).1] at ih
        exact ih
    · rw [(lead_of_ne ⟨d, List.mem_cons_self, hd⟩).1, List.dropWhile_cons,
        if_neg (by simpa using hd)]

/-- Something is always left. -/
theorem lead_ne_nil (ds : List Char) : lead ds ≠ [] := by
  unfold lead
  split
  · exact List.cons_ne_nil _ _
  · exact List.cons_ne_nil _ _

/-- What is left of digits are digits. -/
theorem isDigit_of_mem_lead {ds : List Char} (h : ∀ c ∈ ds, c.isDigit = true) :
    ∀ c ∈ lead ds, c.isDigit = true := by
  unfold lead
  split
  · intro c hc
    rw [List.mem_singleton.1 hc]
    rfl
  · next d rest hdrop =>
    intro c hc
    rw [← hdrop] at hc
    exact h c (List.dropWhile_subset _ hc)

/-! ## One key after the other -/

/-- Keys without a point are all before it. -/
theorem point_split_of_not_mem {keys : List Char} (h : '.' ∉ keys) :
    keys.takeWhile (· != '.') = keys ∧ keys.dropWhile (· != '.') = [] ∧
      keys.filter (· != '.') = keys := by
  have hkeys : ∀ c ∈ keys, (c != '.') = true := fun c hc =>
    bne_iff_ne.2 fun heq => h (heq ▸ hc)
  exact ⟨List.takeWhile_eq_self_iff.2 hkeys, List.dropWhile_eq_nil_iff.2 hkeys,
    List.filter_eq_self.2 hkeys⟩

/-- Others are split at the first one. -/
theorem point_split {whole : List Char} (h : '.' ∉ whole) (fraction : List Char) :
    (whole ++ '.' :: fraction).takeWhile (· != '.') = whole ∧
      (whole ++ '.' :: fraction).dropWhile (· != '.') = '.' :: fraction ∧
      (whole ++ '.' :: fraction).filter (· != '.') = whole ++ fraction.filter (· != '.') := by
  have hwhole : ∀ c ∈ whole, (c != '.') = true := fun c hc =>
    bne_iff_ne.2 fun heq => h (heq ▸ hc)
  refine ⟨?_, ?_, ?_⟩
  · rw [List.takeWhile_append_of_pos hwhole]
    simp
  · rw [List.dropWhile_append_of_pos hwhole]
    simp
  · rw [List.filter_append, List.filter_eq_self.2 hwhole]
    simp

/-- Without a point the keys leave their digits. -/
theorem typedForm_of_not_mem {keys : List Char} (h : '.' ∉ keys) : typedForm keys = lead keys := by
  obtain ⟨hwhole, hfraction, -⟩ := point_split_of_not_mem h
  rw [typedForm, hwhole, hfraction]
  simp

/-- Behind the first point the digits are taken over. -/
theorem typedForm_append_point {whole : List Char} (h : '.' ∉ whole) (fraction : List Char) :
    typedForm (whole ++ '.' :: fraction) =
      lead whole ++ '.' :: fraction.filter (· != '.') := by
  obtain ⟨hwhole, hfraction, -⟩ := point_split h fraction
  rw [typedForm, hwhole, hfraction]
  simp

/-- Keys without a point are kept as they are. -/
theorem singlePoint_of_not_mem {keys : List Char} (h : '.' ∉ keys) : singlePoint keys = keys := by
  obtain ⟨hwhole, hfraction, -⟩ := point_split_of_not_mem h
  rw [singlePoint, hwhole, hfraction]
  simp

/-- Only the points behind the first one are left out. -/
theorem singlePoint_append_point {whole : List Char} (h : '.' ∉ whole) (fraction : List Char) :
    singlePoint (whole ++ '.' :: fraction) = whole ++ '.' :: fraction.filter (· != '.') := by
  obtain ⟨hwhole, hfraction, -⟩ := point_split h fraction
  rw [singlePoint, hwhole, hfraction]
  simp

/-- Keys have a first point, or none. -/
theorem point_cases (keys : List Char) :
    '.' ∉ keys ∨ ∃ whole fraction, keys = whole ++ '.' :: fraction ∧ '.' ∉ whole := by
  by_cases h : '.' ∈ keys
  · exact .inr (List.eq_append_cons_of_mem h)
  · exact .inl h

/-- Behind the only point there is no other. -/
theorem point_not_mem_of_count {whole fraction : List Char}
    (h : (whole ++ '.' :: fraction).count '.' ≤ 1) : '.' ∉ fraction := by
  rw [List.count_append, List.count_cons_self] at h
  exact List.count_eq_zero.1 (by omega)

/-- Where there is one point at most, no point is ignored. -/
theorem singlePoint_of_count {keys : List Char} (h : keys.count '.' ≤ 1) :
    singlePoint keys = keys := by
  rcases point_cases keys with hpoint | ⟨whole, fraction, rfl, hpoint⟩
  · exact singlePoint_of_not_mem hpoint
  · have hfraction := point_not_mem_of_count h
    rw [singlePoint_append_point hpoint, (point_split_of_not_mem hfraction).2.2]

/-- Keys without a point are digits. -/
theorem isDigit_of_point_not_mem {keys : List Char} (h : ∀ c ∈ keys, isKey c = true)
    (hpoint : '.' ∉ keys) : ∀ c ∈ keys, c.isDigit = true := by
  intro c hc
  refine isDigit_of_isKey (h c hc) ?_
  rintro rfl
  exact hpoint hc

theorem point_not_mem_of_isDigit {cs : List Char} (h : ∀ c ∈ cs, c.isDigit = true) : '.' ∉ cs := by
  intro hmem
  cases h '.' hmem

/-- Before the first point there are digits, and behind it too once all others are left out. -/
theorem isDigit_of_pointed {whole fraction : List Char}
    (h : ∀ c ∈ whole ++ '.' :: fraction, isKey c = true) (hpoint : '.' ∉ whole) :
    (∀ c ∈ whole, c.isDigit = true) ∧
      ∀ c ∈ fraction.filter (· != '.'), c.isDigit = true := by
  obtain ⟨hwhole, hfraction⟩ := List.forall_mem_append.1 h
  refine ⟨isDigit_of_point_not_mem hwhole hpoint, fun c hc => ?_⟩
  obtain ⟨hc, hne⟩ := List.mem_filter.1 hc
  exact isDigit_of_isKey (hfraction c (List.mem_cons_of_mem _ hc)) (bne_iff_ne.1 hne)

/-- Keys with one point at most are digits, or digits before a point and behind it. -/
theorem digits_or_pointed {keys : List Char} (h : ∀ c ∈ keys, isKey c = true)
    (hpoints : keys.count '.' ≤ 1) :
    (∀ c ∈ keys, c.isDigit = true) ∨
      ∃ whole fraction, keys = whole ++ '.' :: fraction ∧ (∀ c ∈ whole, c.isDigit = true) ∧
        ∀ c ∈ fraction, c.isDigit = true := by
  rcases point_cases keys with hpoint | ⟨whole, fraction, rfl, hwhole⟩
  · exact .inl (isDigit_of_point_not_mem h hpoint)
  · have hfraction := point_not_mem_of_count hpoints
    obtain ⟨hkeys, hkeys'⟩ := List.forall_mem_append.1 h
    exact .inr ⟨whole, fraction, rfl, isDigit_of_point_not_mem hkeys hwhole,
      isDigit_of_point_not_mem (List.forall_mem_cons.1 hkeys').2 hfraction⟩

/-- The lone zero has two spellings. -/
theorem isLoneZero_ofList {cs : List Char} :
    isLoneZero (String.ofList cs) = true ↔ cs = ['0'] ∨ cs = ['-', '0'] := by
  simp only [isLoneZero, Bool.or_eq_true, beq_iff_eq]
  rw [show "0" = String.ofList ['0'] from rfl, show "-0" = String.ofList ['-', '0'] from rfl,
    String.ofList_inj, String.ofList_inj]

theorem push_ofList (cs : List Char) (c : Char) :
    (String.ofList cs).push c = String.ofList (cs ++ [c]) := by
  simp

/-- The point key goes behind the digits, once. -/
theorem typePoint_typedForm {keys : List Char} (h : ∀ c ∈ keys, isKey c = true) :
    typePoint (String.ofList (typedForm keys)) = String.ofList (typedForm (keys ++ ['.'])) := by
  unfold typePoint
  simp only [String.toList_ofList, List.contains_iff_mem]
  rcases point_cases keys with hpoint | ⟨whole, fraction, rfl, hwhole⟩
  · have hlead : '.' ∉ lead keys :=
      point_not_mem_of_isDigit (isDigit_of_mem_lead (isDigit_of_point_not_mem h hpoint))
    rw [typedForm_of_not_mem hpoint, if_neg hlead, typedForm_append_point hpoint, push_ofList]
    rfl
  · have hmem : '.' ∈ typedForm (whole ++ '.' :: fraction) := by
      rw [typedForm_append_point hwhole]
      exact List.mem_append_right _ List.mem_cons_self
    rw [if_pos hmem, List.append_assoc, List.cons_append, typedForm_append_point hwhole,
      typedForm_append_point hwhole, List.filter_append]
    simp

/-- Digits that are not all zeros are not replaced. -/
theorem isLoneZero_lead {ds : List Char} (hds : ∀ c ∈ ds, c.isDigit = true)
    (h : ∃ c ∈ ds, c ≠ '0') : isLoneZero (String.ofList (lead ds)) = false := by
  obtain ⟨-, d, rest, hlead, hd⟩ := lead_of_ne h
  rw [Bool.eq_false_iff, Ne, isLoneZero_ofList, hlead]
  rintro (heq | heq)
  · exact hd (List.cons.inj heq).1
  · have hdigit := isDigit_of_mem_lead hds d (hlead ▸ List.mem_cons_self)
    rw [(List.cons.inj heq).1] at hdigit
    cases hdigit

/-- What has a point is no lone zero. -/
theorem isLoneZero_pointed (whole fraction : List Char) :
    isLoneZero (String.ofList (whole ++ '.' :: fraction)) = false := by
  have hmem : '.' ∈ whole ++ '.' :: fraction := List.mem_append_right _ List.mem_cons_self
  rw [Bool.eq_false_iff, Ne, isLoneZero_ofList]
  rintro (heq | heq)
  · rw [heq] at hmem
    exact absurd hmem (by decide)
  · rw [heq] at hmem
    exact absurd hmem (by decide)

/-- Before a point, a digit goes behind the digits or takes the place of the zero. -/
theorem typeDigit_lead {ds : List Char} (hds : ∀ c ∈ ds, c.isDigit = true) (digit : Char) :
    typeDigit (String.ofList (lead ds)) digit = String.ofList (lead (ds ++ [digit])) := by
  unfold typeDigit
  by_cases hzeros : ∀ c ∈ ds, c = '0'
  · -- nothing but a zero is there, and the digit takes its place
    rw [lead_of_zeros hzeros, if_pos (isLoneZero_ofList.2 (.inl rfl))]
    split
    · next hzero =>
      rw [lead_of_zeros]
      exact List.forall_mem_append.2 ⟨hzeros, List.forall_mem_singleton.2 hzero⟩
    · next hzero =>
      have hdrop : (ds ++ [digit]).dropWhile (· == '0') = [digit] := by
        rw [List.dropWhile_append_of_pos fun c hc => beq_iff_eq.2 (hzeros c hc),
          List.dropWhile_cons, if_neg (by simpa using hzero)]
      rw [(lead_of_ne ⟨digit, by simp, hzero⟩).1, hdrop]
      simp [dropLast]
  · have hne : ∃ c ∈ ds, c ≠ '0' := by simpa using hzeros
    rw [if_neg (Bool.eq_false_iff.1 (isLoneZero_lead hds hne)), push_ofList, lead_append hne]

/-- A digit key goes behind what is there, except a lone zero. -/
theorem typeDigit_typedForm {keys : List Char} (h : ∀ c ∈ keys, isKey c = true) {digit : Char}
    (hdigit : digit.isDigit = true) :
    typeDigit (String.ofList (typedForm keys)) digit =
      String.ofList (typedForm (keys ++ [digit])) := by
  have hne : digit ≠ '.' := by
    rintro rfl
    cases hdigit
  rcases point_cases keys with hpoint | ⟨whole, fraction, rfl, hwhole⟩
  · have hpoint' : '.' ∉ keys ++ [digit] := by
      simp only [List.mem_append, List.mem_singleton, not_or]
      exact ⟨hpoint, hne.symm⟩
    rw [typedForm_of_not_mem hpoint, typedForm_of_not_mem hpoint']
    exact typeDigit_lead (isDigit_of_point_not_mem h hpoint) digit
  · rw [List.append_assoc, List.cons_append, typedForm_append_point hwhole,
      typedForm_append_point hwhole, List.filter_append, typeDigit,
      if_neg (Bool.eq_false_iff.1 (isLoneZero_pointed _ _)), push_ofList]
    simp [hne]

/-- The keys of a number, typed onto a zero one by one. -/
theorem foldl_type {keys : List Char} (h : ∀ c ∈ keys, isKey c = true) :
    keys.foldl type start = String.ofList (typedForm keys) := by
  induction keys using List.reverseRecOn with
  | nil => rfl
  | append_singleton keys key ih =>
    have hkeys := (List.forall_mem_append.1 h).1
    have hkey := (List.forall_mem_append.1 h).2 key (List.mem_singleton_self _)
    rw [List.foldl_append, ih hkeys, List.foldl_cons, List.foldl_nil, type]
    split
    · next hpoint =>
      rw [hpoint]
      exact typePoint_typedForm hkeys
    · next hpoint => exact typeDigit_typedForm hkeys (isDigit_of_isKey hkey hpoint)

/-- The first key of a number may as well be typed onto a zero. -/
theorem first_eq_type {key : Char} : first key = type start key := by
  unfold first type
  split
  · rfl
  · unfold typeDigit
    rw [if_pos (show isLoneZero start = true by decide)]
    split
    · next hzero =>
      rw [hzero]
      rfl
    · simp [start, dropLast]

/-! ## The number that is typed -/

/-- Digits without a point write a natural number. -/
theorem keyedDecimal_of_not_mem {keys : List Char} (h : '.' ∉ keys) :
    keyedDecimal keys = ⟨ofDigits (keyValues keys), 0⟩ := by
  obtain ⟨-, hfraction, hkeys⟩ := point_split_of_not_mem h
  rw [keyedDecimal, hfraction, hkeys]
  rfl

/-- The digits behind the first point count for the exponent. -/
theorem keyedDecimal_append_point {whole : List Char} (h : '.' ∉ whole) (fraction : List Char) :
    keyedDecimal (whole ++ '.' :: fraction) =
      ⟨ofDigits (keyValues whole ++ keyValues (fraction.filter (· != '.'))),
        0 - (keyValues (fraction.filter (· != '.'))).length⟩ := by
  obtain ⟨-, hfraction, hkeys⟩ := point_split h fraction
  rw [keyedDecimal, hfraction, hkeys]
  simp [keyValues]

/-- Digits spell the natural number that they write. -/
theorem spells_of_isDigit {ds : List Char} (hds : ∀ c ∈ ds, c.isDigit = true) (hne : ds ≠ []) :
    Spells ds ⟨ofDigits (keyValues ds), 0⟩ := by
  have h := Spells.plain (Run.of_isDigit hds) hne .missing
  rwa [List.append_nil] at h

/-- Digits with a point spell a decimal, if there is a digit on one side of it. -/
theorem spells_of_pointed {whole fraction : List Char} (hwhole : ∀ c ∈ whole, c.isDigit = true)
    (hfraction : ∀ c ∈ fraction, c.isDigit = true) (hne : whole ≠ [] ∨ fraction ≠ []) :
    Spells (whole ++ '.' :: fraction)
      ⟨ofDigits (keyValues whole ++ keyValues fraction), 0 - (keyValues fraction).length⟩ := by
  have h := Spells.pointed (Run.of_isDigit hwhole) (Run.of_isDigit hfraction) hne .missing
  rwa [List.append_nil] at h

/-- What keys leave spells the decimal that they write. -/
theorem spells_typedForm {keys : List Char} (h : ∀ c ∈ keys, isKey c = true) :
    Spells (typedForm keys) (keyedDecimal keys) := by
  -- before the first point the zeros in front go, and behind it all digits stay
  rcases point_cases keys with hpoint | ⟨whole, fraction, rfl, hpoint⟩
  · have hlead := isDigit_of_mem_lead (isDigit_of_point_not_mem h hpoint)
    have hvalue := ofDigits_lead_append keys []
    rw [List.append_nil, List.append_nil] at hvalue
    rw [typedForm_of_not_mem hpoint, keyedDecimal_of_not_mem hpoint, ← hvalue]
    exact spells_of_isDigit hlead (lead_ne_nil keys)
  · obtain ⟨hwhole, hfraction⟩ := isDigit_of_pointed h hpoint
    rw [typedForm_append_point hpoint, keyedDecimal_append_point hpoint, ← ofDigits_lead_append]
    exact spells_of_pointed (isDigit_of_mem_lead hwhole) hfraction (.inl (lead_ne_nil whole))

/-- Keys with a digit among them spell it as well, once the points are left out that are ignored. -/
theorem spells_singlePoint {keys : List Char} (h : ∀ c ∈ keys, isKey c = true)
    (hdigit : ∃ c ∈ keys, c.isDigit = true) : Spells (singlePoint keys) (keyedDecimal keys) := by
  obtain ⟨c, hc, hcdigit⟩ := hdigit
  rcases point_cases keys with hpoint | ⟨whole, fraction, rfl, hpoint⟩
  · rw [singlePoint_of_not_mem hpoint, keyedDecimal_of_not_mem hpoint]
    exact spells_of_isDigit (isDigit_of_point_not_mem h hpoint) (List.ne_nil_of_mem hc)
  · obtain ⟨hwhole, hfraction⟩ := isDigit_of_pointed h hpoint
    rw [singlePoint_append_point hpoint, keyedDecimal_append_point hpoint]
    refine spells_of_pointed hwhole hfraction ?_
    -- the digit stands on one of the two sides of the point
    have hne : (c != '.') = true := bne_iff_ne.2 (by rintro rfl; cases hcdigit)
    rcases List.mem_append.1 hc with hc | hc
    · exact .inl (List.ne_nil_of_mem hc)
    · have hc := (List.mem_cons.1 hc).resolve_left (bne_iff_ne.1 hne)
      exact .inr (List.ne_nil_of_mem (List.mem_filter.2 ⟨hc, hne⟩))

end Buffer

/-- An unsigned number as it is typed: digits with one point at most, finite. -/
structure Literal where
  keys : List Char
  isKey : ∀ c ∈ keys, Buffer.isKey c = true
  points : keys.count '.' ≤ 1
  digit : ∃ c ∈ keys, c.isDigit = true
  finite : Number.isReadable (String.ofList keys) = true

namespace Literal

/-- The text of the number as it was written. -/
def text (l : Literal) : String := String.ofList l.keys

/-- The text of the number as typing it leaves it. -/
def typedText (l : Literal) : String := String.ofList (Buffer.typedForm l.keys)

theorem keys_ne_nil (l : Literal) : l.keys ≠ [] := by
  obtain ⟨c, hc, -⟩ := l.digit
  exact List.ne_nil_of_mem hc

/-- The two texts stand for one number. -/
theorem exists_read (l : Literal) :
    ∃ x, Number.read l.text = .ok x ∧ Number.read l.typedText = .ok x := by
  have hkeys := Buffer.spells_singlePoint l.isKey l.digit
  rw [Buffer.singlePoint_of_count l.points] at hkeys
  obtain ⟨x, hx⟩ := Number.isReadable_iff.1 l.finite
  exact ⟨x, hx, Number.read_ofList_congr hkeys (Buffer.spells_typedForm l.isKey) hx⟩

end Literal

namespace Machine

/-- A number typed now starts anew: the old one is settled, or it is the zero of the start. -/
structure AwaitsNumber (m : Machine) : Prop where
  failed : m.failed = false
  anew : m.settled = true ∨
    m.buffer = Buffer.start ∧ m.naming = .blank ∧ m.intermediate = false

theorem AwaitsNumber.quiet {m : Machine} (h : m.AwaitsNumber) : m.quiet.AwaitsNumber :=
  ⟨h.failed, h.anew⟩

/-- The machine while a number is being typed on it. -/
def entering (m : Machine) (text : String) : Machine :=
  { m.quiet with buffer := text, naming := .blank, settled := false, intermediate := false }

variable {m : Machine}

/-- While a number is being typed, a key changes its text and nothing else. -/
theorem typeKey_entering (text : String) (key : Char) :
    (m.entering text).typeKey key = m.entering (Buffer.type text key) := by
  unfold typeKey retype
  rw [if_neg (show ¬(m.entering text).settled = true from Bool.false_ne_true)]
  split
  · next hkey => rw [Buffer.ignores_iff.1 (show Buffer.ignores text key = true from hkey)]
  · rfl

/-- The first key of a number is typed onto a zero, whatever was there. -/
theorem AwaitsNumber.typeKey_quiet (h : m.AwaitsNumber) (key : Char) :
    m.quiet.typeKey key = m.entering (Buffer.type Buffer.start key) := by
  cases hs : m.settled with
  | true =>
    rw [typeKey, if_pos (show m.quiet.settled = true from hs), Buffer.first_eq_type]
    rfl
  | false =>
    obtain hs' | ⟨hbuffer, hnaming, hintermediate⟩ := h.anew
    · cases hs.symm.trans hs'
    · have hentering : m.quiet = m.entering Buffer.start := by
        simp only [entering, Machine.quiet, hbuffer, hnaming, hintermediate, hs]
      rw [hentering, typeKey_entering]

/-- The keys of a number change the machine as if the text that they leave was put there at once. -/
theorem AwaitsNumber.foldl_typeKey (h : m.AwaitsNumber) {keys : List Char} (hne : keys ≠ [])
    (hkeys : ∀ c ∈ keys, Buffer.isKey c = true) :
    keys.foldl (fun m key => m.quiet.typeKey key) m =
      m.entering (String.ofList (Buffer.typedForm keys)) := by
  -- from the second key on the machine is one on which a number is being typed
  have hrest : ∀ (keys : List Char) (text : String),
      keys.foldl (fun m key => m.quiet.typeKey key) (m.entering text) =
        m.entering (keys.foldl Buffer.type text) := by
    intro keys
    induction keys with
    | nil => exact fun _ => rfl
    | cons key keys ih =>
      intro text
      rw [List.foldl_cons, List.foldl_cons,
        show (m.entering text).quiet = m.entering text from rfl, typeKey_entering, ih]
  obtain ⟨key, keys, rfl⟩ := List.exists_cons_of_ne_nil hne
  rw [List.foldl_cons, h.typeKey_quiet, hrest, ← Buffer.foldl_type hkeys, List.foldl_cons]

end Machine

end Keypad
