import Keypad.Proofs.Machine.Erasing

/-!
# Tidy texts

The texts that stand in the buffer while nothing but keys and results gets there are `Tidy`: perhaps
a minus, an integral part without zeros in front, and perhaps a fraction and an exponent, with one
point at most. A point is looked for in the whole text before it is typed, so it can come to stand
behind an exponent, and digits behind it, where they are no part of a number.

* `Tidy.type`, `Tidy.erase`, `Tidy.toggleSign` — every edit of a tidy text leaves one.
* `tidy_canonicalText`, `tidy_resultText`      — the texts that are written are tidy.
-/

namespace Keypad

open Keypad.Number

namespace Buffer

/-- An integral part: the lone zero, or digits of which the first is another. -/
structure IsWhole (ds : List Char) : Prop where
  ne_nil : ds ≠ []
  isDigit : ∀ c ∈ ds, c.isDigit = true
  lead : ds.head? = some '0' → ds = ['0']

/-- A point with the digits that stand behind it so far, or nothing. -/
inductive IsFraction : List Char → Prop where
  | missing : IsFraction []
  | pointed {ds : List Char} (hds : ∀ c ∈ ds, c.isDigit = true) : IsFraction ('.' :: ds)

/-- The letter, a sign and digits, perhaps with a point and the digits typed behind it, or
nothing. -/
inductive IsExponent : List Char → Prop where
  | missing : IsExponent []
  | power {sign : Char} {ds fraction : List Char} (hsign : sign = '+' ∨ sign = '-') (hne : ds ≠ [])
      (hds : ∀ c ∈ ds, c.isDigit = true) (hfraction : IsFraction fraction) :
      IsExponent ('e' :: sign :: (ds ++ fraction))

/-- An integral part, and perhaps a fraction and an exponent. -/
inductive IsMagnitude : List Char → Prop where
  | mk {whole fraction exponent : List Char} (hwhole : IsWhole whole)
      (hfraction : IsFraction fraction) (hexponent : IsExponent exponent) :
      IsMagnitude (whole ++ (fraction ++ exponent))

/-- Perhaps a minus, and a magnitude, with one point at most in all of it. -/
structure Tidy (text : String) : Prop where
  shape : ∃ sign magnitude, text.toList = sign ++ magnitude ∧ (sign = [] ∨ sign = ['-']) ∧
    IsMagnitude magnitude
  points : text.toList.count '.' ≤ 1

variable {text : String} {ds cs : List Char}

/-! ## Parts -/

theorem ne_point_of_isDigit {c : Char} (h : c.isDigit = true) : c ≠ '.' := by
  rintro rfl
  cases h

theorem count_point_of_isDigit (h : ∀ c ∈ ds, c.isDigit = true) : ds.count '.' = 0 :=
  List.count_eq_zero.2 fun hmem => ne_point_of_isDigit (h _ hmem) rfl

theorem isDigit_concat (hds : ∀ c ∈ ds, c.isDigit = true) {c : Char} (hc : c.isDigit = true) :
    ∀ c' ∈ ds ++ [c], c'.isDigit = true :=
  List.forall_mem_append.2 ⟨hds, List.forall_mem_singleton.2 hc⟩

/-- One digit is an integral part, the zero too. -/
theorem isWhole_singleton {c : Char} (h : c.isDigit = true) : IsWhole [c] where
  ne_nil := List.cons_ne_nil _ _
  isDigit := List.forall_mem_singleton.2 h
  lead hlead := congrArg (fun c => [c]) (Option.some.inj hlead)

/-- Digits may go on with any others, unless they are the lone zero. -/
theorem IsWhole.append (h : IsWhole ds) (hzero : ds ≠ ['0'])
    (hcs : ∀ c ∈ cs, c.isDigit = true) : IsWhole (ds ++ cs) where
  ne_nil := List.append_ne_nil_of_left_ne_nil h.ne_nil _
  isDigit := List.forall_mem_append.2 ⟨h.isDigit, hcs⟩
  lead hlead := by
    rw [List.head?_append_of_ne_nil _ h.ne_nil] at hlead
    exact absurd (h.lead hlead) hzero

/-- Every front of an integral part is one. -/
theorem IsWhole.of_prefix (h : IsWhole ds) (hfront : cs <+: ds) (hne : cs ≠ []) : IsWhole cs where
  ne_nil := hne
  isDigit c hc := h.isDigit c (hfront.subset hc)
  lead hlead := by
    obtain ⟨rest, rfl⟩ := hfront
    have hzero := h.lead (List.head?_append_of_ne_nil _ hne ▸ hlead)
    obtain ⟨c, cs', rfl⟩ := List.exists_cons_of_ne_nil hne
    obtain ⟨rfl, hnil⟩ := List.cons.inj hzero
    rw [(List.append_eq_nil_iff.1 hnil).1]

/-- A fraction has one point, if it is there at all. -/
theorem IsFraction.count_le (h : IsFraction cs) : cs.count '.' ≤ 1 := by
  cases h with
  | missing => exact Nat.zero_le 1
  | pointed hds => rw [List.count_cons_self, count_point_of_isDigit hds]

/-- Every front of a fraction is one. -/
theorem IsFraction.of_prefix (h : IsFraction ds) (hfront : cs <+: ds) : IsFraction cs := by
  cases h with
  | missing =>
    rw [List.prefix_nil.1 hfront]
    exact .missing
  | pointed hds =>
    rcases List.prefix_cons_iff.1 hfront with rfl | ⟨cs', rfl, hfront'⟩
    · exact .missing
    · exact .pointed fun c hc => hds c (hfront'.subset hc)

/-- A key goes on with a fraction or starts one, unless it is a digit and there is none. -/
theorem IsFraction.push (h : IsFraction cs) {key : Char} (hkey : isKey key = true)
    (hpoint : key = '.' → '.' ∉ cs) :
    cs = [] ∧ key.isDigit = true ∨ IsFraction (cs ++ [key]) := by
  by_cases hp : key = '.'
  · subst hp
    cases h with
    | missing => exact .inr (.pointed (List.forall_mem_nil _))
    | pointed _ => exact absurd List.mem_cons_self (hpoint rfl)
  · have hdigit := isDigit_of_isKey hkey hp
    cases h with
    | missing => exact .inl ⟨rfl, hdigit⟩
    | pointed hds => exact .inr (.pointed (isDigit_concat hds hdigit))

/-- What stands behind an exponent is typed to it. -/
theorem IsExponent.push (h : IsExponent cs) (hne : cs ≠ []) {key : Char} (hkey : isKey key = true)
    (hpoint : key = '.' → '.' ∉ cs) : IsExponent (cs ++ [key]) := by
  cases h with
  | missing => exact absurd rfl hne
  | @power sign ds fraction hsign hds_ne hds hfraction =>
    have hpoint' : key = '.' → '.' ∉ fraction := fun hp hmem =>
      hpoint hp (List.mem_cons_of_mem _ (List.mem_cons_of_mem _ (List.mem_append_right _ hmem)))
    rw [List.cons_append, List.cons_append, List.append_assoc]
    rcases hfraction.push hkey hpoint' with ⟨rfl, hdigit⟩ | hpush
    · have h := IsExponent.power hsign (List.append_ne_nil_of_left_ne_nil hds_ne [key])
        (isDigit_concat hds hdigit) .missing
      rwa [List.append_nil] at h
    · exact .power hsign hds_ne hds hpush

/-- A front ends in the first part, or goes on into the second. -/
theorem prefix_append_cases {front : List Char} (h : front <+: ds ++ cs) :
    front <+: ds ∨ ∃ front', front = ds ++ front' ∧ front' <+: cs := by
  obtain ⟨rest, h⟩ := h
  rcases List.append_eq_append_iff.1 h with ⟨more, rfl, -⟩ | ⟨front', rfl, rfl⟩
  · exact .inl (List.prefix_append _ _)
  · exact .inr ⟨front', rfl, List.prefix_append _ _⟩

namespace IsMagnitude

/-- A number may do without an exponent. -/
theorem of_fraction {whole fraction : List Char} (hwhole : IsWhole whole)
    (hfraction : IsFraction fraction) : IsMagnitude (whole ++ fraction) := by
  have h := IsMagnitude.mk hwhole hfraction .missing
  rwa [List.append_nil] at h

theorem of_whole (h : IsWhole ds) : IsMagnitude ds := by
  have h := of_fraction h .missing
  rwa [List.append_nil] at h

/-- A key goes on with the last part there is. -/
theorem push (h : IsMagnitude cs) {key : Char} (hkey : isKey key = true)
    (hpoint : key = '.' → '.' ∉ cs) (hzero : key ≠ '.' → cs ≠ ['0']) :
    IsMagnitude (cs ++ [key]) := by
  obtain @⟨whole, fraction, exponent, hwhole, hfraction, hexponent⟩ := h
  -- the key goes behind the exponent, if there is one, and else behind the fraction or the digits
  by_cases hne : exponent = []
  · subst hne
    rw [List.append_nil] at hpoint hzero ⊢
    rw [List.append_assoc]
    have hpoint' : key = '.' → '.' ∉ fraction := fun hp hmem =>
      hpoint hp (List.mem_append_right _ hmem)
    rcases hfraction.push hkey hpoint' with ⟨rfl, hdigit⟩ | hpush
    · have hne := hzero (ne_point_of_isDigit hdigit)
      rw [List.append_nil] at hne
      exact of_whole (hwhole.append hne (List.forall_mem_singleton.2 hdigit))
    · exact of_fraction hwhole hpush
  · have hpoint' : key = '.' → '.' ∉ exponent := fun hp hmem =>
      hpoint hp (List.mem_append_right _ (List.mem_append_right _ hmem))
    rw [List.append_assoc, List.append_assoc]
    exact .mk hwhole hfraction (hexponent.push hne hkey hpoint')

/-- No sign stands in front. -/
theorem head (h : IsMagnitude cs) : ∃ c rest, cs = c :: rest ∧ c.isDigit = true := by
  obtain ⟨hwhole, -, -⟩ := h
  obtain ⟨c, rest, rfl⟩ := List.exists_cons_of_ne_nil hwhole.ne_nil
  exact ⟨c, _, rfl, hwhole.isDigit c List.mem_cons_self⟩

/-- A front without an exponent is whole or has a fraction, if anything is left. -/
theorem of_prefix {front : List Char} (h : IsMagnitude cs) (hfront : front <+: cs)
    (hplain : 'e' ∉ front) (hne : front ≠ []) : IsMagnitude front := by
  obtain @⟨whole, fraction, exponent, hwhole, hfraction, hexponent⟩ := h
  rcases prefix_append_cases hfront with hwhole' | ⟨behind, rfl, hbehind⟩
  · exact of_whole (hwhole.of_prefix hwhole' hne)
  rcases prefix_append_cases hbehind with hfraction' | ⟨behind, rfl, hbehind'⟩
  · exact of_fraction hwhole (hfraction.of_prefix hfraction')
  -- a front that goes on into the exponent would have its letter
  have hnil : behind = [] := by
    cases hexponent with
    | missing => exact List.prefix_nil.1 hbehind'
    | power _ _ _ _ =>
      rcases List.prefix_cons_iff.1 hbehind' with rfl | ⟨rest, rfl, -⟩
      · rfl
      · exact absurd (List.mem_append_right _ (List.mem_append_right _ List.mem_cons_self)) hplain
  rw [hnil, List.append_nil]
  exact of_fraction hwhole hfraction

end IsMagnitude

namespace Tidy

/-- The two kinds of tidy texts. -/
theorem cases_sign (h : Tidy text) :
    IsMagnitude text.toList ∨ ∃ magnitude, text = String.ofList ('-' :: magnitude) ∧
      IsMagnitude magnitude := by
  obtain ⟨sign, magnitude, htext, rfl | rfl, hmagnitude⟩ := h.shape
  · exact .inl (htext ▸ hmagnitude)
  · exact .inr ⟨magnitude, by rw [← String.ofList_toList (s := text), htext]; rfl, hmagnitude⟩

theorem of_magnitude (h : IsMagnitude text.toList) (hpoints : text.toList.count '.' ≤ 1) :
    Tidy text := ⟨⟨[], _, rfl, .inl rfl, h⟩, hpoints⟩

/-- A minus in front of a magnitude leaves it tidy. -/
theorem of_minus (h : IsMagnitude cs) (hpoints : cs.count '.' ≤ 1) :
    Tidy (String.ofList ('-' :: cs)) := by
  refine ⟨⟨['-'], cs, String.toList_ofList, .inr rfl, h⟩, ?_⟩
  rwa [String.toList_ofList, List.count_cons_of_ne (by decide)]

/-- A magnitude with one point at most is tidy, its characters listed. -/
theorem ofList (h : IsMagnitude cs) (hpoints : cs.count '.' ≤ 1) : Tidy (String.ofList cs) := by
  refine of_magnitude ?_ ?_
  · rwa [String.toList_ofList]
  · rwa [String.toList_ofList]

/-- Parts that are put together, with no point in the exponent. -/
theorem of_parts {sign whole fraction exponent : List Char} (hsign : sign = [] ∨ sign = ['-'])
    (hwhole : IsWhole whole) (hfraction : IsFraction fraction) (hexponent : IsExponent exponent)
    (hpoint : '.' ∉ exponent) :
    Tidy (String.ofList (sign ++ (whole ++ (fraction ++ exponent)))) := by
  have hpoints : (whole ++ (fraction ++ exponent)).count '.' ≤ 1 := by
    rw [List.count_append, List.count_append, count_point_of_isDigit hwhole.isDigit,
      List.count_eq_zero.2 hpoint, Nat.zero_add]
    exact hfraction.count_le
  refine ⟨⟨sign, _, String.toList_ofList, hsign, .mk hwhole hfraction hexponent⟩, ?_⟩
  rw [String.toList_ofList, List.count_append]
  rcases hsign with rfl | rfl
  · exact (Nat.zero_add _).trans_le hpoints
  · exact (Nat.zero_add _).trans_le hpoints

/-- One digit. -/
theorem of_digit {sign : List Char} (hsign : sign = [] ∨ sign = ['-']) {digit : Char}
    (hdigit : digit.isDigit = true) : Tidy (String.ofList (sign ++ [digit])) :=
  of_parts hsign (isWhole_singleton hdigit) .missing .missing List.not_mem_nil

/-! ## Edits -/

/-- A key that is put behind the text. -/
theorem push (h : Tidy text) {key : Char} (hkey : isKey key = true)
    (hpoint : key = '.' → '.' ∉ text.toList) (hzero : key ≠ '.' → isLoneZero text = false) :
    Tidy (text.push key) := by
  obtain ⟨sign, magnitude, htext, hsign, hmagnitude⟩ := h.shape
  refine ⟨⟨sign, magnitude ++ [key], ?_, hsign, ?_⟩, ?_⟩
  · rw [String.toList_push, htext, List.append_assoc]
  · refine hmagnitude.push hkey (fun hp hmem => hpoint hp ?_) fun hp heq => ?_
    · rw [htext]
      exact List.mem_append_right _ hmem
    · -- a digit never follows a lone zero, since that is what it replaces
      have hlone := hzero hp
      rw [isLoneZero, ← String.ofList_toList (s := text), htext, heq] at hlone
      rcases hsign with rfl | rfl <;> cases hlone
  · rw [String.toList_push, List.count_append]
    by_cases hp : key = '.'
    · rw [List.count_eq_zero.2 (hpoint hp), hp]
      rfl
    · rw [List.count_singleton, if_neg (by simpa using hp)]
      exact h.points

/-- A front without an exponent that is a number. -/
theorem of_prefix (h : Tidy text) {front : String} (hfront : front.toList <+: text.toList)
    (hplain : hasExponent front.toList = false) (hread : isReadable front = true) :
    Tidy front := by
  have hpoints := Nat.le_trans (hfront.sublist.count_le '.') h.points
  have hletter : 'e' ∉ front.toList := fun hmem => by
    have hexponent := List.any_eq_false.1 hplain 'e' hmem
    exact hexponent rfl
  rcases h.cases_sign with hmagnitude | ⟨magnitude, rfl, hmagnitude⟩
  · refine of_magnitude (hmagnitude.of_prefix hfront hletter fun hnil => ?_) hpoints
    exact Machine.ne_empty_of_isReadable hread (String.toList_eq_nil_iff.1 hnil)
  · rw [String.toList_ofList] at hfront
    rw [← String.ofList_toList (s := front)] at hread ⊢
    rcases List.prefix_cons_iff.1 hfront with hnil | ⟨digits, hfront, hdigits⟩
    · rw [hnil] at hread
      cases hread
    · rw [hfront] at hread hletter hpoints ⊢
      have hne : digits ≠ [] := by
        rintro rfl
        cases hread
      rw [List.count_cons_of_ne (by decide)] at hpoints
      exact of_minus (hmagnitude.of_prefix hdigits (fun h => hletter (.tail _ h)) hne) hpoints

theorem start : Tidy Buffer.start :=
  of_magnitude (.of_whole (isWhole_singleton rfl)) (Nat.zero_le 1)

/-- The text of a first key is tidy. -/
theorem first {key : Char} (hkey : isKey key = true) : Tidy (Buffer.first key) := by
  unfold Buffer.first
  split
  · exact of_magnitude (.of_fraction (isWhole_singleton rfl) (.pointed (List.forall_mem_nil _)))
      (Nat.le_refl 1)
  · next hpoint =>
    rw [String.singleton_eq_ofList]
    exact of_digit (.inl rfl) (isDigit_of_isKey hkey hpoint)

/-- Typing the point leaves a tidy text. -/
theorem typePoint (h : Tidy text) : Tidy (Buffer.typePoint text) := by
  unfold Buffer.typePoint
  split
  · exact h
  · next hpoint =>
    refine h.push rfl (fun _ => ?_) fun hp => absurd rfl hp
    rwa [List.contains_iff_mem] at hpoint

/-- Typing a digit leaves a tidy text. -/
theorem typeDigit (h : Tidy text) {digit : Char} (hdigit : digit.isDigit = true) :
    Tidy (Buffer.typeDigit text digit) := by
  unfold Buffer.typeDigit
  split
  · next hzero =>
    split
    · exact h
    · obtain ⟨negative, heq⟩ := push_dropLast_of_isLoneZero hzero digit
      rw [heq]
      cases negative with
      | false => exact of_digit (.inl rfl) hdigit
      | true => exact of_digit (.inr rfl) hdigit
  · next hzero =>
    exact h.push (by simp [isKey, hdigit]) (fun hp => absurd hp (ne_point_of_isDigit hdigit))
      fun _ => Bool.eq_false_iff.2 hzero

/-- Typing a key leaves a tidy text. -/
theorem type (h : Tidy text) {key : Char} (hkey : isKey key = true) :
    Tidy (Buffer.type text key) := by
  unfold Buffer.type
  split
  · exact h.typePoint
  · next hpoint => exact h.typeDigit (isDigit_of_isKey hkey hpoint)

/-- Erasing leaves a tidy text. -/
theorem erase (h : Tidy text) : Tidy (Buffer.erase text) := by
  rcases erase_step text with hstart | htrims
  · rw [hstart]
    exact start
  · exact h.of_prefix htrims.front htrims.plain (Machine.isReadable_erase text)

/-- Changing the sign leaves a tidy text. -/
theorem toggleSign (h : Tidy text) : Tidy (Buffer.toggleSign text) := by
  have hpoints := h.points
  rcases h.cases_sign with hmagnitude | ⟨magnitude, rfl, hmagnitude⟩
  · have hhead : text.toList.head? ≠ some '-' := by
      obtain ⟨c, rest, htext, hdigit⟩ := hmagnitude.head
      rw [htext]
      rintro ⟨rfl⟩
      cases hdigit
    rw [toggleSign_of_ne_minus hhead]
    exact of_minus hmagnitude hpoints
  · rw [String.toList_ofList, List.count_cons_of_ne (by decide)] at hpoints
    rw [toggleSign_of_minus]
    exact ofList hmagnitude hpoints

end Tidy

/-! ## Written numbers -/

end Buffer

namespace Decimal

open Buffer

variable {sign : List Char}

/-- The digits of a number other than zero are not the lone zero. -/
theorem digits_ne_zero {n : Nat} (h : n ≠ 0) : digits n ≠ ['0'] := by
  intro heq
  have hvalue := ofDigits_digits n
  rw [heq] at hvalue
  exact h hvalue.symm

/-- The digits of a natural number have no zeros in front. -/
theorem isWhole_digits (n : Nat) : IsWhole (digits n) := by
  induction n using Nat.strongRecOn with
  | ind n ih =>
    have hdigits : ∀ c ∈ digits n, c.isDigit = true := fun c hc => isDigit_of_mem_digits hc
    have heq : digits n =
        if n < 10 then [n.digitChar] else digits (n / 10) ++ [(n % 10).digitChar] :=
      Nat.toDigits_eq_if (by decide)
    rw [heq] at hdigits ⊢
    by_cases hn : n < 10
    · rw [if_pos hn] at hdigits ⊢
      exact isWhole_singleton (hdigits _ List.mem_cons_self)
    · rw [if_neg hn] at hdigits ⊢
      have hlast := hdigits _ (List.mem_append_right _ List.mem_cons_self)
      exact (ih (n / 10) (by omega)).append (digits_ne_zero (by omega))
        (List.forall_mem_singleton.2 hlast)

/-- Zeros that fill up are digits. -/
theorem isDigit_of_mem_zeros (k : Nat) : ∀ c ∈ List.replicate k '0', c.isDigit = true := by
  intro c hc
  rw [List.eq_of_mem_replicate hc]
  rfl

/-- Zeros fill up to one digit more than there are places. If there are enough digits without them,
the first ones stand before the point, and else a lone zero does. -/
theorem isWhole_take_padded {ds padded : List Char} (h : IsWhole ds) {places : Nat}
    (hpadded : padded = List.replicate (places + 1 - ds.length) '0' ++ ds) :
    IsWhole (padded.take (padded.length - places)) := by
  -- without enough digits for the places, one of the zeros stands before the point
  rcases Nat.lt_or_ge places ds.length with hlong | hshort
  · rw [Nat.sub_eq_zero_of_le hlong, List.replicate_zero, List.nil_append] at hpadded
    subst hpadded
    refine h.of_prefix (List.take_prefix _ _) ?_
    rw [← List.length_pos_iff, List.length_take]
    omega
  · obtain ⟨k, hk⟩ : ∃ k, places + 1 - ds.length = k + 1 := ⟨places - ds.length, by omega⟩
    have hlength : padded.length - places = 1 := by
      rw [hpadded, List.length_append, List.length_replicate]
      omega
    rw [hlength, hpadded, hk]
    exact isWhole_singleton rfl

/-- Digits that do not write zero, and the point among them or behind zeros. -/
theorem tidy_positional (hsign : sign = [] ∨ sign = ['-']) {n : Nat} (hn : n ≠ 0) (e : Int) :
    Tidy (String.ofList (sign ++ positional (digits n) e)) := by
  have hwhole := isWhole_digits n
  have htidy {whole fraction : List Char} (hwhole : IsWhole whole)
      (hfraction : ∀ c ∈ fraction, c.isDigit = true) :
      Tidy (String.ofList (sign ++ (whole ++ '.' :: fraction))) := by
    have h := Tidy.of_parts hsign hwhole (.pointed hfraction) .missing List.not_mem_nil
    rwa [List.append_nil] at h
  unfold positional
  split
  · exact htidy (hwhole.append (digits_ne_zero hn) (isDigit_of_mem_zeros e.toNat))
      (isDigit_of_mem_zeros 1)
  · have hdigits := isDigit_of_mem_padded hwhole.isDigit ((-e).toNat + 1 - (digits n).length)
    exact htidy (isWhole_take_padded hwhole rfl) fun c hc => hdigits c (List.mem_of_mem_drop hc)

/-- The exponent that is written is one, and has no point. -/
theorem isExponent_exponentPart (e : Int) :
    IsExponent (exponentPart e) ∧ '.' ∉ exponentPart e := by
  have hdigits := isDigit_of_mem_padded (isWhole_digits e.natAbs).isDigit
    (2 - (digits e.natAbs).length)
  have hsign : (if e < 0 then '-' else '+') = '+' ∨ (if e < 0 then '-' else '+') = '-' := by
    split
    · exact .inr rfl
    · exact .inl rfl
  have hne : List.replicate (2 - (digits e.natAbs).length) '0' ++ digits e.natAbs ≠ [] :=
    List.append_ne_nil_of_right_ne_nil _ (digits_ne_nil _)
  have h := IsExponent.power hsign hne hdigits .missing
  rw [List.append_nil] at h
  refine ⟨h, ?_⟩
  unfold exponentPart
  dsimp only
  rw [List.mem_cons, List.mem_cons, not_or, not_or]
  refine ⟨by decide, ?_, fun hmem => ne_point_of_isDigit (hdigits _ hmem) rfl⟩
  rcases hsign with hsign | hsign <;> rw [hsign] <;> decide

/-- One digit before the point, so zeros in front do not show. -/
theorem tidy_exponential (hsign : sign = [] ∨ sign = ['-']) {ds : List Char}
    (hds : ∀ c ∈ ds, c.isDigit = true) (hne : ds ≠ []) (e : Int) :
    Tidy (String.ofList (sign ++ exponential ds e)) := by
  obtain ⟨hexponent, hpoint⟩ := isExponent_exponentPart e
  match ds with
  | [] => exact absurd rfl hne
  | [d] =>
    exact Tidy.of_parts hsign (isWhole_singleton (hds d List.mem_cons_self)) .missing hexponent
      hpoint
  | d :: d' :: ds' =>
    obtain ⟨hd, hds'⟩ := List.forall_mem_cons.1 hds
    exact Tidy.of_parts hsign (isWhole_singleton hd) (.pointed hds') hexponent hpoint

/-- The text of a decimal other than zero is tidy, positional or not. -/
theorem tidy_text (hsign : sign = [] ∨ sign = ['-']) {d : Decimal} (h : d.coefficient ≠ 0) :
    Tidy (String.ofList (sign ++ d.text)) := by
  unfold text
  dsimp only
  split
  · exact tidy_positional hsign h _
  · exact tidy_exponential hsign (isWhole_digits _).isDigit (digits_ne_nil _) _

end Decimal

namespace Double

open Buffer

/-- A number is written with a minus or without a sign. -/
theorem signText_cases (x : Double) : x.signText = [] ∨ x.signText = ['-'] := by
  unfold signText
  split
  · exact .inr rfl
  · exact .inl rfl

/-- The shortest digits of a number other than zero are not zero. -/
theorem coefficient_shortest_ne_zero {x : Double} (h : x.isZero = false) :
    x.shortest.coefficient ≠ 0 := by
  intro hcoefficient
  have hvalue := x.toNumber_shortest
  rw [Decimal.toNumber, if_pos (.inl hcoefficient)] at hvalue
  rw [← Number.finite.inj hvalue] at h
  cases h

/-- The canonical text of a number is tidy. -/
theorem tidy_canonicalText (x : Double) : Tidy x.canonicalText := by
  by_cases hzero : x.isZero = true
  · rw [canonicalText_of_isZero hzero]
    exact .start
  · unfold canonicalText
    rw [if_neg hzero]
    split
    · have h := Tidy.of_parts x.signText_cases (Decimal.isWhole_digits x.whole) .missing .missing
        List.not_mem_nil
      rwa [List.append_nil, List.append_nil] at h
    · exact Decimal.tidy_text x.signText_cases
        (coefficient_shortest_ne_zero (Bool.eq_false_iff.2 hzero))

/-- The text of a number in exponential notation is tidy. -/
theorem tidy_exponentialText (places : Nat) (x : Double) : Tidy (x.exponentialText places) := by
  unfold exponentialText
  dsimp only
  generalize (if x.nearestOn _ = _ then _ else _ : Nat × Int) = rounded
  obtain ⟨n, e⟩ := rounded
  exact Decimal.tidy_exponential x.signText_cases
    (Decimal.isDigit_of_mem_padded (Decimal.isWhole_digits n).isDigit _)
    (List.append_ne_nil_of_right_ne_nil _ (Decimal.digits_ne_nil n)) e

/-- The text of a result is tidy, whichever of the two it is. -/
theorem tidy_resultText (x : Double) : Tidy x.resultText := by
  unfold resultText
  dsimp only
  split
  · exact x.tidy_canonicalText
  · exact x.tidy_exponentialText resultPlaces

end Double

end Keypad
