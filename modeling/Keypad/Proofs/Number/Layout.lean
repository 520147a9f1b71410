import Keypad.Proofs.Number.DecimalValue
import Keypad.Proofs.Number.NumeralLanguage
import Mathlib.Data.List.DropRight

/-!
# How the text of a number is laid out

A text that is read as a double consists of white space, perhaps a sign, an unsigned decimal and
white space again: `LaidOut`. Whether an edit of a text leaves it readable can be told from this
layout, since each edit works on one of its ends.

* `parse_eq_decimal_iff_laidOut` — the numerals of decimals are the texts of this layout.
* `isReadable_iff_laidOut`       — and the readable ones are those whose decimal is not too large.
* `spells_append_point_iff`, `Spells.exists_append_digit` — how a decimal can go on.
-/

namespace Keypad

namespace Text

variable {cls : Char → Bool} {cs : List Char}

/-- What is trimmed off a text is of the class. -/
theorem exists_eq_append_trim (cls : Char → Bool) (cs : List Char) :
    ∃ before behind, cs = before ++ (trim cls cs ++ behind) ∧ (∀ c ∈ before, cls c = true) ∧
      ∀ c ∈ behind, cls c = true := by
  refine ⟨cs.takeWhile cls, (cs.dropWhile cls).rtakeWhile cls, ?_,
    fun c => List.mem_takeWhile_imp, fun c => List.mem_rtakeWhile_imp⟩
  rw [show trim cls cs = (cs.dropWhile cls).rdropWhile cls from rfl,
    List.rdropWhile_append_rtakeWhile, List.takeWhile_append_dropWhile]

/-- A text with nothing to trim is what is left of it with characters of the class around it. -/
theorem trim_surrounded {before behind : List Char} (hbefore : ∀ c ∈ before, cls c = true)
    (hbehind : ∀ c ∈ behind, cls c = true) (hcs : ∀ c ∈ cs, cls c = false) (hne : cs ≠ []) :
    trim cls (before ++ (cs ++ behind)) = cs := by
  have hdrop : ∀ rest, (cs ++ rest).dropWhile cls = cs ++ rest := by
    intro rest
    obtain ⟨c, cs', rfl⟩ := List.exists_cons_of_ne_nil hne
    rw [List.cons_append, List.dropWhile_cons, hcs c List.mem_cons_self, if_neg Bool.false_ne_true]
  have hback : cs.reverse.dropWhile cls = cs.reverse := by
    obtain ⟨c, cs', hreverse⟩ := List.exists_cons_of_ne_nil (mt List.reverse_eq_nil_iff.1 hne)
    have hc : c ∈ cs := List.mem_reverse.1 (hreverse ▸ List.mem_cons_self)
    rw [hreverse, List.dropWhile_cons, hcs c hc, if_neg Bool.false_ne_true]
  rw [trim, List.dropWhile_append_of_pos hbefore, hdrop, List.reverse_append,
    List.dropWhile_append_of_pos (fun c hc => hbehind c (List.mem_reverse.1 hc)), hback,
    List.reverse_reverse]

end Text

open Keypad.Text

namespace Decimal

/-- Whether the decimal is nearest to a double, and not too large for one. -/
def Fits (d : Decimal) : Prop := ∃ x, d.toNumber false = .finite x

/-- Whether a decimal is too large does not depend on its sign. -/
theorem exists_toNumber_iff_fits {d : Decimal} (negative : Bool) :
    (∃ x, d.toNumber negative = .finite x) ↔ d.Fits := by
  unfold Fits
  simp only [toNumber_eq_ofRatio, Number.ofRatio]
  split
  · exact ⟨fun _ => ⟨_, rfl⟩, fun _ => ⟨_, rfl⟩⟩
  · constructor
    · rintro ⟨x, hx⟩
      cases hx
    · rintro ⟨x, hx⟩
      cases hx

/-- A decimal that is too large for a double is read as infinity. -/
theorem toNumber_eq_infinite {d : Decimal} (h : ¬d.Fits) (negative : Bool) :
    d.toNumber negative = .infinite negative := by
  rw [← exists_toNumber_iff_fits negative] at h
  revert h
  rw [toNumber_eq_ofRatio, Number.ofRatio]
  split
  · intro h
    exact absurd ⟨_, rfl⟩ h
  · exact fun _ => rfl

/-- With the other sign the decimal stands for the negative. -/
theorem toNumber_not {d : Decimal} {negative : Bool} {x : Double}
    (h : d.toNumber negative = .finite x) : d.toNumber (!negative) = .finite x.neg := by
  rw [toNumber_eq_ofRatio, Number.ofRatio] at h
  rw [toNumber_eq_ofRatio, Number.ofRatio]
  split at h
  · next hlt =>
    obtain rfl := Number.finite.inj h
    exact dif_pos hlt
  · cases h

end Decimal

namespace Numeral

/-! ## Layout -/

/-- The ways to write a sign, and whether it is a minus. -/
inductive SpellsSign : List Char → Bool → Prop where
  | missing : SpellsSign [] false
  | plus : SpellsSign ['+'] false
  | minus : SpellsSign ['-'] true

/-- A sign is written with characters of decimals. -/
theorem SpellsSign.isNumeralChar {sign : List Char} {negative : Bool}
    (h : SpellsSign sign negative) : ∀ c ∈ sign, IsNumeralChar c := by
  intro c hc
  cases h with
  | missing => cases hc
  | plus =>
    obtain rfl := List.mem_singleton.1 hc
    exact .inr (by decide)
  | minus =>
    obtain rfl := List.mem_singleton.1 hc
    exact .inr (by decide)

/-- The text is white space, a sign, this decimal and white space. -/
inductive LaidOut : List Char → Bool → Decimal → Prop where
  | mk {before sign body behind : List Char} {negative : Bool} {d : Decimal} :
      (∀ c ∈ before, isBlank c = true) → SpellsSign sign negative → Spells body d →
      (∀ c ∈ behind, isBlank c = true) → LaidOut (before ++ (sign ++ body ++ behind)) negative d

/-- Nothing need stand behind the decimal. -/
theorem LaidOut.of_last {before sign body : List Char} {negative : Bool} {d : Decimal}
    (hbefore : ∀ c ∈ before, isBlank c = true) (hsign : SpellsSign sign negative)
    (hbody : Spells body d) : LaidOut (before ++ (sign ++ body)) negative d := by
  have h := LaidOut.mk hbefore hsign hbody (List.forall_mem_nil _)
  rwa [List.append_nil] at h

/-- Nothing need stand before the decimal. -/
theorem LaidOut.of_first {body behind : List Char} {d : Decimal} (hbody : Spells body d)
    (hbehind : ∀ c ∈ behind, isBlank c = true) : LaidOut (body ++ behind) false d :=
  LaidOut.mk (List.forall_mem_nil _) .missing hbody hbehind

theorem Spells.ne_nil {cs : List Char} {d : Decimal} (h : Spells cs d) : cs ≠ [] := by
  obtain ⟨c, rest, rfl, -⟩ := h.head
  exact List.cons_ne_nil _ _

/-- The numerals of decimals are the texts of this layout. -/
theorem parse_eq_decimal_iff_laidOut {cs : List Char} {negative : Bool} {d : Decimal} :
    parse cs = some (.decimal negative d) ↔ LaidOut cs negative d := by
  rw [parse_eq_decimal_iff]
  constructor
  · rintro ⟨body, hsign, hbody⟩
    obtain ⟨before, behind, hcs, hbefore, hbehind⟩ := exists_eq_append_trim isBlank cs
    rw [hcs]
    -- the sign that was split off says how the trimmed text begins
    rcases splitSign_cases (trim isBlank cs) with ⟨rest, hrest, heq⟩ | ⟨rest, hrest, heq⟩ | heq
    · cases hsign.symm.trans heq
      rw [hrest]
      exact .mk hbefore .minus hbody hbehind
    · cases hsign.symm.trans heq
      rw [hrest]
      exact .mk hbefore .plus hbody hbehind
    · cases hsign.symm.trans heq
      exact .mk hbefore .missing hbody hbehind
  · rintro ⟨hbefore, hsign, hbody, hbehind⟩
    refine ⟨_, ?_, hbody⟩
    -- neither sign nor decimal is white space, so just what is around them is trimmed
    rw [trim_surrounded hbefore hbehind
      (fun c hc => ((List.forall_mem_append.2 ⟨hsign.isNumeralChar, hbody.isNumeralChar⟩) c
        hc).isBlank_eq) (List.append_ne_nil_of_right_ne_nil _ hbody.ne_nil)]
    cases hsign with
    | missing => exact hbody.splitSign_eq
    | plus => rfl
    | minus => rfl

/-- Without white space at its end, the text ends with the decimal. -/
theorem LaidOut.exists_eq_append {cs : List Char} {negative : Bool} {d : Decimal}
    (h : LaidOut cs negative d) (hlast : ∀ c ∈ cs.getLast?, isBlank c = false) :
    ∃ before sign body, cs = before ++ (sign ++ body) ∧ (∀ c ∈ before, isBlank c = true) ∧
      SpellsSign sign negative ∧ Spells body d := by
  obtain @⟨before, sign, body, behind, _, _, hbefore, hsign, hbody, hbehind⟩ := h
  rcases List.eq_nil_or_concat' behind with rfl | ⟨front, c, rfl⟩
  · rw [List.append_nil]
    exact ⟨before, sign, body, rfl, hbefore, hsign, hbody⟩
  · have hc := hbehind c (List.mem_append_right _ List.mem_cons_self)
    rw [hlast c (by simp)] at hc
    cases hc

/-- The last character belongs to the decimal if it is not white space. -/
theorem LaidOut.exists_eq_append_of_concat {cs : List Char} {c : Char} {negative : Bool}
    {d : Decimal} (h : LaidOut (cs ++ [c]) negative d) (hc : isBlank c = false) :
    ∃ before sign body, cs = before ++ (sign ++ body) ∧ (∀ c ∈ before, isBlank c = true) ∧
      SpellsSign sign negative ∧ Spells (body ++ [c]) d := by
  obtain ⟨before, sign, body, heq, hbefore, hsign, hbody⟩ := h.exists_eq_append (by simpa using hc)
  rcases List.eq_nil_or_concat' body with rfl | ⟨front, c', rfl⟩
  · exact absurd rfl hbody.ne_nil
  · rw [← List.append_assoc, ← List.append_assoc] at heq
    obtain ⟨hcs, hc'⟩ := List.append_inj' heq rfl
    cases hc'
    exact ⟨before, sign, front, by rw [hcs, List.append_assoc], hbefore, hsign, hbody⟩

/-- There is a digit in the text of a decimal. -/
theorem Spells.exists_digit {cs : List Char} {d : Decimal} (h : Spells cs d) :
    ∃ c ∈ cs, ∃ v, digitValue? c = some v := by
  have hrun : ∀ run ds, Run run ds → run ≠ [] → ∃ c ∈ run, ∃ v, digitValue? c = some v := by
    intro run ds hrun hne
    obtain ⟨c, rest, v, rfl, hv⟩ := hrun.head hne
    exact ⟨c, List.mem_cons_self, v, hv⟩
  cases h with
  | plain hwhole hne _ =>
    obtain ⟨c, hc, hv⟩ := hrun _ _ hwhole hne
    exact ⟨c, List.mem_append_left _ hc, hv⟩
  | pointed hwhole hfraction hne _ =>
    rcases hne with hne | hne
    · obtain ⟨c, hc, hv⟩ := hrun _ _ hwhole hne
      exact ⟨c, List.mem_append_left _ hc, hv⟩
    · obtain ⟨c, hc, hv⟩ := hrun _ _ hfraction hne
      exact ⟨c, List.mem_append_right _ (List.mem_cons_of_mem _ (List.mem_append_left _ hc)), hv⟩

/-- There is a digit in every text of this layout. -/
theorem LaidOut.exists_digit {cs : List Char} {negative : Bool} {d : Decimal}
    (h : LaidOut cs negative d) : ∃ c ∈ cs, ∃ v, digitValue? c = some v := by
  obtain ⟨-, -, hbody, -⟩ := h
  obtain ⟨c, hc, hv⟩ := hbody.exists_digit
  exact ⟨c, by simp [hc], hv⟩

/-- A character that can stand before a decimal: white space or a sign. -/
def IsLead (c : Char) : Prop := isBlank c = true ∨ c = '+' ∨ c = '-'

/-- A decimal starts neither with white space nor with a sign. -/
theorem Spells.not_isLead {cs : List Char} {d : Decimal} (h : Spells cs d) :
    ∀ c ∈ cs.head?, ¬IsLead c := by
  obtain ⟨c, rest, rfl, hc⟩ := h.head
  intro c' hc'
  cases hc'
  rintro (hblank | rfl | rfl)
  · have hchar : IsNumeralChar c := hc.elim (fun h => h ▸ .inr (by decide)) .inl
    rw [hchar.isBlank_eq] at hblank
    cases hblank
  · rcases hc with hc | ⟨v, hv⟩
    · exact absurd hc (by decide)
    · cases hv
  · rcases hc with hc | ⟨v, hv⟩
    · exact absurd hc (by decide)
    · cases hv

/-- A text that starts with a decimal starts neither with white space nor with a sign. -/
theorem Spells.not_isLead_append {body behind : List Char} {d : Decimal} (h : Spells body d) :
    ∀ c ∈ (body ++ behind).head?, ¬IsLead c := by
  obtain ⟨c, rest, rfl, -⟩ := h.head
  exact h.not_isLead

/-- A text that starts with its decimal has no minus. -/
theorem LaidOut.of_not_isLead {cs : List Char} {negative : Bool} {d : Decimal}
    (h : LaidOut cs negative d) (hhead : ∀ c ∈ cs.head?, ¬IsLead c) :
    ∃ body behind, cs = body ++ behind ∧ Spells body d ∧ ∀ c ∈ behind, isBlank c = true := by
  obtain @⟨before, sign, body, behind, _, _, hbefore, hsign, hbody, hbehind⟩ := h
  cases before with
  | cons c before => exact absurd (.inl (hbefore c List.mem_cons_self)) (hhead c rfl)
  | nil =>
    cases hsign with
    | missing => exact ⟨body, behind, rfl, hbody, hbehind⟩
    | plus => exact absurd (.inr (.inl rfl)) (hhead '+' rfl)
    | minus => exact absurd (.inr (.inr rfl)) (hhead '-' rfl)

/-- A minus in front makes a negative number of a text that starts with its decimal, and of no
other. -/
theorem laidOut_minus_cons_iff {cs : List Char} {negative : Bool} {d : Decimal} :
    LaidOut ('-' :: cs) negative d ↔
      negative = true ∧ ∃ body behind, cs = body ++ behind ∧ Spells body d ∧
        ∀ c ∈ behind, isBlank c = true := by
  constructor
  · intro h
    -- the minus is no white space and starts no decimal, so it is the sign
    generalize htext : '-' :: cs = text at h
    obtain @⟨before, sign, body, behind, _, _, hbefore, hsign, hbody, hbehind⟩ := h
    cases before with
    | cons c before =>
      cases htext
      exact absurd (hbefore '-' List.mem_cons_self) (by decide)
    | nil =>
      cases hsign with
      | missing =>
        refine absurd (.inr (.inr rfl)) (hbody.not_isLead '-' ?_)
        obtain ⟨c, rest, rfl, -⟩ := hbody.head
        cases htext
        rfl
      | plus => cases htext
      | minus =>
        cases htext
        exact ⟨rfl, body, behind, rfl, hbody, hbehind⟩
  · rintro ⟨rfl, body, behind, rfl, hbody, hbehind⟩
    exact LaidOut.mk (List.forall_mem_nil _) .minus hbody hbehind

/-! ## How a decimal can go on -/

/-- A run ends with a digit. -/
theorem Run.exists_eq_concat {cs : List Char} {ds : List Nat} (h : Run cs ds) (hne : cs ≠ []) :
    ∃ front c v, cs = front ++ [c] ∧ digitValue? c = some v := by
  induction h with
  | nil => exact absurd rfl hne
  | @digit c d cs ds hc hrun ih =>
    by_cases hcs : cs = []
    · subst hcs
      exact ⟨[], c, d, rfl, hc⟩
    · obtain ⟨front, c', v, rfl, hv⟩ := ih hcs
      exact ⟨c :: front, c', v, rfl, hv⟩
  | @joined c d cs ds hc hrun hcs ih =>
    obtain ⟨front, c', v, rfl, hv⟩ := ih hcs
    exact ⟨c :: '_' :: front, c', v, rfl, hv⟩

/-- An exponent that is not missing ends with a digit. -/
theorem SpellsExponent.exists_eq_concat {cs : List Char} {e : Int} (h : SpellsExponent cs e)
    (hne : cs ≠ []) : ∃ front c v, cs = front ++ [c] ∧ digitValue? c = some v := by
  cases h with
  | missing => exact absurd rfl hne
  | plain hl hrun hcs =>
    obtain ⟨front, c, v, rfl, hv⟩ := hrun.exists_eq_concat hcs
    exact ⟨_ :: front, c, v, rfl, hv⟩
  | plus hl hrun hcs =>
    obtain ⟨front, c, v, rfl, hv⟩ := hrun.exists_eq_concat hcs
    exact ⟨_ :: '+' :: front, c, v, rfl, hv⟩
  | minus hl hrun hcs =>
    obtain ⟨front, c, v, rfl, hv⟩ := hrun.exists_eq_concat hcs
    exact ⟨_ :: '-' :: front, c, v, rfl, hv⟩

theorem Run.append_digit {cs : List Char} {ds : List Nat} (h : Run cs ds) {c : Char} {v : Nat}
    (hc : digitValue? c = some v) : Run (cs ++ [c]) (ds ++ [v]) :=
  h.append (.digit hc .nil)

/-- An exponent goes on with a digit. -/
theorem SpellsExponent.exists_append_digit {cs : List Char} {e : Int} (h : SpellsExponent cs e)
    (hne : cs ≠ []) {c : Char} {v : Nat} (hc : digitValue? c = some v) :
    ∃ e', SpellsExponent (cs ++ [c]) e' := by
  cases h with
  | missing => exact absurd rfl hne
  | plain hl hrun _ => exact ⟨_, .plain hl (hrun.append_digit hc) (List.concat_ne_nil c _)⟩
  | plus hl hrun _ => exact ⟨_, .plus hl (hrun.append_digit hc) (List.concat_ne_nil c _)⟩
  | minus hl hrun _ => exact ⟨_, .minus hl (hrun.append_digit hc) (List.concat_ne_nil c _)⟩

/-- Every decimal can go on with a digit: with one of its exponent if it has one, else of its
fraction if it has one. -/
theorem Spells.exists_append_digit {cs : List Char} {d : Decimal} (h : Spells cs d) {c : Char}
    {v : Nat} (hc : digitValue? c = some v) : ∃ d', Spells (cs ++ [c]) d' := by
  cases h with
  | @plain whole exponent ds e hwhole hne hexp =>
    by_cases hexponent : exponent = []
    · subst hexponent
      rw [List.append_nil, ← List.append_nil (whole ++ [c])]
      exact ⟨_, .plain (hwhole.append_digit hc) (List.concat_ne_nil c _) .missing⟩
    · obtain ⟨e', he'⟩ := hexp.exists_append_digit hexponent hc
      rw [List.append_assoc]
      exact ⟨_, .plain hwhole hne he'⟩
  | @pointed whole fraction exponent ds fs e hwhole hfraction hne hexp =>
    by_cases hexponent : exponent = []
    · subst hexponent
      have hspells := Spells.pointed hwhole (hfraction.append_digit hc)
        (.inr (List.concat_ne_nil c _)) .missing
      simp only [List.append_nil, List.append_assoc, List.cons_append] at hspells ⊢
      exact ⟨_, hspells⟩
    · obtain ⟨e', he'⟩ := hexp.exists_append_digit hexponent hc
      simp only [List.append_assoc, List.cons_append]
      exact ⟨_, .pointed hwhole hfraction hne he'⟩

/-- A decimal ends with a digit or with its point, which then stands behind a run. -/
theorem Spells.getLast {cs : List Char} {d : Decimal} (h : Spells cs d) :
    (∃ front c v, cs = front ++ [c] ∧ digitValue? c = some v) ∨
      ∃ whole ds, cs = whole ++ ['.'] ∧ whole ≠ [] ∧ Run whole ds := by
  cases h with
  | @plain whole exponent ds e hwhole hne hexp =>
    by_cases hexponent : exponent = []
    · subst hexponent
      rw [List.append_nil]
      exact .inl (hwhole.exists_eq_concat hne)
    · obtain ⟨front, c, v, rfl, hv⟩ := hexp.exists_eq_concat hexponent
      exact .inl ⟨whole ++ front, c, v, (List.append_assoc ..).symm, hv⟩
  | @pointed whole fraction exponent ds fs e hwhole hfraction hne hexp =>
    by_cases hexponent : exponent = []
    · subst hexponent
      -- without an exponent the last character is that of the fraction, or the point
      by_cases hempty : fraction = []
      · subst hempty
        exact .inr ⟨whole, ds, rfl, hne.resolve_right fun h => h rfl, hwhole⟩
      · obtain ⟨front, c, v, rfl, hv⟩ := hfraction.exists_eq_concat hempty
        exact .inl ⟨whole ++ '.' :: front, c, v, by simp, hv⟩
    · obtain ⟨front, c, v, rfl, hv⟩ := hexp.exists_eq_concat hexponent
      exact .inl ⟨whole ++ '.' :: (fraction ++ front), c, v, by simp, hv⟩

/-- A point can only stand at the end behind a run of digits. -/
theorem spells_append_point_iff {cs : List Char} :
    (∃ d, Spells (cs ++ ['.']) d) ↔ cs ≠ [] ∧ ∃ ds, Run cs ds := by
  constructor
  · rintro ⟨d, h⟩
    rcases h.getLast with ⟨front, c, v, heq, hv⟩ | ⟨whole, ds, heq, hne, hrun⟩
    · obtain ⟨-, hc⟩ := List.append_inj' heq rfl
      cases hc
      cases hv
    · obtain ⟨rfl, -⟩ := List.append_inj' heq rfl
      exact ⟨hne, ds, hrun⟩
  · rintro ⟨hne, ds, hrun⟩
    exact ⟨_, .pointed hrun .nil (.inl hne) .missing⟩

/-- The point behind a run changes nothing. -/
theorem Run.spells_append_point {cs : List Char} {ds : List Nat} (h : Run cs ds) (hne : cs ≠ []) :
    Spells (cs ++ ['.']) ⟨ofDigits ds, 0⟩ := by
  have hspells := Spells.pointed h .nil (.inl hne) .missing
  rwa [List.append_nil, List.append_nil] at hspells

end Numeral

namespace Number

/-- A text is read as a double if it is laid out like one and the decimal is nearest to it. -/
theorem read_eq_ok_iff_laidOut {text : String} {x : Double} :
    read text = .ok x ↔
      ∃ negative d, Numeral.LaidOut (ungrouped text) negative d ∧
        d.toNumber negative = .finite x := by
  simp only [read_eq_ok_iff, Numeral.parse_eq_decimal_iff_laidOut]

/-- A text is readable if it is laid out like a number that is not too large. -/
theorem isReadable_iff_laidOut {text : String} :
    isReadable text = true ↔
      ∃ negative d, Numeral.LaidOut (ungrouped text) negative d ∧ d.Fits := by
  rw [isReadable_iff]
  simp only [read_eq_ok_iff_laidOut]
  constructor
  · rintro ⟨x, negative, d, hlaid, hx⟩
    exact ⟨negative, d, hlaid, (Decimal.exists_toNumber_iff_fits negative).1 ⟨x, hx⟩⟩
  · rintro ⟨negative, d, hlaid, hfits⟩
    obtain ⟨x, hx⟩ := (Decimal.exists_toNumber_iff_fits negative).2 hfits
    exact ⟨x, negative, d, hlaid, hx⟩

/-- A text of this layout stands for what its decimal is nearest to, infinity included. -/
theorem ofText?_of_laidOut {text : String} {negative : Bool} {d : Decimal}
    (h : Numeral.LaidOut (ungrouped text) negative d) :
    ofText? text = some (d.toNumber negative) := by
  unfold ofText?
  rw [← ungrouped, Numeral.parse_eq_decimal_iff_laidOut.2 h]
  rfl

end Number

end Keypad
