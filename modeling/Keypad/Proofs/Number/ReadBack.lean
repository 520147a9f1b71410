import Keypad.Proofs.Number.DecimalValue
import Keypad.Proofs.Number.NumeralLanguage

/-!
# Written numbers read back

The text of a decimal is a numeral of the same value, so the canonical text of a double, which is
written from a decimal that stands for it, reads back as the double. The text of a result has fewer
digits; it reads back as a double, because rounding to seven digits does not leave the range.

* `Decimal.exists_spells_text` — the text of a decimal spells a decimal of its value.
* `Double.read_shortestText`   — the shortest text is lossless.
* `Double.read_canonicalText`  — canonical text is lossless, apart from the sign of zero.
* `Double.exists_read_resultText` — the text of a result is the text of a double.
-/

namespace Keypad

open Keypad.Numeral

/-! ## The texts of a decimal -/

namespace Decimal

theorem isDigit_of_mem_digits {n : Nat} {c : Char} (h : c ∈ digits n) : c.isDigit = true :=
  Nat.isDigit_of_mem_toDigits (by decide) (by decide) h

theorem digits_ne_nil (n : Nat) : digits n ≠ [] := Nat.toDigits_ne_nil

theorem ofDigits_digits (n : Nat) : ofDigits (keyValues (digits n)) = n := ofDigits_toDigits n

/-- Zeros in front of digits are digits. -/
theorem isDigit_of_mem_padded {ds : List Char} (hds : ∀ c ∈ ds, c.isDigit = true) (k : Nat) :
    ∀ c ∈ List.replicate k '0' ++ ds, c.isDigit = true := by
  refine List.forall_mem_append.2 ⟨?_, hds⟩
  intro c hc
  rw [List.eq_of_mem_replicate hc]
  rfl

theorem keyValues_append (cs ds : List Char) :
    keyValues (cs ++ ds) = keyValues cs ++ keyValues ds := List.map_append

theorem keyValues_replicate_zero (k : Nat) :
    keyValues (List.replicate k '0') = List.replicate k 0 := List.map_replicate

theorem length_keyValues (cs : List Char) : (keyValues cs).length = cs.length := List.length_map _

/-- Zeros in front do not change the number that digits write. -/
theorem ofDigits_padded (k : Nat) (ds : List Char) :
    ofDigits (keyValues (List.replicate k '0' ++ ds)) = ofDigits (keyValues ds) := by
  rw [keyValues_append, keyValues_replicate_zero, ofDigits_replicate_zero_append]

/-- The exponent that is written is read as itself. -/
theorem spellsExponent_exponentPart (e : Int) : SpellsExponent (exponentPart e) e := by
  have hdigits : ∀ c ∈ digits e.natAbs, c.isDigit = true := fun c hc => isDigit_of_mem_digits hc
  have hrun := Run.of_isDigit (isDigit_of_mem_padded hdigits (2 - (digits e.natAbs).length))
  have hne : List.replicate (2 - (digits e.natAbs).length) '0' ++ digits e.natAbs ≠ [] :=
    List.append_ne_nil_of_right_ne_nil _ (digits_ne_nil _)
  have hvalue := ofDigits_padded (2 - (digits e.natAbs).length) (digits e.natAbs)
  rw [ofDigits_digits] at hvalue
  unfold exponentPart
  -- a sign is always written, and two digits at least
  by_cases he : e < 0
  · have h := SpellsExponent.minus (.inl rfl : 'e' = 'e' ∨ 'e' = 'E') hrun hne
    rw [hvalue, show -(e.natAbs : Int) = e by omega] at h
    simpa only [if_pos he] using h
  · have h := SpellsExponent.plus (.inl rfl : 'e' = 'e' ∨ 'e' = 'E') hrun hne
    rw [hvalue, show (e.natAbs : Int) = e by omega] at h
    simpa only [if_neg he] using h

/-- Digits in exponential notation name the decimal with one digit before its point. -/
theorem spells_exponential {ds : List Char} (hds : ∀ c ∈ ds, c.isDigit = true) (hne : ds ≠ [])
    (e : Int) :
    Spells (exponential ds e) ⟨ofDigits (keyValues ds), e - (ds.length - 1 : Nat)⟩ := by
  match ds with
  | [] => exact absurd rfl hne
  | [d] =>
    have h := Spells.plain (Run.of_isDigit hds) hne (spellsExponent_exponentPart e)
    simpa [exponential] using h
  | d :: d' :: ds' =>
    obtain ⟨hd, hds'⟩ := List.forall_mem_cons.1 hds
    have hfirst : ∀ c ∈ [d], c.isDigit = true := by
      intro c hc
      rwa [List.mem_singleton.1 hc]
    have h := Spells.pointed (Run.of_isDigit hfirst) (Run.of_isDigit hds')
      (.inl (List.cons_ne_nil _ _)) (spellsExponent_exponentPart e)
    rw [← keyValues_append] at h
    simpa [exponential, keyValues] using h

/-- Without places behind the point a zero is written there. -/
theorem spells_positional_of_nonneg {ds : List Char} (hds : ∀ c ∈ ds, c.isDigit = true)
    (hne : ds ≠ []) {e : Int} (he : 0 ≤ e) :
    Spells (positional ds e) ⟨ofDigits (keyValues ds) * 10 ^ (e.toNat + 1), -1⟩ := by
  have hzeros : List.replicate e.toNat 0 ++ List.replicate 1 0 = List.replicate (e.toNat + 1) 0 :=
    List.replicate_append_replicate
  have hlast : ∀ c ∈ ['0'], c.isDigit = true := by
    intro c hc
    rw [List.mem_singleton.1 hc]
    rfl
  have hwhole : ∀ c ∈ ds ++ List.replicate e.toNat '0', c.isDigit = true := by
    refine List.forall_mem_append.2 ⟨hds, ?_⟩
    intro c hc
    rw [List.eq_of_mem_replicate hc]
    rfl
  have h := Spells.pointed (Run.of_isDigit hwhole) (Run.of_isDigit hlast)
    (.inl (List.append_ne_nil_of_left_ne_nil hne _)) .missing
  rw [keyValues_append, keyValues_replicate_zero,
    show keyValues ['0'] = List.replicate 1 0 from rfl,
    List.append_assoc (keyValues ds), hzeros, ofDigits_append_replicate_zero] at h
  simpa [positional, he] using h

/-- Zeros in front make room for the places behind the point, and for one digit before it. -/
theorem spells_positional_of_neg {ds : List Char} (hds : ∀ c ∈ ds, c.isDigit = true) {e : Int}
    (he : e < 0) : Spells (positional ds e) ⟨ofDigits (keyValues ds), e⟩ := by
  have hpadded := isDigit_of_mem_padded hds ((-e).toNat + 1 - ds.length)
  have hvalue := ofDigits_padded ((-e).toNat + 1 - ds.length) ds
  have hlength : (-e).toNat + 1 ≤
      (List.replicate ((-e).toNat + 1 - ds.length) '0' ++ ds).length := by
    rw [List.length_append, List.length_replicate]
    omega
  unfold positional
  rw [if_neg (by omega)]
  simp only
  generalize List.replicate ((-e).toNat + 1 - ds.length) '0' ++ ds = padded at *
  have hwhole : padded.take (padded.length - (-e).toNat) ≠ [] := by
    rw [← List.length_pos_iff, List.length_take]
    omega
  -- the places behind the point are the last digits of those that fill up
  have hfront : ∀ c ∈ padded.take (padded.length - (-e).toNat), c.isDigit = true := fun c hc =>
    hpadded c (List.mem_of_mem_take hc)
  have hback : ∀ c ∈ padded.drop (padded.length - (-e).toNat), c.isDigit = true := fun c hc =>
    hpadded c (List.mem_of_mem_drop hc)
  have h := Spells.pointed (Run.of_isDigit hfront) (Run.of_isDigit hback) (.inl hwhole) .missing
  rw [← keyValues_append, List.take_append_drop, hvalue, length_keyValues, List.length_drop,
    List.append_nil] at h
  rwa [show (0 : Int) - ((padded.length - (padded.length - (-e).toNat) : Nat) : Int) = e by omega]
    at h

/-- The text of a decimal is a numeral of the same value. -/
theorem exists_spells_text (d : Decimal) :
    ∃ d', Spells d.text d' ∧ ∀ negative, d'.toNumber negative = d.toNumber negative := by
  obtain ⟨c, e⟩ := d
  have hds : ∀ x ∈ digits c, x.isDigit = true := fun x hx => isDigit_of_mem_digits hx
  have hvalue := ofDigits_digits c
  unfold text
  simp only
  split
  · by_cases he : 0 ≤ e
    · refine ⟨_, spells_positional_of_nonneg hds (digits_ne_nil c) he, fun negative => ?_⟩
      have hshift := toNumber_shift negative c (e.toNat + 1) e
      rw [show e - ((e.toNat + 1 : Nat) : Int) = -1 by omega] at hshift
      rwa [hvalue]
    · refine ⟨_, spells_positional_of_neg hds (by omega), fun negative => ?_⟩
      rw [hvalue]
  · refine ⟨_, spells_exponential hds (digits_ne_nil c) _, fun negative => ?_⟩
    have hpos : 0 < (digits c).length := List.length_pos_iff.2 (digits_ne_nil c)
    have hexponent :
        ((digits c).length : Int) - 1 + e - (((digits c).length - 1 : Nat) : Int) = e := by
      omega
    rw [hvalue, hexponent]

end Decimal

/-! ## Canonical text -/

namespace Double

/-- The magnitude in full stands for the double. -/
theorem readsFrom_exactDecimal (x : Double) : x.readsFrom x.exactDecimal = true := by
  have hnumerator : x.exactDecimal.numerator = x.units * 10 ^ scaleBits := by
    have hexponent : (-(scaleBits : Int)).toNat = 0 := rfl
    simp only [Decimal.numerator, exactDecimal, hexponent, unitsPerOne, Nat.pow_zero, Nat.mul_one]
    rw [Nat.mul_assoc, ← Nat.mul_pow]
  have hdenominator : x.exactDecimal.denominator = 1 * 10 ^ scaleBits := by
    rw [Decimal.denominator, exactDecimal, Int.neg_neg, Int.toNat_natCast, Nat.one_mul]
  have hscale : 0 < 10 ^ scaleBits := Nat.pow_pos (by decide)
  rw [readsFrom, beq_iff_eq, Decimal.toNumber_eq_ofRatio, hnumerator, hdenominator,
    Number.ofRatio_congr x.negative (Nat.mul_pos Nat.one_pos hscale) Nat.one_pos (by ring),
    Number.ofRatio_units]

/-- The search ends with a decimal that stands for the double. -/
theorem readsFrom_searchFrom (x : Double) (n : Nat) (e : Int) :
    x.readsFrom (x.searchFrom n e) = true := by
  induction n generalizing e with
  | zero => exact x.readsFrom_exactDecimal
  | succ n ih =>
    rw [searchFrom]
    cases hpoint : x.pointOn? e with
    | none => exact ih (e - 1)
    | some d => exact readsFrom_of_pointOn? hpoint

/-- The shortest decimal of a double stands for it. -/
theorem toNumber_shortest (x : Double) : x.shortest.toNumber x.negative = .finite x := by
  unfold shortest
  split
  · next hzero =>
    obtain ⟨negative, units, hfits⟩ := x
    obtain rfl : units = 0 := beq_iff_eq.1 hzero
    exact if_pos (.inl rfl)
  · exact beq_iff_eq.1 (x.readsFrom_searchFrom 18 (x.decimalExponent + 1))

/-- The shortest text is lossless, the sign of zero included. -/
theorem read_shortestText (x : Double) : Number.read x.shortestText = .ok x := by
  obtain ⟨d, hspells, hvalue⟩ := x.shortest.exists_spells_text
  exact Number.read_ofList_of_spells hspells ((hvalue _).trans x.toNumber_shortest)

/-- The double without the sign of a zero. -/
def unsignedZero (x : Double) : Double := if x.isZero then zero false else x

/-- An integer is the decimal without places that its digits write. -/
theorem toNumber_whole {x : Double} (h : x.isIntegral = true) :
    (⟨x.whole, 0⟩ : Decimal).toNumber x.negative = .finite x := by
  have hunits : x.whole * unitsPerOne = x.units := by
    rw [isIntegral, beq_iff_eq] at h
    exact Nat.div_mul_cancel (Nat.dvd_of_mod_eq_zero h)
  have hnumerator : (⟨x.whole, 0⟩ : Decimal).numerator = x.units := by
    rw [Decimal.numerator, Int.toNat_zero, Nat.pow_zero, Nat.mul_one, hunits]
  rw [Decimal.toNumber_eq_ofRatio, hnumerator]
  exact Number.ofRatio_units x

/-- The digits of a natural number are the decimal of that number. -/
theorem spells_digits (n : Nat) : Spells (Decimal.digits n) ⟨n, 0⟩ := by
  have h := Spells.plain (Run.of_isDigit fun c hc => Decimal.isDigit_of_mem_digits hc)
    (Decimal.digits_ne_nil n) .missing
  rwa [Decimal.ofDigits_digits, List.append_nil] at h

/-- Either zero is written as one digit. -/
theorem canonicalText_of_isZero {x : Double} (h : x.isZero = true) : x.canonicalText = "0" := by
  have hunits : x.units = 0 := beq_iff_eq.1 h
  have hintegral : x.isIntegral = true := by
    rw [isIntegral, hunits, Nat.zero_mod]
    rfl
  have hwhole : x.whole = 0 := by rw [whole, hunits, Nat.zero_div]
  rw [canonicalText, hintegral, hwhole, if_pos h, if_pos (by decide)]
  rfl

/-- The text of a zero is short. -/
theorem isZero_eq_false_of_long {x : Double} (h : ¬x.canonicalText.length ≤ resultWidth) :
    x.isZero = false := by
  refine Bool.eq_false_iff.2 fun hzero => h ?_
  rw [canonicalText_of_isZero hzero]
  decide

/-- Canonical text is the numeral of a decimal that stands for the double, behind a minus if the
double is negative and not zero. -/
theorem exists_spells_canonicalText (x : Double) :
    ∃ cs d, x.canonicalText = String.ofList (x.unsignedZero.signText ++ cs) ∧ Spells cs d ∧
      d.toNumber x.unsignedZero.negative = .finite x.unsignedZero := by
  unfold unsignedZero
  by_cases hzero : x.isZero = true
  · rw [canonicalText_of_isZero hzero, if_pos hzero]
    exact ⟨Decimal.digits 0, ⟨0, 0⟩, rfl, spells_digits 0, rfl⟩
  · unfold canonicalText
    rw [if_neg hzero, if_neg hzero]
    split
    · next hsmall =>
      exact ⟨_, _, rfl, spells_digits _, toNumber_whole (Bool.and_eq_true_iff.1 hsmall).1⟩
    · obtain ⟨d, hspells, hvalue⟩ := x.shortest.exists_spells_text
      exact ⟨_, d, rfl, hspells, (hvalue _).trans x.toNumber_shortest⟩

/-- Canonical text is lossless, but for the sign of zero. -/
theorem read_canonicalText (x : Double) : Number.read x.canonicalText = .ok x.unsignedZero := by
  obtain ⟨cs, d, htext, hspells, hvalue⟩ := x.exists_spells_canonicalText
  rw [htext]
  exact Number.read_ofList_of_spells hspells hvalue

/-! ## The largest double -/

/-- The largest double: all bits of its significand are set, as high up as they go. -/
def largest : Double := ⟨false, (2 ^ (53 : Nat) - 1) * 2 ^ (limitBits - 53), by decide +kernel⟩

/-- No double has more units than the largest one. -/
theorem units_le_largest (x : Double) : x.units ≤ largest.units := by
  obtain ⟨hlimit, hfits⟩ := x.representable
  have hbits : excessBits x.units ≤ limitBits - 53 := by
    have hlog : x.units.log2 < limitBits := by
      by_cases hzero : x.units = 0
      · rw [hzero]
        decide
      · exact (Nat.log2_lt hzero).2 hlimit
    unfold excessBits
    omega
  calc x.units ≤ (2 ^ (53 : Nat) - 1) * 2 ^ excessBits x.units :=
        le_pred_mul_two_pow_excessBits hfits
    _ ≤ (2 ^ (53 : Nat) - 1) * 2 ^ (limitBits - 53) :=
        Nat.mul_le_mul_left _ (Nat.pow_le_pow_right (by decide) hbits)

/-! ## Results -/

theorem unitsPerOne_pos : 0 < unitsPerOne := Nat.two_pow_pos _

/-- The magnitude lies between ten to the power of its decimal exponent and the next power, the
lower bound unless it is less than any double but zero. -/
theorem exists_decimalExponent (x : Double) :
    ∃ n : Nat, x.decimalExponent = (n : Int) - Decimal.farPlaces ∧
      x.units * 10 ^ Decimal.farPlaces < 10 ^ (n + 1) * unitsPerOne ∧
      (0 < n → 10 ^ n * unitsPerOne ≤ x.units * 10 ^ Decimal.farPlaces) := by
  have hfloor : x.floorOn (-Decimal.farPlaces) =
      x.units * 10 ^ Decimal.farPlaces / unitsPerOne := by
    rw [floorOn, gridNumerator, gridDenominator, Int.neg_neg, Int.toNat_natCast,
      show (-(Decimal.farPlaces : Int)).toNat = 0 from rfl, Nat.pow_zero, Nat.mul_one]
  -- the exponent counts the digits of the magnitude on the finest grid
  have hpos : 0 < (Nat.toDigits 10 (x.floorOn (-Decimal.farPlaces))).length :=
    Nat.length_toDigits_pos
  have hlt := (Nat.length_toDigits_le_iff (by decide) hpos).1 (Nat.le_refl _)
  have hge : ∀ n, 0 < n → n < (Nat.toDigits 10 (x.floorOn (-Decimal.farPlaces))).length →
      10 ^ n ≤ x.floorOn (-Decimal.farPlaces) := fun n hn hlength =>
    Nat.le_of_not_lt fun h => by
      have := (Nat.length_toDigits_le_iff (by decide) hn).2 h
      omega
  refine ⟨(Nat.toDigits 10 (x.floorOn (-Decimal.farPlaces))).length - 1, ?_, ?_, fun hn => ?_⟩
  · rw [decimalExponent]
    omega
  · rw [Nat.sub_add_cancel hpos, ← Nat.div_lt_iff_lt_mul unitsPerOne_pos, ← hfloor]
    exact hlt
  · rw [← Nat.le_div_iff_mul_le unitsPerOne_pos, ← hfloor]
    exact hge _ hn (by omega)

theorem gridDenominator_pos (e : Int) : 0 < gridDenominator e :=
  Nat.mul_pos unitsPerOne_pos (Nat.pow_pos (by decide))

/-- On a grid `places` below the leading digit the nearest point has at most one digit more. -/
theorem nearestOn_le (x : Double) (places : Nat) :
    x.nearestOn (x.decimalExponent - places) ≤ 10 ^ (places + 1) := by
  obtain ⟨n, hexponent, hlt, -⟩ := x.exists_decimalExponent
  refine divRound_le (gridDenominator_pos _) ?_
  rw [gridNumerator, gridDenominator, hexponent]
  -- the bound on the magnitude is one in units of the finest grid
  have hscale : 0 < 10 ^ Decimal.farPlaces := Nat.pow_pos (by decide)
  refine Nat.le_of_mul_le_mul_right ?_ hscale
  calc x.units * 10 ^ (-((n : Int) - Decimal.farPlaces - places)).toNat * 10 ^ Decimal.farPlaces
      = x.units * 10 ^ Decimal.farPlaces *
          10 ^ (-((n : Int) - Decimal.farPlaces - places)).toNat := by ring
    _ ≤ 10 ^ (n + 1) * unitsPerOne * 10 ^ (-((n : Int) - Decimal.farPlaces - places)).toNat :=
        Nat.mul_le_mul_right _ (Nat.le_of_lt hlt)
    _ = unitsPerOne * 10 ^ (n + 1 + (-((n : Int) - Decimal.farPlaces - places)).toNat) := by
        rw [Nat.pow_add]
        ring
    _ = unitsPerOne * 10 ^ (places + 1 + ((n : Int) - Decimal.farPlaces - places).toNat +
          Decimal.farPlaces) := by
        congr 2
        omega
    _ = 10 ^ (places + 1) * (unitsPerOne * 10 ^ ((n : Int) - Decimal.farPlaces - places).toNat) *
          10 ^ Decimal.farPlaces := by
        rw [Nat.pow_add, Nat.pow_add]
        ring

/-- The decimal with `places` digits behind the leading one that is nearest to the magnitude. -/
def roundedDecimal (places : Nat) (x : Double) : Decimal :=
  ⟨x.nearestOn (x.decimalExponent - places), x.decimalExponent - places⟩

/-- The text with an exponent shows a coefficient that has a digit for every place. It is that of
the rounded decimal, or after a carry a power of ten with the exponent one up. -/
theorem exists_exponentialText_eq (places : Nat) {x : Double} (h : x.isZero = false) :
    ∃ n e, x.exponentialText places = String.ofList (x.signText ++ Decimal.exponential
        (List.replicate (places + 1 - (Decimal.digits n).length) '0' ++ Decimal.digits n) e) ∧
      n < 10 ^ (places + 1) ∧ (e = x.decimalExponent ∨ e = x.decimalExponent + 1) ∧
      ∀ negative, (⟨n, e - places⟩ : Decimal).toNumber negative =
        (x.roundedDecimal places).toNumber negative := by
  have hexponent : (if x.isZero then 0 else x.decimalExponent) = x.decimalExponent := by
    rw [h, if_neg Bool.false_ne_true]
  unfold exponentialText
  simp only [hexponent]
  have hle := x.nearestOn_le places
  by_cases hcarry : x.nearestOn (x.decimalExponent - places) = 10 ^ (places + 1)
  · -- a carry makes the coefficient a power of ten, and the exponent grows by one
    simp only [if_pos hcarry]
    refine ⟨_, _, rfl, Nat.pow_lt_pow_right (by decide) (Nat.lt_succ_self _), .inr rfl,
      fun negative => ?_⟩
    have hshift := Decimal.toNumber_shift negative (10 ^ places) 1 (x.decimalExponent + 1 - places)
    rw [← Nat.pow_add, show x.decimalExponent + 1 - (places : Int) - ((1 : Nat) : Int) =
      x.decimalExponent - places by omega] at hshift
    rw [roundedDecimal, hcarry, hshift]
  · simp only [if_neg hcarry]
    exact ⟨_, _, rfl, Nat.lt_of_le_of_ne hle hcarry, .inl rfl, fun _ => rfl⟩

/-- Digits that are filled up with zeros in front have one for every place. -/
theorem length_padded {n places : Nat} (hn : n < 10 ^ (places + 1)) :
    (List.replicate (places + 1 - (Decimal.digits n).length) '0' ++ Decimal.digits n).length =
      places + 1 := by
  have hlength : (Decimal.digits n).length ≤ places + 1 :=
    (Nat.length_toDigits_le_iff (by decide) (Nat.succ_pos _)).2 hn
  rw [List.length_append, List.length_replicate, Nat.sub_add_cancel hlength]

/-- The text with an exponent is a numeral of the rounded decimal. -/
theorem exists_spells_exponentialText (places : Nat) {x : Double} (h : x.isZero = false) :
    ∃ cs d, x.exponentialText places = String.ofList (x.signText ++ cs) ∧ Spells cs d ∧
      ∀ negative, d.toNumber negative = (x.roundedDecimal places).toNumber negative := by
  obtain ⟨n, e, htext, hn, -, hvalue⟩ := exists_exponentialText_eq places h
  have hspells := Decimal.spells_exponential
    (Decimal.isDigit_of_mem_padded (fun c hc => Decimal.isDigit_of_mem_digits hc)
      (places + 1 - (Decimal.digits n).length))
    (List.append_ne_nil_of_right_ne_nil _ (Decimal.digits_ne_nil n)) e
  rw [Decimal.ofDigits_padded, Decimal.ofDigits_digits, length_padded hn,
    Nat.add_sub_cancel] at hspells
  exact ⟨_, _, htext, hspells, hvalue⟩

/-- The decimal exponent of the largest double. -/
def largestPlaces : Nat := 308

/-- No double has a larger decimal exponent than the largest one. -/
theorem decimalExponent_le (x : Double) : x.decimalExponent ≤ largestPlaces := by
  obtain ⟨n, hexponent, -, hge⟩ := x.exists_decimalExponent
  have hbound : largest.units < 10 ^ (largestPlaces + 1) * unitsPerOne := by decide +kernel
  by_cases hn : 0 < n
  · -- a larger exponent would make the magnitude larger than that of the largest double
    have hlt : 10 ^ n * unitsPerOne < 10 ^ (largestPlaces + 1 + Decimal.farPlaces) * unitsPerOne :=
      calc 10 ^ n * unitsPerOne ≤ x.units * 10 ^ Decimal.farPlaces := hge hn
        _ ≤ largest.units * 10 ^ Decimal.farPlaces := Nat.mul_le_mul_right _ x.units_le_largest
        _ < 10 ^ (largestPlaces + 1) * unitsPerOne * 10 ^ Decimal.farPlaces :=
            Nat.mul_lt_mul_of_pos_right hbound (Nat.pow_pos (by decide))
        _ = 10 ^ (largestPlaces + 1 + Decimal.farPlaces) * unitsPerOne := by
            rw [Nat.pow_add]
            ring
    have hpow : 10 ^ n < 10 ^ (largestPlaces + 1 + Decimal.farPlaces) :=
      Nat.lt_of_mul_lt_mul_right hlt
    have := (Nat.pow_lt_pow_iff_right (by decide)).1 hpow
    omega
  · unfold Decimal.farPlaces at hexponent
    omega

/-- The largest double has the seven digits 1797693, and is nearer to them than to the next. -/
theorem nearestOn_largest_le (x : Double) :
    x.nearestOn (largestPlaces - resultPlaces) ≤ 1797693 := by
  have hgrid : x.gridNumerator (largestPlaces - resultPlaces) = x.units := by
    rw [gridNumerator, show (-((largestPlaces : Int) - resultPlaces)).toNat = 0 from rfl,
      Nat.pow_zero, Nat.mul_one]
  have hround := (two_mul_divRound_le (x.gridNumerator (largestPlaces - resultPlaces))
    (gridDenominator_pos (largestPlaces - resultPlaces))).1
  have hbound : 2 * largest.units + gridDenominator (largestPlaces - resultPlaces) <
      2 * (1797694 * gridDenominator (largestPlaces - resultPlaces)) := by decide +kernel
  have hle := x.units_le_largest
  rw [hgrid] at hround
  rw [nearestOn, hgrid]
  refine Nat.le_of_lt_succ (Nat.lt_of_mul_lt_mul_right
    (a := gridDenominator (largestPlaces - resultPlaces)) ?_)
  omega

/-- Seven digits do not leave the range of doubles. Below the decimal exponent of the largest there
is room for a carry; at it the largest double says what the seven digits can be at most. -/
theorem numerator_roundedDecimal_le (x : Double) :
    (x.roundedDecimal resultPlaces).numerator ≤
      largest.units * (x.roundedDecimal resultPlaces).denominator := by
  have hround := x.nearestOn_le resultPlaces
  unfold roundedDecimal Decimal.numerator Decimal.denominator
  simp only
  -- only at the exponent of the largest double a carry could leave the range
  rcases Int.lt_or_eq_of_le x.decimalExponent_le with hlow | htop
  · generalize hgrid : x.decimalExponent - (resultPlaces : Int) = grid at hround ⊢
    have hbound : 10 ^ largestPlaces * unitsPerOne ≤ largest.units := by decide +kernel
    calc x.nearestOn grid * 10 ^ grid.toNat * unitsPerOne
        ≤ 10 ^ (resultPlaces + 1) * 10 ^ grid.toNat * unitsPerOne :=
          Nat.mul_le_mul_right _ (Nat.mul_le_mul_right _ hround)
      _ = 10 ^ (resultPlaces + 1 + grid.toNat) * unitsPerOne := by rw [← Nat.pow_add]
      _ ≤ 10 ^ (largestPlaces + (-grid).toNat) * unitsPerOne := by
          refine Nat.mul_le_mul_right _ (Nat.pow_le_pow_right (by decide) ?_)
          omega
      _ = 10 ^ largestPlaces * unitsPerOne * 10 ^ (-grid).toNat := by
          rw [Nat.pow_add]
          ring
      _ ≤ largest.units * 10 ^ (-grid).toNat := Nat.mul_le_mul_right _ hbound
  · rw [htop]
    have hbound : 1797693 * 10 ^ (largestPlaces - resultPlaces) * unitsPerOne ≤ largest.units := by
      decide +kernel
    have hup : ((largestPlaces : Int) - resultPlaces).toNat = largestPlaces - resultPlaces := rfl
    have hdown : (-((largestPlaces : Int) - resultPlaces)).toNat = 0 := rfl
    rw [hup, hdown, Nat.pow_zero, Nat.mul_one]
    calc x.nearestOn (largestPlaces - resultPlaces) * 10 ^ (largestPlaces - resultPlaces) *
          unitsPerOne
        ≤ 1797693 * 10 ^ (largestPlaces - resultPlaces) * unitsPerOne :=
          Nat.mul_le_mul_right _ (Nat.mul_le_mul_right _ x.nearestOn_largest_le)
      _ ≤ largest.units := hbound

/-- The text with an exponent is read as the double that the rounded decimal stands for. -/
theorem exists_read_exponentialText {x : Double} (h : x.isZero = false) :
    ∃ y, Number.read (x.exponentialText resultPlaces) = .ok y ∧
      (x.roundedDecimal resultPlaces).toNumber x.negative = .finite y := by
  obtain ⟨cs, d, htext, hspells, hvalue⟩ := exists_spells_exponentialText resultPlaces h
  obtain ⟨y, hy⟩ := Number.exists_ofRatio_eq_finite x.negative
    (Decimal.denominator_pos _) largest x.numerator_roundedDecimal_le
  rw [← Decimal.toNumber_eq_ofRatio] at hy
  refine ⟨y, ?_, hy⟩
  rw [htext]
  exact Number.read_ofList_of_spells hspells ((hvalue _).trans hy)

/-- The text of a result is the text of a double. -/
theorem exists_read_resultText (x : Double) : ∃ y, Number.read x.resultText = .ok y := by
  unfold resultText
  simp only
  split
  · exact ⟨_, x.read_canonicalText⟩
  · next hlong =>
    obtain ⟨y, hy, -⟩ := exists_read_exponentialText (isZero_eq_false_of_long hlong)
    exact ⟨y, hy⟩

end Double

end Keypad
