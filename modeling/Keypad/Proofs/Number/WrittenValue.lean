import Keypad.Proofs.Number.DecimalGrid

/-!
# What written numbers are worth

Canonical text is read as the number it was written for. The text of a result may have fewer digits,
and it is then read as the double nearest to the number that they show. The double it was written
for is no nearer to that, and it is within half a unit of the last digit, so the two are within one
unit of the last digit; and with seven digits that is a millionth of the number at most.

* `Double.canonicalText_lossless`    — nothing is lost in canonical text.
* `Double.abs_value_sub_le`          — what is lost by writing so many digits only.
* `Double.length_exponentialText_le` — how long the text of so many digits can be.
* `Double.resultText_close`          — how long the text of a result is, and what is lost in it.
-/

namespace Keypad

namespace Decimal

/-- Exponents of three digits take five characters at most. -/
theorem length_exponentPart_le {e : Int} (h : e.natAbs < 1000) : (exponentPart e).length ≤ 5 := by
  have hdigits : (digits e.natAbs).length ≤ 3 :=
    (Nat.length_toDigits_le_iff (by decide) (by decide)).2 h
  simp only [exponentPart, List.length_cons, List.length_append, List.length_replicate]
  omega

/-- The point is all that stands between digits and exponent. -/
theorem length_exponential_le (ds : List Char) (e : Int) :
    (exponential ds e).length ≤ ds.length + 1 + (exponentPart e).length := by
  unfold exponential
  split
  · simp only [List.length_cons, List.length_append]
    omega
  · rw [List.length_append]
    omega

end Decimal

namespace Double

variable {x : Double}

/-! ## Canonical text -/

theorem value_of_isZero (h : x.isZero = true) : x.value = 0 := by
  have hunits : x.units = 0 := beq_iff_eq.1 h
  rw [← abs_eq_zero, x.abs_value, magnitude, hunits, Nat.cast_zero, zero_div]

/-- The sign of zero is worth nothing. -/
theorem value_unsignedZero (x : Double) : x.unsignedZero.value = x.value := by
  unfold unsignedZero
  split
  · next hzero => rw [value_of_isZero hzero, value_of_isZero rfl]
  · rfl

/-- There are no commas in canonical text. -/
theorem comma_not_mem_canonicalText (x : Double) : ',' ∉ x.canonicalText.toList := by
  obtain ⟨cs, d, htext, hspells, -⟩ := x.exists_spells_canonicalText
  intro hcomma
  rw [htext, String.toList_ofList] at hcomma
  exact (hspells.isNumeralChar_signed _ _ hcomma).ne_comma rfl

/-- Every double has a canonical text. There are no commas in it, and it is read as a double of the
same value. -/
theorem canonicalText_lossless (x : Double) :
    ∃ text, (Number.toDouble (.finite x)).map canonicalText = .ok text ∧ ',' ∉ text.toList ∧
      ∃ y, Number.read text = .ok y ∧ y.value = x.value :=
  ⟨x.canonicalText, rfl, x.comma_not_mem_canonicalText, x.unsignedZero, x.read_canonicalText,
    x.value_unsignedZero⟩

/-! ## Results -/

/-- What a rounded decimal is read as is within a unit of its last place: it is no farther from the
decimal than the number itself. -/
theorem abs_value_sub_le {places : ℕ} {y : Double} (h : x.isZero = false)
    (hy : (x.roundedDecimal places).toNumber x.negative = .finite y) :
    |y.value - x.value| ≤ |x.value| / 10 ^ places := by
  have hrounded := abs_roundedDecimal_sub_le places h
  have hnearest := Decimal.toNumber_nearest hy x
  -- the rounded decimal has the sign of the number, so that only magnitudes count
  have hsigned : |signed x.negative (x.roundedDecimal places).value - x.value| =
      |(x.roundedDecimal places).value - x.magnitude| := by
    rw [x.value_eq_signed, abs_signed_sub]
  have htriangle := abs_sub_le y.value (signed x.negative (x.roundedDecimal places).value) x.value
  rw [abs_sub_comm x.value] at hnearest
  rw [x.abs_value]
  linarith

/-- No double has a decimal exponent below that of the finest grid. -/
theorem neg_farPlaces_le_decimalExponent (x : Double) :
    -(Decimal.farPlaces : Int) ≤ x.decimalExponent := by
  obtain ⟨n, hexponent, -⟩ := x.exists_decimalExponent
  omega

/-- A sign, the digits with a point among them, and an exponent. -/
theorem length_exponentialText_le (places : Nat) (h : x.isZero = false) :
    (x.exponentialText places).length ≤ places + 8 := by
  obtain ⟨n, e, htext, hn, he, -⟩ := exists_exponentialText_eq places h
  have hexponent : e.natAbs < 1000 := by
    have hlow := x.neg_farPlaces_le_decimalExponent
    have hhigh := x.decimalExponent_le
    unfold Decimal.farPlaces at hlow
    unfold largestPlaces at hhigh
    omega
  have hsign : x.signText.length ≤ 1 := by
    unfold signText
    split <;> simp
  have hdigits := Decimal.length_exponential_le
    (List.replicate (places + 1 - (Decimal.digits n).length) '0' ++ Decimal.digits n) e
  have hpart := Decimal.length_exponentPart_le hexponent
  rw [length_padded hn] at hdigits
  rw [htext, String.length_ofList, List.length_append]
  omega

/-- What is within a millionth of a number is zero if that is, and of the same sign. -/
theorem sign_of_abs_sub_le {p q : ℚ} (h : |p - q| ≤ |q| / 1000000) :
    (p = 0 ↔ q = 0) ∧ (p < 0 ↔ q < 0) := by
  obtain ⟨hlow, hhigh⟩ := abs_le.1 h
  rcases lt_trichotomy q 0 with hq | hq | hq
  · rw [abs_of_neg hq] at hlow hhigh
    have hp : p < 0 := by linarith
    exact ⟨iff_of_false hp.ne hq.ne, iff_of_true hp hq⟩
  · rw [hq, abs_zero] at hlow hhigh
    have hp : p = 0 := by linarith
    exact ⟨iff_of_true hp hq, iff_of_false hp.not_lt hq.not_lt⟩
  · rw [abs_of_pos hq] at hlow hhigh
    have hp : 0 < p := by linarith
    exact ⟨iff_of_false hp.ne' hq.ne', iff_of_false hp.not_gt hq.not_gt⟩

/-- Every double has a result text, of fourteen characters at most. It is read as a double within a
millionth of the number, zero exactly for zero and of the same sign, and as the number itself if its
canonical text has twelve characters at most. -/
theorem resultText_close (x : Double) :
    ∃ text, (Number.toDouble (.finite x)).map resultText = .ok text ∧ text.length ≤ 14 ∧
      ∃ y, Number.read text = .ok y ∧ |y.value - x.value| ≤ |x.value| / 1000000 ∧
        (y.value = 0 ↔ x.value = 0) ∧ (y.value < 0 ↔ x.value < 0) ∧
        (x.canonicalText.length ≤ 12 → y.value = x.value) := by
  refine ⟨x.resultText, rfl, ?_⟩
  unfold resultText
  simp only
  -- a short canonical text is shown as it is, and a longer one is rounded
  by_cases hshort : x.canonicalText.length ≤ resultWidth
  · rw [if_pos hshort]
    have herror : |x.unsignedZero.value - x.value| ≤ |x.value| / 1000000 := by
      rw [value_unsignedZero, sub_self, abs_zero]
      positivity
    obtain ⟨hzero, hnegative⟩ := sign_of_abs_sub_le herror
    exact ⟨by unfold resultWidth at hshort; omega, x.unsignedZero, x.read_canonicalText, herror,
      hzero, hnegative, fun _ => x.value_unsignedZero⟩
  · rw [if_neg hshort]
    have hx := isZero_eq_false_of_long hshort
    obtain ⟨y, hread, hy⟩ := exists_read_exponentialText hx
    have hmillion : (10 : ℚ) ^ resultPlaces = 1000000 := by
      rw [resultPlaces]
      norm_num
    have herror := abs_value_sub_le hx hy
    rw [hmillion] at herror
    obtain ⟨hzero, hnegative⟩ := sign_of_abs_sub_le herror
    exact ⟨length_exponentialText_le resultPlaces hx, y, hread, herror, hzero, hnegative,
      fun h => absurd h hshort⟩

end Double

end Keypad
