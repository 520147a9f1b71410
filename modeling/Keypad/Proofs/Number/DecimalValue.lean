import Keypad.Number.Numeral
import Mathlib.Tactic.Ring

/-!
# The value of a decimal

Which double a decimal stands for depends on its value only, not on how its digits are divided
between coefficient and exponent, and it does not leave the range of doubles before its value does.

* `roundUnits_mul` — a quotient is rounded in the same way whatever it is scaled by.
* `Decimal.toNumber_shift` — zeros at the end of the coefficient change nothing.
* `roundUnits_le` — rounding does not pass a count that fits.
-/

namespace Keypad

/-! ## Rounding a quotient -/

/-- Rounding only looks at the quotient. -/
theorem divRound_mul {k : Nat} (hk : 0 < k) (num den : Nat) :
    divRound (k * num) (k * den) = divRound num den := by
  have hlt : ∀ a b : Nat, k * a < k * b ↔ a < b := fun a b => Nat.mul_lt_mul_left hk
  unfold divRound
  simp only [Nat.mul_div_mul_left _ _ hk, Nat.mul_mod_mul_left, Nat.mul_left_comm 2 k, hlt]

/-- A quotient is rounded to the same count whatever it is scaled by. -/
theorem roundUnits_mul {k : Nat} (hk : 0 < k) (num den : Nat) :
    roundUnits (k * num) (k * den) = roundUnits num den := by
  unfold roundUnits
  simp only [Nat.mul_div_mul_left _ _ hk, Nat.mul_assoc, divRound_mul hk]

/-- Quotients that are equal are rounded to the same count. -/
theorem roundUnits_congr {num den num' den' : Nat} (hden : 0 < den) (hden' : 0 < den')
    (h : num * den' = num' * den) : roundUnits num den = roundUnits num' den' := by
  rw [← roundUnits_mul hden' num den, Nat.mul_comm den' num, h, Nat.mul_comm den' den,
    Nat.mul_comm num' den, roundUnits_mul hden]

/-- Quotients that are equal stand for the same number. -/
theorem Number.ofRatio_congr (negative : Bool) {num den num' den' : Nat} (hden : 0 < den)
    (hden' : 0 < den') (h : num * den' = num' * den) :
    Number.ofRatio negative num den = Number.ofRatio negative num' den' := by
  unfold Number.ofRatio
  simp only [roundUnits_congr hden hden' h]

/-- A larger count has at least as many excess bits. -/
theorem excessBits_mono {m n : Nat} (h : m ≤ n) : excessBits m ≤ excessBits n := by
  unfold excessBits
  by_cases hm : m = 0
  · rw [hm, Nat.log2_zero]
    omega
  · have hlog : m.log2 ≤ n.log2 := by
      rw [Nat.le_log2 (by omega)]
      exact Nat.le_trans (Nat.log2_self_le hm) h
    omega

/-- All 53 bits are set in the largest count that fits at a height. -/
theorem le_pred_mul_two_pow_excessBits {m : Nat} (h : 2 ^ excessBits m ∣ m) :
    m ≤ (2 ^ (53 : Nat) - 1) * 2 ^ excessBits m :=
  calc m = m / 2 ^ excessBits m * 2 ^ excessBits m := (Nat.div_mul_cancel h).symm
    _ ≤ (2 ^ (53 : Nat) - 1) * 2 ^ excessBits m :=
        Nat.mul_le_mul_right _ (Nat.le_sub_one_of_lt (div_pow_excessBits_lt m))

/-- A quotient that is at most an integer is rounded to at most that integer. -/
theorem divRound_le {num den bound : Nat} (hden : 0 < den) (h : num ≤ bound * den) :
    divRound num den ≤ bound := by
  rcases Nat.lt_or_ge (num / den) bound with hlt | hge
  · exact Nat.le_trans (divRound_le_succ_div num den) hlt
  · have heq : num = bound * den :=
      Nat.le_antisymm h ((Nat.le_div_iff_mul_le hden).1 hge)
    rw [heq, divRound_mul_self bound hden]

/-- A quotient that is at most a count that fits is rounded to at most that count. -/
theorem roundUnits_le {num den bound : Nat} (hden : 0 < den) (hfits : 2 ^ excessBits bound ∣ bound)
    (h : num ≤ bound * den) : roundUnits num den ≤ bound := by
  have hquot : num / den ≤ bound := by
    rw [Nat.div_le_iff_le_mul hden]
    omega
  -- the bits that are dropped from the quotient are zero in the bound as well
  obtain ⟨m, hm⟩ : 2 ^ excessBits (num / den) ∣ bound :=
    (Nat.pow_dvd_pow 2 (excessBits_mono hquot)).trans hfits
  have hround : divRound num (den * 2 ^ excessBits (num / den)) ≤ m := by
    refine divRound_le (Nat.mul_pos hden (Nat.two_pow_pos _)) ?_
    calc num ≤ bound * den := h
      _ = m * (den * 2 ^ excessBits (num / den)) := by
        conv =>
          lhs
          rw [hm]
        ring
  unfold roundUnits
  calc divRound num (den * 2 ^ excessBits (num / den)) * 2 ^ excessBits (num / den)
      ≤ m * 2 ^ excessBits (num / den) := Nat.mul_le_mul_right _ hround
    _ = bound := by
      rw [Nat.mul_comm]
      exact hm.symm

/-- A quotient that a double reaches is the quotient of a double. -/
theorem Number.exists_ofRatio_eq_finite (negative : Bool) {num den : Nat} (hden : 0 < den)
    (largest : Double) (h : num ≤ largest.units * den) :
    ∃ x, Number.ofRatio negative num den = .finite x := by
  have hle := roundUnits_le hden largest.representable.2 h
  exact ⟨_, dif_pos (Nat.lt_of_le_of_lt hle largest.representable.1)⟩

/-! ## Decimals of one value -/

namespace Decimal

theorem denominator_pos (d : Decimal) : 0 < d.denominator := Nat.pow_pos (by decide)

/-- Decimals of one value stand for the same number. -/
theorem toNumber_congr {d d' : Decimal}
    (h : d.numerator * d'.denominator = d'.numerator * d.denominator) (negative : Bool) :
    d.toNumber negative = d'.toNumber negative := by
  rw [toNumber_eq_ofRatio, toNumber_eq_ofRatio]
  exact Number.ofRatio_congr negative d.denominator_pos d'.denominator_pos h

/-- Zeros at the end of the coefficient can go to the exponent. -/
theorem toNumber_shift (negative : Bool) (c k : Nat) (e : Int) :
    (⟨c * 10 ^ k, e - k⟩ : Decimal).toNumber negative = (⟨c, e⟩ : Decimal).toNumber negative := by
  refine toNumber_congr ?_ negative
  simp only [numerator, denominator]
  calc c * 10 ^ k * 10 ^ (e - k).toNat * unitsPerOne * 10 ^ (-e).toNat
      = c * unitsPerOne * 10 ^ (k + (e - k).toNat + (-e).toNat) := by
        rw [Nat.pow_add, Nat.pow_add]
        ring
    _ = c * unitsPerOne * 10 ^ (e.toNat + (-(e - k)).toNat) := by
        congr 2
        omega
    _ = c * 10 ^ e.toNat * unitsPerOne * 10 ^ (-(e - k)).toNat := by
        rw [Nat.pow_add]
        ring

end Decimal

/-! ## The number that digits write -/

namespace Numeral

/-- Digits behind a number shift it to the left by their places. -/
theorem foldl_digits (ds : List Nat) (n : Nat) :
    ds.foldl (fun n d => 10 * n + d) n = n * 10 ^ ds.length + ofDigits ds := by
  induction ds generalizing n with
  | nil => simp [ofDigits]
  | cons d ds ih =>
    have hcons : ofDigits (d :: ds) = d * 10 ^ ds.length + ofDigits ds := by
      rw [ofDigits, List.foldl_cons, ih, Nat.mul_zero, Nat.zero_add]
    rw [List.foldl_cons, ih, hcons, List.length_cons]
    ring

/-- Digits behind digits shift them to the left. -/
theorem ofDigits_append (ds es : List Nat) :
    ofDigits (ds ++ es) = ofDigits ds * 10 ^ es.length + ofDigits es := by
  rw [ofDigits, List.foldl_append, foldl_digits]
  rfl

theorem ofDigits_zero_cons (ds : List Nat) : ofDigits (0 :: ds) = ofDigits ds := rfl

/-- Zeros in front of digits add nothing. -/
theorem ofDigits_replicate_zero_append (k : Nat) (ds : List Nat) :
    ofDigits (List.replicate k 0 ++ ds) = ofDigits ds := by
  induction k with
  | zero => rfl
  | succ k ih => rw [List.replicate_succ, List.cons_append, ofDigits_zero_cons, ih]

/-- Zeros behind digits multiply by a power of ten. -/
theorem ofDigits_append_replicate_zero (ds : List Nat) (k : Nat) :
    ofDigits (ds ++ List.replicate k 0) = ofDigits ds * 10 ^ k := by
  have hzero : ofDigits (List.replicate k 0) = 0 := by
    have := ofDigits_replicate_zero_append k []
    rwa [List.append_nil] at this
  rw [ofDigits_append, hzero, List.length_replicate, Nat.add_zero]

/-- The digits of a natural number write it. -/
theorem ofDigits_toDigits (n : Nat) :
    ofDigits ((Nat.toDigits 10 n).map fun c => c.toNat - 48) = n := by
  rw [ofDigits, List.foldl_map]
  exact Nat.ofDigitChars_ten_toDigits

end Numeral

end Keypad
