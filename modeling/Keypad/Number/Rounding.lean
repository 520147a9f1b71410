/-!
# Rounding to 53 significant bits

Magnitudes are counted in units of 2⁻¹⁰⁷⁴, the smallest positive double. A count is a double's
magnitude when 53 bits of significand hold it and it lies below 2²⁰⁹⁸ units (`Representable`).
`divRound` rounds a quotient to the nearest integer and `roundUnits` rounds it to the nearest count
whose significand fits, both with ties to the even neighbour. The main statement is
`pow_excessBits_dvd_roundUnits`: what `roundUnits` gives always fits.
-/

namespace Keypad

/-- Powers of integers are those of the language, whichever other instances are in scope. -/
instance (priority := 2000) instPow {α : Type} [NatPow α] : Pow α Nat := instPowNat

/-- The integer nearest to `num / den`, a half going to the even neighbour. -/
def divRound (num den : Nat) : Nat :=
  let q := num / den
  let r := num % den
  if 2 * r < den then q else if den < 2 * r then q + 1 else q + q % 2

/-- Rounding does not fall short of rounding down. -/
theorem div_le_divRound (num den : Nat) : num / den ≤ divRound num den := by
  unfold divRound
  dsimp only
  split
  · exact Nat.le_refl _
  · split <;> omega

/-- Nor does it go further than rounding up. -/
theorem divRound_le_succ_div (num den : Nat) : divRound num den ≤ num / den + 1 := by
  unfold divRound
  dsimp only
  split
  · omega
  · split <;> omega

/-- The rounded quotient is within half a unit of the true one. -/
theorem two_mul_divRound_le (num : Nat) {den : Nat} (h : 0 < den) :
    2 * (divRound num den * den) ≤ 2 * num + den ∧
      2 * num ≤ 2 * (divRound num den * den) + den := by
  have hdm := Nat.div_add_mod num den
  have hlt := Nat.mod_lt num h
  rw [Nat.mul_comm] at hdm
  unfold divRound
  dsimp only
  split
  · omega
  · split
    · rw [Nat.add_mul]
      omega
    · rcases Nat.mod_two_eq_zero_or_one (num / den) with h0 | h1
      · rw [h0, Nat.add_zero]
        omega
      · rw [h1, Nat.add_mul]
        omega

/-- An integer quotient is its own rounding. -/
theorem divRound_mul_self (n : Nat) {den : Nat} (h : 0 < den) : divRound (n * den) den = n := by
  unfold divRound
  dsimp only
  rw [Nat.mul_mod_left, Nat.mul_div_cancel n h, if_pos (by omega)]

/-- How many low bits of `n` a significand of 53 bits cannot hold. -/
def excessBits (n : Nat) : Nat := n.log2 - 52

/-- The count of units stays below two to this many bits; from there on magnitudes are infinite. -/
def limitBits : Nat := 2098

/-- The counts of units that are the magnitude of a double. -/
def Representable (n : Nat) : Prop := n < 2 ^ limitBits ∧ 2 ^ excessBits n ∣ n

instance (n : Nat) : Decidable (Representable n) :=
  inferInstanceAs (Decidable (n < 2 ^ limitBits ∧ 2 ^ excessBits n ∣ n))

/-- The count nearest to `num / den` whose significand fits 53 bits. -/
def roundUnits (num den : Nat) : Nat :=
  let s := excessBits (num / den)
  divRound num (den * 2 ^ s) * 2 ^ s

/-- Below 2⁵³ every count fits, and 2⁵³ itself does. -/
theorem pow_excessBits_dvd_of_le {m : Nat} (h : m ≤ 2 ^ (53 : Nat)) : 2 ^ excessBits m ∣ m := by
  rcases Nat.lt_or_eq_of_le h with hlt | rfl
  · by_cases h0 : m = 0
    · simp [h0]
    · have hlog : m.log2 < 53 := (Nat.log2_lt h0).2 hlt
      have : excessBits m = 0 := by unfold excessBits; omega
      simp [this]
  · decide

/-- A significand that fits still fits when it is shifted. -/
theorem pow_excessBits_dvd_shift {m : Nat} (s : Nat) (h : 2 ^ excessBits m ∣ m)
    (hs : s = 0 ∨ 52 ≤ m.log2) : 2 ^ excessBits (m * 2 ^ s) ∣ m * 2 ^ s := by
  rcases hs with rfl | hm
  · simpa using h
  · have h0 : m ≠ 0 := by
      rintro rfl
      simp at hm
    have hlog : (m * 2 ^ s).log2 = m.log2 + s := by
      rw [Nat.log2_eq_iff (Nat.mul_ne_zero h0 (Nat.ne_of_gt (Nat.two_pow_pos s)))]
      have h1 := Nat.log2_self_le h0
      have h2 := @Nat.lt_log2_self m
      constructor
      · rw [Nat.pow_add]
        exact Nat.mul_le_mul_right _ h1
      · rw [show m.log2 + s + 1 = m.log2 + 1 + s by omega, Nat.pow_add]
        exact Nat.mul_lt_mul_of_pos_right h2 (Nat.two_pow_pos s)
    have : excessBits (m * 2 ^ s) = excessBits m + s := by
      unfold excessBits
      omega
    rw [this, Nat.pow_add]
    exact Nat.mul_dvd_mul_right h _

/-- What is left after the excess bits are dropped has at most 53 bits. -/
theorem div_pow_excessBits_lt (q : Nat) : q / 2 ^ excessBits q < 2 ^ (53 : Nat) := by
  rw [Nat.div_lt_iff_lt_mul (Nat.two_pow_pos _), ← Nat.pow_add]
  refine Nat.lt_of_lt_of_le (@Nat.lt_log2_self q) (Nat.pow_le_pow_right (by decide) ?_)
  unfold excessBits
  omega

/-- Where bits are dropped, 53 bits are left. -/
theorem le_div_pow_excessBits {q : Nat} (h : excessBits q ≠ 0) :
    2 ^ (52 : Nat) ≤ q / 2 ^ excessBits q := by
  have hlog : 52 < q.log2 := by
    unfold excessBits at h
    omega
  have h0 : q ≠ 0 := by
    rintro rfl
    simp at hlog
  rw [Nat.le_div_iff_mul_le (Nat.two_pow_pos _), ← Nat.pow_add]
  refine Nat.le_trans (Nat.pow_le_pow_right (by decide) ?_) (Nat.log2_self_le h0)
  unfold excessBits
  omega

/-- Rounding gives a significand that fits. -/
theorem pow_excessBits_dvd_roundUnits (num den : Nat) :
    2 ^ excessBits (roundUnits num den) ∣ roundUnits num den := by
  have hdiv : num / (den * 2 ^ excessBits (num / den)) =
      num / den / 2 ^ excessBits (num / den) := (Nat.div_div_eq_div_mul ..).symm
  have hle := divRound_le_succ_div num (den * 2 ^ excessBits (num / den))
  have hge := div_le_divRound num (den * 2 ^ excessBits (num / den))
  rw [hdiv] at hle hge
  have hlt := div_pow_excessBits_lt (num / den)
  refine pow_excessBits_dvd_shift _ (pow_excessBits_dvd_of_le (by omega)) ?_
  by_cases hs : excessBits (num / den) = 0
  · exact Or.inl hs
  · have h52 := Nat.le_trans (le_div_pow_excessBits hs) hge
    right
    rw [Nat.le_log2]
    · exact h52
    · intro h0
      rw [h0] at h52
      exact absurd h52 (by decide)

/-- Less than half a unit is rounded to nothing. -/
theorem roundUnits_of_lt {num den : Nat} (h : 2 * num < den) : roundUnits num den = 0 := by
  have hdiv : num / den = 0 := Nat.div_eq_of_lt (by omega)
  have hexcess : excessBits (num / den) = 0 := by
    rw [hdiv]
    rfl
  unfold roundUnits
  dsimp only
  rw [hexcess, Nat.pow_zero, Nat.mul_one, Nat.mul_one]
  unfold divRound
  dsimp only
  rw [Nat.mod_eq_of_lt (by omega), if_pos h, hdiv]

/-- Rounding does not go below a power of two that the quotient reaches. -/
theorem two_pow_le_roundUnits {num den k : Nat} (h : 2 ^ k ≤ num / den) :
    2 ^ k ≤ roundUnits num den := by
  have hdiv : num / (den * 2 ^ excessBits (num / den)) =
      num / den / 2 ^ excessBits (num / den) := (Nat.div_div_eq_div_mul ..).symm
  have hge := div_le_divRound num (den * 2 ^ excessBits (num / den))
  rw [hdiv] at hge
  unfold roundUnits
  dsimp only
  -- the power is on the grid of the quotient, or below its lower end
  rcases Nat.le_total (excessBits (num / den)) k with hle | hle
  · have hpow : 2 ^ (k - excessBits (num / den)) ≤ num / den / 2 ^ excessBits (num / den) := by
      rw [Nat.le_div_iff_mul_le (Nat.two_pow_pos _), ← Nat.pow_add, Nat.sub_add_cancel hle]
      exact h
    calc 2 ^ k = 2 ^ (k - excessBits (num / den)) * 2 ^ excessBits (num / den) := by
          rw [← Nat.pow_add, Nat.sub_add_cancel hle]
      _ ≤ _ := Nat.mul_le_mul_right _ (Nat.le_trans hpow hge)
  · have hone : 1 ≤ num / den / 2 ^ excessBits (num / den) := by
      by_cases h0 : excessBits (num / den) = 0
      · rw [h0, Nat.pow_zero, Nat.div_one]
        exact Nat.le_trans (Nat.one_le_two_pow) h
      · exact Nat.le_trans (by decide) (le_div_pow_excessBits h0)
    calc 2 ^ k ≤ 1 * 2 ^ excessBits (num / den) := by
          rw [Nat.one_mul]
          exact Nat.pow_le_pow_right (by decide) hle
      _ ≤ _ := Nat.mul_le_mul_right _ (Nat.le_trans hone hge)

/-- A count that fits is its own rounding. -/
theorem roundUnits_of_dvd {n : Nat} (h : 2 ^ excessBits n ∣ n) : roundUnits n 1 = n := by
  obtain ⟨k, hk⟩ := h
  unfold roundUnits
  dsimp only
  rw [Nat.div_one, Nat.one_mul]
  have hround : divRound n (2 ^ excessBits n) = k := by
    conv =>
      lhs
      arg 1
      rw [hk, Nat.mul_comm]
    exact divRound_mul_self k (Nat.two_pow_pos _)
  rw [hround, Nat.mul_comm]
  exact hk.symm

end Keypad
