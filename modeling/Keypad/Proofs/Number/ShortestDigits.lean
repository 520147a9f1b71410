import Keypad.Proofs.Number.DecimalGrid

/-!
# The shortest digits that read back

The decimals that are read as a double form an interval around it. So a grid that holds any of them
holds one of the two neighbours of the double, which are the points that are tried. The grids above
those that are searched hold none, since their points are ten times the double at least. The finest
one searched does: with seventeen digits the rounded decimal is closer to the double than the middle
between it and any other.

* `Double.readsFrom_roundedDecimal`  — seventeen digits are read as the double they were cut from.
* `Double.exponent_le_shortest`      — no coarser grid holds a decimal that is read as the double.
* `Double.length_digits_shortest_le` — no decimal with fewer digits is.
* `Double.shortest_nearest`          — and none on the same grid is nearer.
-/

namespace Keypad

/-! ## Counts that fit are apart -/

/-- Two counts that fit differ by what 53 bits of the larger one can tell, at least. -/
theorem add_two_pow_mul_le {m n : ℕ} (hm : 2 ^ excessBits m ∣ m) (hn : 2 ^ excessBits n ∣ n)
    (h : m < n) : n + 2 ^ (53 : ℕ) * m ≤ 2 ^ (53 : ℕ) * n := by
  by_cases hfar : 2 ^ (53 : ℕ) * 2 ^ excessBits m ≤ n
  · -- the larger one reaches a power of two that the smaller one is short of
    have hlast := le_pred_mul_two_pow_excessBits hm
    generalize 2 ^ excessBits m = weight at hlast hfar
    omega
  · -- both are multiples of the weight of the last bit of the smaller one
    have hdvd : 2 ^ excessBits m ∣ n - m :=
      Nat.dvd_sub ((Nat.pow_dvd_pow 2 (excessBits_mono h.le)).trans hn) hm
    have hweight := Nat.le_of_dvd (Nat.sub_pos_of_lt h) hdvd
    omega

/-- A count that fits and is nearer to another one than that is the same. -/
theorem eq_of_abs_sub_lt {m n : ℕ} (hm : 2 ^ excessBits m ∣ m) (hn : 2 ^ excessBits n ∣ n)
    (h : 2 ^ (53 : ℕ) * |(m : ℚ) - n| < n) : m = n := by
  have hlow := neg_abs_le ((m : ℚ) - n)
  have hhigh := le_abs_self ((m : ℚ) - n)
  rcases Nat.lt_trichotomy m n with hlt | heq | hgt
  · have hgap : (n : ℚ) + 2 ^ (53 : ℕ) * m ≤ 2 ^ (53 : ℕ) * n := by
      exact_mod_cast add_two_pow_mul_le hm hn hlt
    linarith
  · exact heq
  · have hgap : (m : ℚ) + 2 ^ (53 : ℕ) * n ≤ 2 ^ (53 : ℕ) * m := by
      exact_mod_cast add_two_pow_mul_le hn hm hgt
    have hlt : (n : ℚ) < m := by exact_mod_cast hgt
    linarith

/-! ## The interval of a double -/

namespace Decimal

variable {d d' : Decimal}

/-- Reading keeps the order of decimals. -/
theorem roundUnits_le_of_value_le (h : d.value ≤ d'.value) :
    roundUnits d.numerator d.denominator ≤ roundUnits d'.numerator d'.denominator := by
  refine roundUnits_mono d.denominator_pos d'.denominator_pos ?_
  rw [d.numerator_div_denominator, d'.numerator_div_denominator]
  exact mul_le_mul_of_nonneg_right h (Nat.cast_nonneg _)

end Decimal

namespace Double

variable {x : Double} {d : Decimal} {c : ℕ} {e : ℤ}

/-- A decimal is read as a double if it is rounded to the same count of units. -/
theorem readsFrom_iff :
    x.readsFrom d = true ↔ roundUnits d.numerator d.denominator = x.units := by
  rw [readsFrom, beq_iff_eq, Decimal.toNumber_eq_ofRatio]
  constructor
  · intro h
    exact (Number.of_ofRatio_eq_finite h).2.symm
  · intro h
    unfold Number.ofRatio
    rw [dif_pos (by rw [h]; exact x.representable.1)]
    simp only [h]

/-- Between two decimals that are read as a double every decimal is. -/
theorem readsFrom_of_between {low high : Decimal} (hlow : x.readsFrom low = true)
    (hhigh : x.readsFrom high = true) (hle : low.value ≤ d.value) (hge : d.value ≤ high.value) :
    x.readsFrom d = true := by
  rw [readsFrom_iff] at *
  have hfrom := Decimal.roundUnits_le_of_value_le hle
  have hto := Decimal.roundUnits_le_of_value_le hge
  omega

/-- The magnitude written in full is worth just that. -/
theorem value_exactDecimal (x : Double) : x.exactDecimal.value = x.magnitude := by
  have hfive : (5 : ℚ) ^ scaleBits ≠ 0 := by positivity
  have hunit : (unitsPerOne : ℚ) = 2 ^ scaleBits := by
    unfold unitsPerOne
    push_cast
    rfl
  unfold exactDecimal Decimal.value magnitude
  rw [hunit, zpow_neg, zpow_natCast, show (10 : ℚ) = 2 * 5 by norm_num, mul_pow]
  push_cast
  field_simp

/-- The coefficient of a decimal that is read as a number other than zero is not zero. -/
theorem coefficient_pos (h : x.isZero = false) (hd : x.readsFrom d = true) :
    0 < d.coefficient := by
  by_contra hzero
  have hnumerator : d.numerator = 0 := by
    rw [Decimal.numerator, Nat.eq_zero_of_not_pos hzero, Nat.zero_mul, Nat.zero_mul]
  have hunits := units_pos h
  rw [readsFrom_iff, hnumerator, roundUnits_of_lt (by simpa using d.denominator_pos)] at hd
  omega

/-! ## Neighbours on a grid -/

/-- If a point of a grid up to the magnitude is read as the double, its lower neighbour is. -/
theorem readsFrom_floorOn (h : x.readsFrom ⟨c, e⟩ = true) (hc : c ≤ x.floorOn e) :
    x.readsFrom ⟨x.floorOn e, e⟩ = true := by
  refine readsFrom_of_between h x.readsFrom_exactDecimal (Decimal.value_le hc le_rfl) ?_
  rw [x.value_exactDecimal]
  exact (x.magnitude_between e).1

/-- If one above it is, its upper neighbour is. -/
theorem readsFrom_floorOn_succ (h : x.readsFrom ⟨c, e⟩ = true) (hc : x.floorOn e < c) :
    x.readsFrom ⟨x.floorOn e + 1, e⟩ = true := by
  refine readsFrom_of_between x.readsFrom_exactDecimal h ?_ (Decimal.value_le hc le_rfl)
  rw [x.value_exactDecimal]
  exact (x.magnitude_between e).2

/-- A grid that holds a decimal that is read as the double has a point that is found. -/
theorem pointOn?_isSome (h : x.readsFrom ⟨c, e⟩ = true) : (x.pointOn? e).isSome = true := by
  rw [pointOn?, List.find?_isSome]
  rcases Nat.lt_or_ge (x.floorOn e) c with hlt | hge
  · exact ⟨_, by simp, readsFrom_floorOn_succ h hlt⟩
  · exact ⟨_, by simp, readsFrom_floorOn h hge⟩

/-! ## The grids that are searched -/

/-- Seventeen digits are read as the double that they were rounded from. -/
theorem readsFrom_roundedDecimal (h : x.isZero = false) :
    x.readsFrom (x.roundedDecimal 16) = true := by
  have hunits : (0 : ℚ) < x.units := by exact_mod_cast units_pos h
  have hrounded := abs_roundedDecimal_sub_le 16 h
  generalize x.roundedDecimal 16 = d at hrounded
  -- what the digits are read as is no farther from them than the double
  have hnearest := roundUnits_nearest d.numerator d.denominator_pos x.representable.2
  have hclose : |(x.units : ℚ) - d.numerator / d.denominator| ≤ x.units / 10 ^ 16 / 2 := by
    rw [x.abs_units_sub, abs_sub_comm, ← le_div_iff₀ unitsPerOne_cast_pos, div_right_comm,
      div_right_comm _ _ (unitsPerOne : ℚ), ← magnitude]
    exact hrounded
  have htriangle := abs_sub_le (roundUnits d.numerator d.denominator : ℚ)
    (d.numerator / d.denominator) x.units
  rw [abs_sub_comm (d.numerator / d.denominator : ℚ)] at htriangle
  rw [readsFrom_iff]
  refine eq_of_abs_sub_lt (pow_excessBits_dvd_roundUnits _ _) x.representable.2 ?_
  linarith

/-- A decimal of twice the magnitude is read as a larger number. -/
theorem not_readsFrom_of_two_mul_le (h : x.isZero = false) (hd : 2 * x.magnitude ≤ d.value) :
    ¬x.readsFrom d = true := by
  rw [readsFrom_iff]
  have hden : (0 : ℚ) < d.denominator := by exact_mod_cast d.denominator_pos
  have htwice : 2 * (x.units : ℚ) ≤ d.numerator / d.denominator := by
    rw [d.numerator_div_denominator, ← div_le_iff₀ unitsPerOne_cast_pos, mul_div_assoc]
    exact hd
  have hquot : 2 * x.units ≤ d.numerator / d.denominator := by
    rw [Nat.le_div_iff_mul_le d.denominator_pos]
    rw [le_div_iff₀ hden] at htwice
    exact_mod_cast htwice
  -- between the two there is a power of two, which the rounding does not pass
  have hpow : 2 ^ (x.units.log2 + 1) ≤ 2 * x.units := by
    have := Nat.log2_self_le (units_pos h).ne'
    rw [Nat.pow_succ]
    omega
  have hround := two_pow_le_roundUnits (hpow.trans hquot)
  have hlog := @Nat.lt_log2_self x.units
  omega

/-- No grid above the place before the leading digit holds a decimal that is read as the double. -/
theorem exponent_le_of_readsFrom (h : x.isZero = false) (hd : x.readsFrom d = true) :
    d.exponent ≤ x.decimalExponent + 1 := by
  by_contra hlarge
  refine not_readsFrom_of_two_mul_le h ?_ hd
  have hplace : x.decimalExponent + 1 + (1 : ℕ) ≤ d.exponent := by omega
  have hlead := x.magnitude_lt_ten_zpow
  have hpower : (⟨1, x.decimalExponent + 1 + (1 : ℕ)⟩ : Decimal).value ≤ d.value :=
    Decimal.value_le (coefficient_pos h hd) hplace
  have hten : (10 : ℚ) ^ (x.decimalExponent + 1 + (1 : ℕ)) =
      10 * 10 ^ (x.decimalExponent + 1) := by
    rw [zpow_add₀ (by norm_num), zpow_natCast, pow_one, mul_comm]
  rw [Decimal.value_one, hten] at hpower
  have hnonneg := x.magnitude_nonneg
  linarith

/-- The search passes no grid that holds a point, and ends with the point of a grid. -/
theorem searchFrom_spec {n : ℕ} {top : ℤ} (hpoint : (x.pointOn? e).isSome = true)
    (hle : e ≤ top) (hlt : top < e + n) :
    e ≤ (x.searchFrom n top).exponent ∧
      x.pointOn? (x.searchFrom n top).exponent = some (x.searchFrom n top) := by
  induction n generalizing top with
  | zero => omega
  | succ n ih =>
    rw [searchFrom]
    cases hfound : x.pointOn? top with
    | some d =>
      rw [Option.getD_some, exponent_of_pointOn? hfound]
      exact ⟨hle, hfound⟩
    | none =>
      have hne : e ≠ top := by
        rintro rfl
        rw [hfound] at hpoint
        cases hpoint
      exact ih (by omega) (by omega)

/-- The shortest decimal is the point found on its grid, and no grid that is searched and holds a
point is coarser. -/
theorem shortest_spec (h : x.isZero = false) (hpoint : (x.pointOn? e).isSome = true)
    (hlow : x.decimalExponent - 16 ≤ e) (hhigh : e ≤ x.decimalExponent + 1) :
    e ≤ x.shortest.exponent ∧ x.pointOn? x.shortest.exponent = some x.shortest := by
  rw [shortest, if_neg (by rw [h]; exact Bool.false_ne_true)]
  exact searchFrom_spec hpoint hhigh (by omega)

/-- The finest grid holds one. -/
theorem finest_isSome (h : x.isZero = false) :
    (x.pointOn? (x.decimalExponent - 16)).isSome = true :=
  pointOn?_isSome (readsFrom_roundedDecimal h)

/-! ## The shortest decimal -/

/-- No decimal on a coarser grid is read as the double. -/
theorem exponent_le_shortest (h : x.isZero = false) (hd : x.readsFrom d = true) :
    d.exponent ≤ x.shortest.exponent := by
  -- either its grid is one of those that are searched, or it is finer than all of them
  by_cases hlow : x.decimalExponent - 16 ≤ d.exponent
  · exact (shortest_spec h (pointOn?_isSome hd) hlow (exponent_le_of_readsFrom h hd)).1
  · -- the decimal has more than seventeen digits, and these are enough
    have hfinest := (shortest_spec h (finest_isSome h) le_rfl (by omega)).1
    omega

theorem readsFrom_shortest (x : Double) : x.readsFrom x.shortest = true :=
  beq_iff_eq.2 x.toNumber_shortest

/-- No decimal with fewer digits is read as the double. -/
theorem length_digits_shortest_le (h : x.isZero = false) (hd : x.readsFrom d = true) :
    (Decimal.digits x.shortest.coefficient).length ≤ (Decimal.digits d.coefficient).length := by
  by_contra hfewer
  have hpos : 0 < (Decimal.digits d.coefficient).length := Nat.length_toDigits_pos
  generalize hplaces : (Decimal.digits d.coefficient).length = places at hpos hfewer
  -- the power of ten between the two decimals is read as the double and lies on a coarser grid
  have hlow : d.coefficient < 10 ^ places :=
    (Nat.length_toDigits_le_iff (by decide) hpos).1 hplaces.le
  have hhigh : 10 ^ places ≤ x.shortest.coefficient := by
    by_contra hlt
    exact hfewer ((Nat.length_toDigits_le_iff (by decide) hpos).2 (Nat.lt_of_not_le hlt))
  have hbetween : x.readsFrom ⟨1, x.shortest.exponent + places⟩ = true := by
    refine readsFrom_of_between hd x.readsFrom_shortest ?_ ?_
    · rw [Decimal.value_power]
      exact Decimal.value_le hlow.le (exponent_le_shortest h hd)
    · rw [Decimal.value_power]
      exact Decimal.value_le hhigh le_rfl
  have hcoarser := exponent_le_shortest h hbetween
  simp only at hcoarser
  omega

/-- Of the points of a grid that are read as the double, the one that is found is nearest. -/
theorem pointOn?_nearest (hfound : x.pointOn? e = some d) (hc : x.readsFrom ⟨c, e⟩ = true) :
    |d.value - x.magnitude| ≤ |(⟨c, e⟩ : Decimal).value - x.magnitude| := by
  rw [pointOn?, List.map_cons, List.map_cons, List.map_cons] at hfound
  by_cases hnearest : x.readsFrom ⟨x.nearestOn e, e⟩ = true
  · rw [List.find?_cons_of_pos hnearest] at hfound
    obtain rfl := Option.some.inj hfound
    rw [abs_point_sub, abs_point_sub]
    exact mul_le_mul_of_nonneg_right (divRound_nearest _ (gridDenominator_pos e) c) (by positivity)
  · -- what is nearest is not read, so all that is lies on the other side of the magnitude
    obtain ⟨hlow, hhigh⟩ := x.magnitude_between e
    rw [List.find?_cons_of_neg hnearest] at hfound
    rcases Nat.lt_or_ge (x.floorOn e) c with hlt | hge
    · have hsucc := readsFrom_floorOn_succ hc hlt
      have hne : x.nearestOn e ≠ x.floorOn e + 1 := by
        intro heq
        rw [heq] at hnearest
        exact hnearest hsucc
      have heq : x.nearestOn e = x.floorOn e := by
        have hle : x.floorOn e ≤ x.nearestOn e := div_le_divRound _ _
        have hge : x.nearestOn e ≤ x.floorOn e + 1 := divRound_le_succ_div _ _
        omega
      rw [heq] at hnearest
      rw [List.find?_cons_of_neg hnearest, List.find?_cons_of_pos hsucc] at hfound
      obtain rfl := Option.some.inj hfound
      have hmono : (⟨x.floorOn e + 1, e⟩ : Decimal).value ≤ (⟨c, e⟩ : Decimal).value :=
        Decimal.value_le hlt le_rfl
      rw [abs_of_nonneg (sub_nonneg.2 hhigh), abs_of_nonneg (sub_nonneg.2 (hhigh.trans hmono))]
      exact sub_le_sub_right hmono _
    · rw [List.find?_cons_of_pos (readsFrom_floorOn hc hge)] at hfound
      obtain rfl := Option.some.inj hfound
      have hmono : (⟨c, e⟩ : Decimal).value ≤ (⟨x.floorOn e, e⟩ : Decimal).value :=
        Decimal.value_le hge le_rfl
      rw [abs_of_nonpos (sub_nonpos.2 hlow), abs_of_nonpos (sub_nonpos.2 (hmono.trans hlow))]
      exact neg_le_neg (sub_le_sub_right hmono _)

/-- No decimal of the same places that is read as the double is nearer to it. -/
theorem shortest_nearest (h : x.isZero = false) (hd : x.readsFrom d = true)
    (hexponent : d.exponent = x.shortest.exponent) :
    |x.shortest.value - x.magnitude| ≤ |d.value - x.magnitude| := by
  have hfound := (shortest_spec h (finest_isSome h) le_rfl (by omega)).2
  obtain ⟨c, e⟩ := d
  simp only at hexponent
  subst hexponent
  exact pointOn?_nearest hfound hd

end Double

end Keypad
