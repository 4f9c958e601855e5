import Formula.Proofs.Number.Value

/-!
# The order of binary numbers

Each binary number has a place among the integers, counted in units of the smallest exponent, and
two numbers are ordered as their places are.  Rounding integers to a format never reverses their
order, though it may let neighbours fall together.
-/

namespace Formula

theorem Rounding.magnitude_mono (negative : Bool) {numerator larger denominator : ℕ}
    (le : numerator ≤ larger) :
    nearestEven.magnitude negative numerator denominator ≤
      nearestEven.magnitude negative larger denominator := by
  rcases (Nat.div_le_div_right le : numerator / denominator ≤ larger / denominator).lt_or_eq with
    below | same
  · calc nearestEven.magnitude negative numerator denominator
        ≤ numerator / denominator + 1 := magnitude_le _ _ _ _
      _ ≤ larger / denominator := below
      _ ≤ nearestEven.magnitude negative larger denominator := le_magnitude _ _ _ _
  · -- Within one step of the grid the larger numerator is the first to move away.
    have rest : numerator % denominator ≤ larger % denominator := by
      have := Nat.div_add_mod numerator denominator
      have := Nat.div_add_mod larger denominator
      rw [same] at *
      omega
    have moves : nearestEven.movesAway negative (numerator / denominator)
          (numerator % denominator) denominator = true →
        nearestEven.movesAway negative (larger / denominator)
          (larger % denominator) denominator = true := by
      rw [movesAway_nearestEven_iff, movesAway_nearestEven_iff, same]
      omega
    unfold magnitude
    dsimp only
    split
    · next away => rw [if_pos (moves away), same]
    · rw [same]
      split <;> omega

theorem compare_mul_right {left right factor : ℤ} (positive : 0 < factor) :
    compare (left * factor) (right * factor) = compare left right := by
  rw [← cmp_eq_compare, ← cmp_eq_compare]
  exact (strictMono_mul_right_of_pos positive).cmp_map_eq left right

namespace Binary

variable {format : Format}

/-! ## Places -/

/-- One unit more than the largest power of two that the format reaches. -/
def Format.bound (format : Format) : ℕ :=
  2 ^ (format.precision + (format.maxExponent - format.minExponent).toNat)

theorem Format.bound_pos (format : Format) : 0 < format.bound :=
  Nat.two_pow_pos _

/-- Infinities stand outside of all finite numbers, and NaN stands before everything. -/
def place : Binary format → ℤ
  | .nan => -(format.bound : ℤ) - 1
  | .infinity negative => signed negative format.bound
  | .finite negative significand exponent _ =>
      aligned negative significand exponent format.minExponent

theorem Format.Admits.units_lt_bound {significand : ℕ} {exponent : ℤ}
    (admitted : format.Admits significand exponent) :
    significand * 2 ^ (exponent - format.minExponent).toNat < format.bound := by
  obtain ⟨bounded, _, upper, _⟩ := admitted
  calc significand * 2 ^ (exponent - format.minExponent).toNat
      < 2 ^ format.precision * 2 ^ (exponent - format.minExponent).toNat :=
        Nat.mul_lt_mul_of_pos_right bounded (Nat.two_pow_pos _)
    _ ≤ 2 ^ format.precision * 2 ^ (format.maxExponent - format.minExponent).toNat :=
        Nat.mul_le_mul_left _ (Nat.pow_le_pow_right two_pos (by omega))
    _ = format.bound := (Nat.pow_add ..).symm

theorem place_finite_between (negative : Bool) {significand : ℕ} {exponent : ℤ}
    (admitted : format.Admits significand exponent) :
    -(format.bound : ℤ) < (finite negative significand exponent admitted).place ∧
      (finite negative significand exponent admitted).place < format.bound := by
  have bounded := admitted.units_lt_bound
  rw [place, aligned]
  generalize significand * 2 ^ (exponent - format.minExponent).toNat = units at *
  cases negative <;> simp [signed] <;> omega

theorem aligned_eq_mul (negative : Bool) (significand : ℕ) {exponent unit lower : ℤ}
    (within : unit ≤ exponent) (below : lower ≤ unit) :
    aligned negative significand exponent lower =
      aligned negative significand exponent unit * (2 ^ (unit - lower).toNat : ℕ) := by
  have powers : (exponent - lower).toNat = (exponent - unit).toNat + (unit - lower).toNat := by
    omega
  rw [aligned, aligned, powers, Nat.pow_add, ← Nat.mul_assoc, signed_mul]

theorem order_eq_compare (left right : Binary format) :
    left.order right = compare left.place right.place := by
  have positive := format.bound_pos
  cases left with
  | nan =>
      cases right with
      | nan => exact (compare_eq_iff_eq.mpr rfl).symm
      | infinity negative =>
          refine (compare_lt_iff_lt.mpr ?_).symm
          cases negative <;> simp only [place, signed] <;> omega
      | finite negative significand exponent admitted =>
          have := (place_finite_between negative admitted).1
          refine (compare_lt_iff_lt.mpr ?_).symm
          simp only [place] at *
          omega
  | infinity negative =>
      cases right with
      | nan =>
          refine (compare_gt_iff_gt.mpr ?_).symm
          cases negative <;> simp only [place, signed] <;> omega
      | infinity negative' =>
          have apart : -(format.bound : ℤ) < format.bound := by omega
          cases negative <;> cases negative'
          · exact (compare_eq_iff_eq.mpr rfl).symm
          · exact (compare_gt_iff_gt.mpr apart).symm
          · exact (compare_lt_iff_lt.mpr apart).symm
          · exact (compare_eq_iff_eq.mpr rfl).symm
      | finite negative' significand exponent admitted =>
          have between := place_finite_between negative' admitted
          cases negative with
          | true => exact (compare_lt_iff_lt.mpr between.1).symm
          | false => exact (compare_gt_iff_gt.mpr between.2).symm
  | finite negative significand exponent admitted =>
      have between := place_finite_between negative admitted
      cases right with
      | nan =>
          refine (compare_gt_iff_gt.mpr ?_).symm
          simp only [place] at *
          omega
      | infinity negative' =>
          cases negative' with
          | true => exact (compare_gt_iff_gt.mpr between.1).symm
          | false => exact (compare_lt_iff_lt.mpr between.2).symm
      | finite negative' significand' exponent' admitted' =>
          have lower : format.minExponent ≤ min exponent exponent' :=
            le_min admitted.2.1 admitted'.2.1
          rw [order, place, place, aligned_eq_mul negative _ (min_le_left _ _) lower,
            aligned_eq_mul negative' _ (min_le_right _ _) lower, compare_mul_right]
          exact_mod_cast Nat.two_pow_pos _

theorem place_neg {value : Binary format} (number : value ≠ .nan) :
    value.neg.place = -value.place := by
  cases value with
  | nan => exact absurd rfl number
  | infinity negative => cases negative <;> simp [neg, place, signed]
  | finite negative significand exponent admitted =>
      cases negative <;> simp [neg, place, aligned, signed]

/-! ## Rounding integers -/

/-- The exponent of the grid that an integer of this magnitude is rounded to. -/
def Format.gridExponent (format : Format) (magnitude : ℕ) : ℤ :=
  max format.minExponent (magnitude.log2 - (format.precision - 1 : ℕ))

/-- The nearest multiple on that grid, as a multiple. -/
def Format.gridMultiple (format : Format) (magnitude : ℕ) : ℕ :=
  Rounding.nearestEven.magnitude false
    (magnitude * 2 ^ (-format.gridExponent magnitude).toNat)
    (2 ^ (format.gridExponent magnitude).toNat)

/-- The nearest multiple on that grid, in smallest units. -/
def Format.roundedUnits (format : Format) (magnitude : ℕ) : ℕ :=
  format.gridMultiple magnitude * 2 ^ (format.gridExponent magnitude - format.minExponent).toNat

section Rounding

variable {magnitude larger : ℕ}

theorem Format.gridMultiple_le (format : Format) (precise : 0 < format.precision)
    (magnitude : ℕ) : format.gridMultiple magnitude ≤ 2 ^ format.precision := by
  refine le_trans (Rounding.magnitude_le _ _ _ _) (Nat.succ_le_of_lt ?_)
  rw [Nat.div_lt_iff_lt_mul (Nat.two_pow_pos _)]
  have exponents : magnitude.log2 + 1 + (-format.gridExponent magnitude).toNat ≤
      format.precision + (format.gridExponent magnitude).toNat := by
    unfold gridExponent
    omega
  calc magnitude * 2 ^ (-format.gridExponent magnitude).toNat
      < 2 ^ (magnitude.log2 + 1) * 2 ^ (-format.gridExponent magnitude).toNat :=
        Nat.mul_lt_mul_of_pos_right Nat.lt_log2_self (Nat.two_pow_pos _)
    _ = 2 ^ (magnitude.log2 + 1 + (-format.gridExponent magnitude).toNat) :=
        (Nat.pow_add ..).symm
    _ ≤ 2 ^ (format.precision + (format.gridExponent magnitude).toNat) :=
        Nat.pow_le_pow_right two_pos exponents
    _ = 2 ^ format.precision * 2 ^ (format.gridExponent magnitude).toNat := Nat.pow_add ..

/-- Above the finest grid the multiples have all their bits. -/
theorem Format.le_gridMultiple (nonzero : magnitude ≠ 0)
    (coarse : format.minExponent < format.gridExponent magnitude) :
    2 ^ (format.precision - 1) ≤ format.gridMultiple magnitude := by
  refine le_trans ?_ (Rounding.le_magnitude _ _ _ _)
  rw [Nat.le_div_iff_mul_le (Nat.two_pow_pos _)]
  have exponents : format.precision - 1 + (format.gridExponent magnitude).toNat =
      magnitude.log2 + (-format.gridExponent magnitude).toNat := by
    unfold gridExponent at *
    omega
  rw [← Nat.pow_add, exponents, Nat.pow_add]
  exact Nat.mul_le_mul_right _ (Nat.log2_self_le nonzero)

theorem Format.gridExponent_mono (le : magnitude ≤ larger) :
    format.gridExponent magnitude ≤ format.gridExponent larger := by
  have bits : magnitude.log2 ≤ larger.log2 := by
    rcases Nat.eq_zero_or_pos magnitude with rfl | positive
    · exact Nat.zero_le _
    · rw [Nat.le_log2 (by omega)]
      exact le_trans (Nat.log2_self_le positive.ne') le
  unfold gridExponent
  omega

theorem Format.roundedUnits_mono (precise : 0 < format.precision) (le : magnitude ≤ larger) :
    format.roundedUnits magnitude ≤ format.roundedUnits larger := by
  unfold roundedUnits
  rcases (gridExponent_mono le : format.gridExponent magnitude ≤ _).eq_or_lt with same | coarser
  · unfold gridMultiple
    rw [same]
    exact Nat.mul_le_mul_right _ (Rounding.magnitude_mono _ (Nat.mul_le_mul_right _ le))
  · -- The largest multiple on the finer grid is not above the least one with all its bits.
    have least : format.minExponent ≤ format.gridExponent magnitude := le_max_left _ _
    have nonzero : larger ≠ 0 := by
      rintro rfl
      obtain rfl := Nat.le_zero.mp le
      exact lt_irrefl _ coarser
    have steps : format.precision + (format.gridExponent magnitude - format.minExponent).toNat ≤
        format.precision - 1 + (format.gridExponent larger - format.minExponent).toNat := by
      omega
    calc format.gridMultiple magnitude *
          2 ^ (format.gridExponent magnitude - format.minExponent).toNat
        ≤ 2 ^ format.precision * 2 ^ (format.gridExponent magnitude - format.minExponent).toNat :=
          Nat.mul_le_mul_right _ (format.gridMultiple_le precise magnitude)
      _ ≤ 2 ^ (format.precision - 1) *
            2 ^ (format.gridExponent larger - format.minExponent).toNat := by
          rw [← Nat.pow_add, ← Nat.pow_add]
          exact Nat.pow_le_pow_right two_pos steps
      _ ≤ _ := Nat.mul_le_mul_right _ (le_gridMultiple nonzero (by omega))

/-- Fields beyond the format are those of a number that is not below the bound. -/
theorem place_ofFields {significand : ℕ} {exponent : ℤ}
    (bounded : significand < 2 ^ format.precision)
    (least : format.minExponent ≤ exponent)
    (normal : 2 ^ (format.precision - 1) ≤ significand ∨ exponent = format.minExponent)
    (precise : 0 < format.precision) :
    (ofFields false significand exponent : Binary format).place =
      (min (significand * 2 ^ (exponent - format.minExponent).toNat) format.bound : ℕ) := by
  have ordered := format.ordered
  unfold ofFields
  split
  · next admitted => rw [min_eq_left admitted.units_lt_bound.le, place, aligned, signed]; simp
  · next refused =>
      have above : format.maxExponent < exponent := by
        by_contra within
        exact refused ⟨bounded, least, by omega, normal⟩
      have full := normal.resolve_right (by omega)
      rw [min_eq_right, place, signed]
      · simp
      · calc format.bound
            ≤ 2 ^ (format.precision - 1 + (exponent - format.minExponent).toNat) :=
              Nat.pow_le_pow_right two_pos (by omega)
          _ = 2 ^ (format.precision - 1) * 2 ^ (exponent - format.minExponent).toNat :=
              Nat.pow_add ..
          _ ≤ significand * 2 ^ (exponent - format.minExponent).toNat :=
              Nat.mul_le_mul_right _ full

/-- A carry to one bit more moves on to the next grid. -/
theorem ofInt_natCast (nonzero : magnitude ≠ 0) :
    (ofInt magnitude : Binary format) =
      if format.gridMultiple magnitude = 2 ^ format.precision then
        ofFields false (2 ^ (format.precision - 1)) (format.gridExponent magnitude + 1)
      else
        ofFields false (format.gridMultiple magnitude) (format.gridExponent magnitude) := by
  have exponent := binaryOrder_scaled (Nat.pos_of_ne_zero nonzero) 0 0
  have unsigned : decide ((magnitude : ℤ) < 0) = false := decide_eq_false (by omega)
  rw [ofInt, unsigned, Int.natAbs_natCast, ofScaled, ofRatio]
  simp only [Int.toNat_zero, neg_zero, Nat.pow_zero, Nat.mul_one, Nat.one_mul, Nat.cast_zero,
    add_zero, sub_zero] at exponent ⊢
  rw [if_neg nonzero, exponent]
  rfl

theorem place_ofInt_natCast (precise : 0 < format.precision) (magnitude : ℕ) :
    (ofInt magnitude : Binary format).place =
      (min (format.roundedUnits magnitude) format.bound : ℕ) := by
  by_cases nonzero : magnitude = 0
  · subst nonzero
    have none : Rounding.nearestEven.magnitude false 0
        (2 ^ (format.gridExponent 0).toNat) = 0 := by
      simp [Rounding.magnitude, Rounding.movesAway]
    rw [Nat.cast_zero, ofInt_zero, Format.roundedUnits, Format.gridMultiple, Nat.zero_mul, none]
    simp [zero, place, aligned, signed]
  · have fine : format.minExponent ≤ format.gridExponent magnitude := le_max_left _ _
    have le := format.gridMultiple_le precise magnitude
    have half : 2 ^ (format.precision - 1) < 2 ^ format.precision :=
      Nat.pow_lt_pow_right (by decide) (by omega)
    rw [ofInt_natCast nonzero, Format.roundedUnits]
    split
    · next carries =>
        rw [place_ofFields half (by omega) (.inl le_rfl) precise, carries, ← Nat.pow_add,
          ← Nat.pow_add]
        congr 3
        omega
    · next fits =>
        refine place_ofFields (lt_of_le_of_ne le fits) fine ?_ precise
        rcases fine.eq_or_lt with same | coarse
        · exact .inr same.symm
        · exact .inl (Format.le_gridMultiple nonzero coarse)

end Rounding

theorem place_ofInt_neg (value : ℤ) :
    (ofInt (-value) : Binary format).place = -(ofInt value : Binary format).place := by
  by_cases nonzero : value = 0
  · simp [nonzero, ofInt_zero, zero, place, aligned, signed]
  · rw [ofInt_neg nonzero, place_neg]
    intro isNaN
    unfold ofInt ofScaled ofRatio ofFields zero at isNaN
    dsimp only at isNaN
    split_ifs at isNaN

theorem place_ofInt_mono (precise : 0 < format.precision) {left right : ℤ} (le : left ≤ right) :
    (ofInt left : Binary format).place ≤ (ofInt right : Binary format).place := by
  have unsigned {smaller larger : ℕ} (le : smaller ≤ larger) :
      (ofInt smaller : Binary format).place ≤ (ofInt larger : Binary format).place := by
    rw [place_ofInt_natCast precise, place_ofInt_natCast precise]
    exact_mod_cast min_le_min_right _ (Format.roundedUnits_mono precise le)
  have nonneg (value : ℕ) : 0 ≤ (ofInt value : Binary format).place := by
    rw [place_ofInt_natCast precise]
    exact Int.natCast_nonneg _
  obtain ⟨magnitude, rfl | rfl⟩ := left.eq_nat_or_neg <;>
    obtain ⟨magnitude', rfl | rfl⟩ := right.eq_nat_or_neg
  · exact unsigned (by omega)
  · obtain ⟨rfl, rfl⟩ : magnitude = 0 ∧ magnitude' = 0 := by omega
    exact le_rfl
  · rw [place_ofInt_neg]
    exact le_trans (neg_nonpos.mpr (nonneg _)) (nonneg _)
  · rw [place_ofInt_neg, place_ofInt_neg]
    exact neg_le_neg (unsigned (by omega))

end Binary

end Formula
