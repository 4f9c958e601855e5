import Formula.Number.Basic
import Formula.Proofs.Binary.Exactness
import Mathlib.Algebra.Order.Ring.Abs
import Mathlib.Data.Rat.Defs
import Mathlib.Tactic

/-!
# Exact values

The number that a representation stands for, as a rational number, and rounding to the nearest
integer stated of rational numbers.
-/

namespace Formula

/-! ## The nearest integer -/

/-- The integer nearest to a value, and of two that are equally near the even one. -/
structure IsNearestEven (value : ℚ) (whole : ℤ) : Prop where
  near : |value - whole| ≤ 1 / 2
  even : |value - whole| = 1 / 2 → Even whole

namespace IsNearestEven

variable {value : ℚ} {whole other : ℤ}

theorem neg (nearest : IsNearestEven value whole) : IsNearestEven (-value) (-whole) := by
  have sameDistance : |-value - ((-whole : ℤ) : ℚ)| = |value - whole| := by
    rw [← abs_neg]
    congr 1
    push_cast
    ring
  refine ⟨sameDistance ▸ nearest.near, fun tie => ?_⟩
  rw [sameDistance] at tie
  exact (nearest.even tie).neg

/-- Two different integers at most a half away are neighbours of a tie. -/
theorem unique (nearest : IsNearestEven value whole) (nearest' : IsNearestEven value other) :
    whole = other := by
  by_contra different
  have apart : (1 : ℚ) ≤ |(whole : ℚ) - other| := by
    have : 1 ≤ |whole - other| := Int.one_le_abs (sub_ne_zero.mpr different)
    exact_mod_cast this
  have between : |(whole : ℚ) - other| ≤ |value - whole| + |value - other| := by
    rw [abs_sub_comm value whole]
    exact abs_sub_le _ _ _
  have near := nearest.near
  have near' := nearest'.near
  have even := nearest.even (by linarith)
  have even' := nearest'.even (by linarith)
  have neighbours : |whole - other| ≤ 1 := by
    have : |(whole : ℚ) - other| ≤ 1 := by linarith
    exact_mod_cast this
  obtain ⟨half, rfl⟩ := even
  obtain ⟨half', rfl⟩ := even'
  rw [abs_le] at neighbours
  omega

theorem intCast (whole : ℤ) : IsNearestEven whole whole := by
  constructor <;> norm_num

theorem eq_of_intCast (nearest : IsNearestEven other whole) : whole = other :=
  nearest.unique (.intCast other)

end IsNearestEven

/-- The distance to a quotient, counted in parts of its denominator. -/
theorem isNearestEven_div_iff {numerator : ℤ} {denominator : ℕ} (positive : 0 < denominator)
    {whole : ℤ} :
    IsNearestEven (numerator / denominator) whole ↔
      2 * (numerator - denominator * whole).natAbs ≤ denominator ∧
        (2 * (numerator - denominator * whole).natAbs = denominator → whole % 2 = 0) := by
  have positive' : (0 : ℚ) < denominator := by exact_mod_cast positive
  have distance : |(numerator : ℚ) / denominator - whole| =
      ((numerator - denominator * whole).natAbs : ℕ) / denominator := by
    rw [Nat.cast_natAbs, ← abs_of_pos positive', Int.cast_abs, ← abs_div, abs_of_pos positive']
    congr 1
    push_cast
    field_simp
  generalize (numerator - denominator * whole).natAbs = parts at *
  have near : |(numerator : ℚ) / denominator - whole| ≤ 1 / 2 ↔ 2 * parts ≤ denominator := by
    rw [distance, div_le_div_iff₀ positive' two_pos, one_mul, mul_comm]
    exact_mod_cast Iff.rfl
  have tie : |(numerator : ℚ) / denominator - whole| = 1 / 2 ↔ 2 * parts = denominator := by
    rw [distance, div_eq_div_iff positive'.ne' two_ne_zero, one_mul, mul_comm]
    exact_mod_cast Iff.rfl
  rw [← near, ← tie, ← Int.even_iff]
  exact ⟨fun nearest => ⟨nearest.near, nearest.even⟩, fun ⟨near, even⟩ => ⟨near, even⟩⟩

namespace Rounding

theorem movesAway_nearestEven_iff {negative : Bool} {whole rest denominator : ℕ} :
    nearestEven.movesAway negative whole rest denominator = true ↔
      denominator < 2 * rest ∨ denominator = 2 * rest ∧ whole % 2 = 1 := by
  simp [movesAway]

theorem isNearestEven_magnitude (negative : Bool) (numerator : ℕ) {denominator : ℕ}
    (positive : 0 < denominator) :
    IsNearestEven (signed negative numerator / denominator)
      (signed negative (nearestEven.magnitude negative numerator denominator)) := by
  have unsigned : IsNearestEven ((numerator : ℤ) / denominator)
      (nearestEven.magnitude negative numerator denominator : ℕ) := by
    rw [isNearestEven_div_iff positive]
    have quotient := Nat.div_add_mod numerator denominator
    have bound := Nat.mod_lt numerator positive
    unfold magnitude
    dsimp only
    generalize numerator / denominator = whole at *
    generalize numerator % denominator = rest at *
    subst quotient
    split
    · next moves =>
        have lacking : ((denominator * whole + rest : ℕ) : ℤ) - denominator * (whole + 1 : ℕ) =
            rest - denominator := by
          push_cast
          ring
        rw [movesAway_nearestEven_iff] at moves
        rw [lacking]
        omega
    · next stays =>
        have left : ((denominator * whole + rest : ℕ) : ℤ) - denominator * (whole : ℕ) = rest := by
          push_cast
          ring
        rw [movesAway_nearestEven_iff] at stays
        rw [left]
        omega
  cases negative with
  | false => simpa [signed] using unsigned
  | true => simpa [signed, neg_div] using unsigned.neg

end Rounding

theorem signed_mul (negative : Bool) (magnitude factor : ℕ) :
    signed negative (magnitude * factor) = signed negative magnitude * factor := by
  cases negative <;> simp [signed]

theorem natAbs_signed (negative : Bool) (magnitude : ℕ) :
    (signed negative magnitude).natAbs = magnitude := by
  cases negative <;> simp [signed]

theorem signed_natAbs (value : ℤ) : signed (decide (value < 0)) value.natAbs = value := by
  unfold signed
  split
  · next negative =>
      have := of_decide_eq_true negative
      omega
  · next positive =>
      rw [decide_eq_true_eq] at positive
      omega

theorem abs_signed (negative : Bool) (magnitude : ℕ) :
    |(signed negative magnitude : ℚ)| = magnitude := by
  rw [← Int.cast_abs, Int.abs_eq_natAbs, natAbs_signed]
  rfl

theorem signed_inj {negative : Bool} {magnitude other : ℕ} :
    signed negative magnitude = signed negative other ↔ magnitude = other := by
  cases negative <;> simp [signed]

/-! ## Binary numbers -/

namespace Binary

variable {format : Format}

/-- The number that a finite member of the format stands for. -/
def value? : Binary format → Option ℚ
  | .finite negative significand exponent _ => some (signed negative significand * 2 ^ exponent)
  | _ => none

/-- The parts of the quotient in which a member is rounded. -/
theorem signed_div_two_pow (negative : Bool) (significand : ℕ) (exponent : ℤ) :
    (signed negative (significand * 2 ^ exponent.toNat) : ℚ) / (2 ^ (-exponent).toNat : ℕ) =
      signed negative significand * 2 ^ exponent := by
  rw [signed_mul]
  rcases exponent.eq_nat_or_neg with ⟨power, rfl | rfl⟩
  · simp
  · simp [div_eq_mul_inv]

theorem toInt?_nearestEven_iff {value : Binary format} {whole : ℤ} :
    value.toInt? .nearestEven = some whole ↔
      ∃ exact_, value.value? = some exact_ ∧ IsNearestEven exact_ whole := by
  cases value with
  | nan => simp [toInt?, value?]
  | infinity => simp [toInt?, value?]
  | finite negative significand exponent admitted =>
      have nearest := Rounding.isNearestEven_magnitude negative
        (significand * 2 ^ exponent.toNat) (Nat.two_pow_pos (-exponent).toNat)
      rw [signed_div_two_pow] at nearest
      simp only [toInt?, value?, Option.some.injEq, exists_eq_left']
      constructor
      · rintro rfl
        exact nearest
      · exact nearest.unique

theorem value?_zero (negative : Bool) : (zero negative : Binary format).value? = some 0 := by
  cases negative <;> simp [zero, value?, signed]

theorem Format.Admits.double_of_single {significand : ℕ} {exponent : ℤ}
    (admitted : Format.single.Admits significand exponent) (nonzero : significand ≠ 0) :
    Format.double.Admits (significand * 2 ^ (52 - significand.log2))
      (exponent - (52 - significand.log2 : ℕ)) := by
  have log2_lt : significand.log2 < 24 := (Nat.log2_lt nonzero).mpr admitted.1
  have least : (-149 : ℤ) ≤ exponent := admitted.2.1
  have greatest : exponent ≤ 104 := admitted.2.2.1
  have sum : significand.log2 + (52 - significand.log2) = 52 := by omega
  refine ⟨?_, ?_, ?_, .inl ?_⟩
  · calc significand * 2 ^ (52 - significand.log2)
        < 2 ^ (significand.log2 + 1) * 2 ^ (52 - significand.log2) :=
          Nat.mul_lt_mul_of_pos_right Nat.lt_log2_self (Nat.two_pow_pos _)
      _ = 2 ^ 53 := by rw [← Nat.pow_add, Nat.add_right_comm, sum]
  · change (-1074 : ℤ) ≤ _
    omega
  · change _ ≤ (971 : ℤ)
    omega
  · calc 2 ^ 52 = 2 ^ significand.log2 * 2 ^ (52 - significand.log2) := by rw [← Nat.pow_add, sum]
      _ ≤ significand * 2 ^ (52 - significand.log2) :=
          Nat.mul_le_mul_right _ (Nat.log2_self_le nonzero)

/-- Double precision has every number of single precision. -/
theorem value?_convert_double (value : Single) : (value.convert .double).value? = value.value? := by
  cases value with
  | nan => rfl
  | infinity => rfl
  | finite negative significand exponent admitted =>
      rw [convert]
      by_cases nonzero : significand = 0
      · subst nonzero
        rw [ofScaled_zero, value?_zero]
        cases negative <;> simp [value?, signed]
      · rw [ofScaled_of_admits_mul (admitted.double_of_single nonzero) nonzero]
        simp only [value?, Option.some.injEq]
        rw [signed_mul, zpow_sub₀ two_ne_zero, zpow_natCast]
        push_cast
        field_simp

end Binary

/-! ## Numbers -/

/-- The number that a decimal stands for. -/
def Decimal.value (value : Decimal) : ℚ :=
  signed value.negative value.mantissa / (10 ^ value.scale : ℕ)

/-- The number that is represented, if the representation stands for one. -/
def Number.value? : Number → Option ℚ
  | .float32 value => value.value?
  | .float64 value => value.value?
  | .decimal value => some value.value
  | .int32 value => some value.toInt
  | .int64 value => some value.toInt

end Formula
