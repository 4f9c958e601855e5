import Formula.Binary.Arithmetic
import Mathlib.Data.Nat.Basic

/-!
# Exact results of binary arithmetic

A member of a format is its own nearest member, so operations whose exact result is one do not
round.  Rounding to the nearest member does not depend on the sign, so it commutes with negation.
-/

namespace Formula

theorem Rounding.magnitude_mul_self {negative : Bool} (value : Nat) {unit : Nat}
    (positive : 0 < unit) : nearestEven.magnitude negative (value * unit) unit = value := by
  have stays : nearestEven.movesAway negative value 0 unit = false := by
    simp [movesAway, Nat.pos_iff_ne_zero.mp positive]
  rw [magnitude, Nat.mul_div_cancel _ positive, Nat.mul_mod_left]
  simp [stays]

namespace Binary

variable {format : Format}

/-! ## Negation -/

theorem neg_neg (value : Binary format) : value.neg.neg = value := by
  cases value <;> simp [neg]

theorem eq_zero_of_isZero {value : Binary format} (isZero : value.isZero = true) :
    ∃ negative, value = zero negative := by
  cases value with
  | nan => cases isZero
  | infinity => cases isZero
  | finite negative significand exponent admitted =>
      obtain rfl : significand = 0 := by simpa [Binary.isZero] using isZero
      have normal : ¬ 2 ^ (format.precision - 1) ≤ 0 := by
        have := Nat.two_pow_pos (format.precision - 1)
        omega
      obtain rfl : exponent = format.minExponent := admitted.2.2.2.resolve_left normal
      exact ⟨negative, rfl⟩

theorem ofFields_not (negative : Bool) (significand : Nat) (exponent : Int) :
    (ofFields (!negative) significand exponent : Binary format) =
      (ofFields negative significand exponent).neg := by
  unfold ofFields
  split
  · rfl
  · rfl

theorem ofRatio_not (negative : Bool) (numerator denominator : Nat) :
    (ofRatio (!negative) numerator denominator : Binary format) =
      (ofRatio negative numerator denominator).neg := by
  have sameMagnitude (numerator denominator : Nat) :
      Rounding.nearestEven.magnitude (!negative) numerator denominator =
        Rounding.nearestEven.magnitude negative numerator denominator := rfl
  unfold ofRatio
  simp only [sameMagnitude, ofFields_not]
  split
  · rfl
  · split
    · rfl
    · rfl

theorem ofScaled_not (negative : Bool) (significand : Nat) (exponent : Int) :
    (ofScaled (!negative) significand exponent : Binary format) =
      (ofScaled negative significand exponent).neg :=
  ofRatio_not _ _ _

theorem convert_neg (target : Format) (value : Binary format) :
    value.neg.convert target = (value.convert target).neg := by
  cases value with
  | nan => rfl
  | infinity => rfl
  | finite negative significand exponent admitted => exact ofScaled_not _ _ _

theorem ofScaled_zero (negative : Bool) (exponent : Int) :
    (ofScaled negative 0 exponent : Binary format) = zero negative := by
  simp [ofScaled, ofRatio]

theorem convert_zero (target : Format) (negative : Bool) :
    (zero negative : Binary format).convert target = zero negative :=
  ofScaled_zero negative format.minExponent

theorem ofInt_zero : (ofInt 0 : Binary format) = zero false :=
  ofScaled_zero false 0

theorem ofInt_neg {value : Int} (nonzero : value ≠ 0) :
    (ofInt (-value) : Binary format) = (ofInt value).neg := by
  have otherSign : decide (-value < 0) = !decide (value < 0) := by
    rw [← decide_not]
    exact decide_eq_decide.mpr (by omega)
  rw [ofInt, otherSign, Int.natAbs_neg, ofScaled_not]
  rfl

/-! ## Members of the format -/

theorem log2_mul_two_pow {value : Nat} (positive : 0 < value) (power : Nat) :
    (value * 2 ^ power).log2 = value.log2 + power := by
  have nonzero := Nat.pos_iff_ne_zero.mp positive
  have := Nat.two_pow_pos power
  rw [Nat.log2_eq_iff (Nat.mul_ne_zero nonzero (by omega))]
  constructor
  · rw [Nat.pow_add]
    exact Nat.mul_le_mul_right _ (Nat.log2_self_le nonzero)
  · rw [Nat.add_right_comm, Nat.pow_add]
    exact Nat.mul_lt_mul_of_pos_right Nat.lt_log2_self this

/-- A power of two in both parts of a quotient shifts its order by their difference. -/
theorem binaryOrder_scaled {value : Nat} (positive : 0 < value) (up down : Nat) :
    binaryOrder (value * 2 ^ up) (2 ^ down) = value.log2 + up - down := by
  unfold binaryOrder
  rw [log2_mul_two_pow positive, Nat.log2_two_pow]
  generalize shifted : ((value.log2 + up : Nat) : Int) - down = order
  have fits : 2 ^ down * 2 ^ order.toNat ≤ value * 2 ^ up * 2 ^ (-order).toNat := by
    have exponents : down + order.toNat = value.log2 + (up + (-order).toNat) := by omega
    rw [← Nat.pow_add, exponents, Nat.mul_assoc, ← Nat.pow_add, Nat.pow_add 2 value.log2]
    exact Nat.mul_le_mul_right _ (Nat.log2_self_le (Nat.pos_iff_ne_zero.mp positive))
  simp only [fits, if_true]
  omega

/-- A number that the format has is not rounded, however it is written with powers of two. -/
theorem ofScaled_of_same {written significand : Nat} {place exponent : Int} (up down : Nat)
    (admitted : format.Admits significand exponent) (nonzero : significand ≠ 0)
    (same : written * 2 ^ up = significand * 2 ^ down) (level : place - up = exponent - down)
    (negative : Bool) :
    (ofScaled negative written place : Binary format) =
      .finite negative significand exponent admitted := by
  have ⟨bounded, least, _, normal⟩ := admitted
  have positive := Nat.pos_iff_ne_zero.mpr nonzero
  have positive' : 0 < written := by
    refine Nat.pos_of_ne_zero fun zero => nonzero ?_
    rw [zero, Nat.zero_mul] at same
    exact (Nat.mul_eq_zero.mp same.symm).resolve_right (Nat.pos_iff_ne_zero.mp (Nat.two_pow_pos _))
  have sameExponent : max format.minExponent
      (binaryOrder (written * 2 ^ place.toNat) (2 ^ (-place).toNat) -
        (format.precision - 1 : Nat)) = exponent := by
    have log2_lt : significand.log2 < format.precision := (Nat.log2_lt nonzero).mpr bounded
    have lengths := congrArg Nat.log2 same
    rw [log2_mul_two_pow positive, log2_mul_two_pow positive'] at lengths
    rw [binaryOrder_scaled positive']
    rcases normal with normal | atLeast
    · have := (Nat.le_log2 nonzero).mpr normal
      omega
    · omega
  have unit : written * 2 ^ place.toNat * 2 ^ (-exponent).toNat =
      significand * (2 ^ (-place).toNat * 2 ^ exponent.toNat) := by
    apply Nat.eq_of_mul_eq_mul_right (Nat.two_pow_pos up)
    have powers : place.toNat + (-exponent).toNat + down =
        (-place).toNat + exponent.toNat + up := by omega
    calc written * 2 ^ place.toNat * 2 ^ (-exponent).toNat * 2 ^ up
        = written * 2 ^ up * 2 ^ (place.toNat + (-exponent).toNat) := by
          rw [Nat.mul_assoc written, ← Nat.pow_add, Nat.mul_right_comm]
      _ = significand * 2 ^ (place.toNat + (-exponent).toNat + down) := by
          rw [same, Nat.mul_assoc, ← Nat.pow_add, Nat.add_comm down]
      _ = significand * (2 ^ (-place).toNat * 2 ^ exponent.toNat) * 2 ^ up := by
          rw [powers, Nat.pow_add, Nat.pow_add, Nat.mul_assoc significand]
  have exact_ : Rounding.nearestEven.magnitude negative
      (written * 2 ^ place.toNat * 2 ^ (-exponent).toNat)
      (2 ^ (-place).toNat * 2 ^ exponent.toNat) = significand := by
    rw [unit]
    exact Rounding.magnitude_mul_self _ (Nat.mul_pos (Nat.two_pow_pos _) (Nat.two_pow_pos _))
  have present : written * 2 ^ place.toNat ≠ 0 :=
    Nat.mul_ne_zero (Nat.pos_iff_ne_zero.mp positive') (Nat.pos_iff_ne_zero.mp (Nat.two_pow_pos _))
  rw [ofScaled, ofRatio, if_neg present, sameExponent]
  simp only [exact_]
  rw [if_neg (Nat.ne_of_lt bounded), ofFields, dif_pos admitted]

/-- A written form is rounded to itself, also when it is written with more bits. -/
theorem ofScaled_of_admits {significand : Nat} {exponent : Int}
    (admitted : format.Admits significand exponent) (nonzero : significand ≠ 0) (negative : Bool)
    (bits : Nat) :
    (ofScaled negative (significand * 2 ^ bits) (exponent - bits) : Binary format) =
      .finite negative significand exponent admitted :=
  ofScaled_of_same 0 bits admitted nonzero (by simp) (by simp) negative

/-- A number that the format has with more bits in the significand is not rounded either. -/
theorem ofScaled_of_admits_mul {significand : Nat} {exponent : Int} {bits : Nat}
    (admitted : format.Admits (significand * 2 ^ bits) (exponent - bits))
    (nonzero : significand ≠ 0) (negative : Bool) :
    (ofScaled negative significand exponent : Binary format) =
      .finite negative (significand * 2 ^ bits) (exponent - bits) admitted :=
  have present := Nat.mul_ne_zero nonzero (Nat.pos_iff_ne_zero.mp (Nat.two_pow_pos bits))
  ofScaled_of_same bits 0 admitted present (by simp) (by simp) negative

/-! ## Sums with zero -/

theorem aligned_eq_zero_iff (negative : Bool) (significand : Nat) (exponent unit : Int) :
    aligned negative significand exponent unit = 0 ↔ significand = 0 := by
  have product : significand * 2 ^ (exponent - unit).toNat = 0 ↔ significand = 0 :=
    Nat.mul_eq_zero.trans (or_iff_left (Nat.ne_of_gt (Nat.two_pow_pos _)))
  rw [← product, aligned]
  generalize significand * 2 ^ (exponent - unit).toNat = scaled
  cases negative <;> simp [signed]

theorem zero_add_of_not_isZero {value : Binary format} (notZero : value.isZero = false) :
    (zero false).add value = value := by
  cases value with
  | nan => rfl
  | infinity negative => rfl
  | finite negative significand exponent admitted =>
      have nonzero : significand ≠ 0 := by simpa [isZero] using notZero
      obtain ⟨bits, sameBits⟩ : ∃ bits : Nat, exponent - format.minExponent = bits :=
        Int.eq_ofNat_of_zero_le (by have := admitted.2.1; omega)
      have least : min format.minExponent exponent = format.minExponent := by omega
      have start : format.minExponent = exponent - bits := by omega
      have total : aligned false 0 format.minExponent format.minExponent +
          aligned negative significand exponent format.minExponent =
            signed negative (significand * 2 ^ bits) := by
        simp [aligned, signed, sameBits]
      have magnitude : significand * 2 ^ bits ≠ 0 :=
        Nat.mul_ne_zero nonzero (Nat.pos_iff_ne_zero.mp (Nat.two_pow_pos bits))
      generalize scaled : significand * 2 ^ bits = product at total magnitude
      have sumNonzero : signed negative product ≠ 0 := by
        cases negative <;> simp [signed, magnitude]
      have sameSign : decide (signed negative product < 0) = negative := by
        cases negative <;> (simp [signed]; try omega)
      have sameMagnitude : (signed negative product).natAbs = product := by
        cases negative <;> simp [signed]
      simp only [zero, add, least, total, sumNonzero, if_false, sameSign, sameMagnitude]
      rw [← scaled, start, ofScaled_of_admits admitted nonzero]

/-- Only the sum of two negative zeros shows the sign of a zero. -/
theorem add_zero_eq {value : Binary format} (notNegativeZero : value ≠ zero true)
    (negative negative' : Bool) : value.add (zero negative) = value.add (zero negative') := by
  cases value with
  | nan => rfl
  | infinity => rfl
  | finite sign significand exponent admitted =>
      have sameTotal : aligned negative 0 format.minExponent =
          aligned negative' 0 format.minExponent := by
        funext unit
        cases negative <;> cases negative' <;> simp [aligned, signed]
      simp only [add, zero, sameTotal]
      split
      · next sumZero =>
          rw [(aligned_eq_zero_iff negative' 0 _ _).mpr rfl, Int.add_zero,
            aligned_eq_zero_iff] at sumZero
          subst sumZero
          obtain ⟨_, same⟩ := @eq_zero_of_isZero _ (.finite sign 0 exponent admitted) rfl
          rw [same] at notNegativeZero
          cases same
          cases sign with
          | false => rfl
          | true => exact absurd rfl notNegativeZero
      · rfl

/-! ## Numbers that do not vanish -/

theorem ofRatio_eq_zero {negative sign : Bool} {numerator denominator : Nat}
    (rounded : (ofRatio negative numerator denominator : Binary format) = zero sign) :
    sign = negative ∧ (numerator ≠ 0 → ∃ exponent : Int,
      exponent = max format.minExponent
          (binaryOrder numerator denominator - (format.precision - 1 : Nat)) ∧
        (numerator * 2 ^ (-exponent).toNat) / (denominator * 2 ^ exponent.toNat) = 0) := by
  have ofFields {significand : Nat} {exponent : Int}
      (same : (ofFields negative significand exponent : Binary format) = zero sign) :
      sign = negative ∧ significand = 0 := by
    unfold Binary.ofFields zero at same
    split at same
    · cases same
      exact ⟨rfl, rfl⟩
    · cases same
  unfold ofRatio at rounded
  split at rounded
  · next none =>
      cases rounded
      exact ⟨rfl, fun present => absurd none present⟩
  · dsimp only at rounded
    split at rounded
    · have := Nat.two_pow_pos (format.precision - 1)
      have := (ofFields rounded).2
      omega
    · obtain ⟨sameSign, vanished⟩ := ofFields rounded
      refine ⟨sameSign, fun _ => ⟨_, rfl, ?_⟩⟩
      exact Nat.le_zero.mp (Nat.le_trans (Rounding.le_magnitude _ negative _ _)
        (Nat.le_of_eq vanished))

/-- What is counted in units of the format does not vanish. -/
theorem ofScaled_ne_zero {significand : Nat} {exponent : Int} (nonzero : significand ≠ 0)
    (starts : format.minExponent ≤ exponent) (negative sign : Bool) :
    (ofScaled negative significand exponent : Binary format) ≠ zero sign := by
  intro vanished
  have positive := Nat.pos_iff_ne_zero.mpr nonzero
  have present : significand * 2 ^ exponent.toNat ≠ 0 :=
    Nat.mul_ne_zero nonzero (Nat.pos_iff_ne_zero.mp (Nat.two_pow_pos _))
  obtain ⟨unit, chosen, tooSmall⟩ := (ofRatio_eq_zero vanished).2 present
  rw [binaryOrder_scaled positive] at chosen
  have fits : 2 ^ (-exponent).toNat * 2 ^ unit.toNat ≤
      significand * 2 ^ exponent.toNat * 2 ^ (-unit).toNat := by
    calc 2 ^ (-exponent).toNat * 2 ^ unit.toNat
        = 2 ^ ((-exponent).toNat + unit.toNat) := (Nat.pow_add ..).symm
      _ ≤ 2 ^ (significand.log2 + (exponent.toNat + (-unit).toNat)) :=
          Nat.pow_le_pow_right (by decide) (by omega)
      _ = 2 ^ significand.log2 * 2 ^ (exponent.toNat + (-unit).toNat) := Nat.pow_add ..
      _ ≤ significand * 2 ^ (exponent.toNat + (-unit).toNat) :=
          Nat.mul_le_mul_right _ (Nat.log2_self_le nonzero)
      _ = significand * 2 ^ exponent.toNat * 2 ^ (-unit).toNat := by
          rw [Nat.pow_add, Nat.mul_assoc]
  have atLeastOne := Nat.div_pos fits (Nat.mul_pos (Nat.two_pow_pos _) (Nat.two_pow_pos _))
  omega

theorem ofInt_ne_zero_true (starts : format.minExponent ≤ 0) (value : Int) :
    (ofInt value : Binary format) ≠ zero true := by
  by_cases nonzero : value = 0
  · rw [nonzero, ofInt_zero]
    simp [zero]
  · exact ofScaled_ne_zero (Int.natAbs_ne_zero.mpr nonzero) starts _ _

/-- A wider format has every number of a narrower one, so only zeros become zeros. -/
theorem eq_zero_of_convert {target : Format} (wider : target.minExponent ≤ format.minExponent)
    {value : Binary format} {sign : Bool} (vanished : value.convert target = zero sign) :
    value = zero sign := by
  cases value with
  | nan => cases vanished
  | infinity => cases vanished
  | finite negative significand exponent admitted =>
      by_cases nonzero : significand = 0
      · subst nonzero
        obtain ⟨sign', same⟩ := @eq_zero_of_isZero _ (.finite negative 0 exponent admitted) rfl
        rw [same] at vanished ⊢
        rw [convert_zero] at vanished
        cases vanished
        rfl
      · have starts := Int.le_trans wider admitted.2.1
        exact absurd vanished (ofScaled_ne_zero nonzero starts _ _)

end Binary

end Formula
