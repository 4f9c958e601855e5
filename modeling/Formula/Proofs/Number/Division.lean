import Formula.Proofs.Number.Negation
import Formula.Proofs.Number.Representation
import Formula.Proofs.Number.Residue

/-!
# Division of integers

Two integers of any widths are divided in the wider of their types.  The quotient is truncated
toward zero and wraps around, as that of the least integer by minus one does, and the remainder is
exact.  Multiplied back and added up, also by operations that wrap around, they give the dividend.
-/

namespace Formula.Number

variable {left right number : Number} {dividend divisor whole : ℤ}

theorem IsWhole.isResidue (isWhole : number.IsWhole whole) :
    number.IsResidue number.type whole := by
  cases isWhole with
  | int32 value => exact .int32 value rfl
  | int64 value => exact .int64 value rfl

/-! ## The wider type -/

/-- Two integers meet as the same integers in the wider of their types, and there the right one can
be replaced in front of any other number. -/
theorem exists_widened (isLeft : left.IsWhole dividend) (isRight : right.IsWhole divisor) :
    ∃ wideLeft wideRight : Number,
      (wideLeft.type = left.type.promoted right.type ∧ wideLeft.IsWhole dividend) ∧
      (wideRight.type = left.type.promoted right.type ∧ wideRight.IsWhole divisor) ∧
      left.unify right = wideLeft.unify wideRight ∧
      ∀ other : Number, other.type = left.type.promoted right.type →
        other.unify right = other.unify wideRight := by
  cases isLeft with
  | int32 first =>
      cases isRight with
      | int32 second =>
          exact ⟨_, _, ⟨rfl, .int32 first⟩, ⟨rfl, .int32 second⟩, rfl, fun _ _ => rfl⟩
      | int64 second =>
          have wide := IsWhole.int64 first.toInt64
          rw [Int32.toInt_toInt64] at wide
          exact ⟨_, _, ⟨rfl, wide⟩, ⟨rfl, .int64 second⟩, rfl, fun _ _ => rfl⟩
  | int64 first =>
      cases isRight with
      | int64 second =>
          exact ⟨_, _, ⟨rfl, .int64 first⟩, ⟨rfl, .int64 second⟩, rfl, fun _ _ => rfl⟩
      | int32 second =>
          have wide := IsWhole.int64 second.toInt64
          rw [Int32.toInt_toInt64] at wide
          refine ⟨_, _, ⟨rfl, .int64 first⟩, ⟨rfl, wide⟩, rfl, fun other isWide => ?_⟩
          cases other with
          | int64 => rfl
          | float32 | float64 | decimal | int32 => cases isWide

/-! ## One type -/

section OneType

variable (isLeft : left.IsWhole dividend) (isRight : right.IsWhole divisor)
  (sameType : left.type = right.type)
include isLeft isRight sameType

theorem IsWhole.div_zero (isZero : divisor = 0) :
    left.div right = .error .divisionByZero ∧ left.rem right = .error .divisionByZero := by
  cases isLeft with
  | int32 first =>
      cases isRight with
      | int32 second =>
          obtain rfl : second = 0 := Int32.toInt.inj isZero
          exact ⟨rfl, rfl⟩
      | int64 => cases sameType
  | int64 first =>
      cases isRight with
      | int32 => cases sameType
      | int64 second =>
          obtain rfl : second = 0 := Int64.toInt.inj isZero
          exact ⟨rfl, rfl⟩

theorem IsWhole.exists_div_rem (nonzero : divisor ≠ 0) :
    ∃ quotient remainder : Number,
      left.div right = .ok quotient ∧ quotient.IsResidue left.type (dividend.tdiv divisor) ∧
      left.rem right = .ok remainder ∧ remainder.type = left.type ∧
        remainder.IsWhole (dividend.tmod divisor) := by
  cases isLeft with
  | int32 first =>
      cases isRight with
      | int32 second =>
          have nonzero' : second ≠ 0 := fun isZero => nonzero (congrArg Int32.toInt isZero)
          refine ⟨.int32 (first / second), .int32 (first % second), if_neg nonzero',
            .int32 _ ?_, if_neg nonzero', rfl, ?_⟩
          · rw [Int32.toInt_div]
            exact bmod_modEq _ 32
          · rw [← Int32.toInt_mod]
            exact .int32 _
      | int64 => cases sameType
  | int64 first =>
      cases isRight with
      | int32 => cases sameType
      | int64 second =>
          have nonzero' : second ≠ 0 := fun isZero => nonzero (congrArg Int64.toInt isZero)
          refine ⟨.int64 (first / second), .int64 (first % second), if_neg nonzero',
            .int64 _ ?_, if_neg nonzero', rfl, ?_⟩
          · rw [Int64.toInt_div]
            exact bmod_modEq _ 64
          · rw [← Int64.toInt_mod]
            exact .int64 _

end OneType

/-! ## Any types -/

theorem abs_tmod_lt (nonzero : divisor ≠ 0) : |dividend.tmod divisor| < |divisor| := by
  rw [Int.abs_eq_natAbs, Int.abs_eq_natAbs, Int.natAbs_tmod]
  exact_mod_cast Nat.mod_lt _ (Int.natAbs_pos.mpr nonzero)

theorem tmod_eq_zero_or_sign (dividend divisor : ℤ) :
    dividend.tmod divisor = 0 ∨ (dividend.tmod divisor).sign = dividend.sign := by
  by_cases divides : divisor ∣ dividend
  · exact .inl (Int.tmod_eq_zero_of_dvd divides)
  · right
    rw [Int.sign_tmod, if_neg divides]

/-- Division of integers fails exactly for a zero divisor.  Otherwise the quotient is the residue of
the truncated one, the remainder is exact, and both together restore the dividend. -/
theorem quotient_remainder (isLeft : left.IsWhole dividend) (isRight : right.IsWhole divisor) :
    let target := left.type.promoted right.type
    (∀ error, left.div right = .error error ↔ divisor = 0 ∧ error = .divisionByZero) ∧
    (∀ error, left.rem right = .error error ↔ divisor = 0 ∧ error = .divisionByZero) ∧
    (divisor ≠ 0 → ∃ quotient remainder : Number, ∃ rest : ℤ,
      left.div right = .ok quotient ∧ quotient.IsResidue target (dividend.tdiv divisor) ∧
      left.rem right = .ok remainder ∧ remainder.type = target ∧ remainder.IsWhole rest ∧
        |rest| < |divisor| ∧ (rest = 0 ∨ rest.sign = dividend.sign) ∧
      ∃ product restored : Number, quotient.mul right = .ok product ∧
        product.add remainder = .ok restored ∧ restored.type = target ∧
          restored.IsWhole dividend) := by
  intro target
  obtain ⟨wideLeft, wideRight, ⟨leftType, isLeft'⟩, ⟨rightType, isRight'⟩, unified, replaced⟩ :=
    exists_widened isLeft isRight
  have sameType : wideLeft.type = wideRight.type := leftType.trans rightType.symm
  have divides : left.div right = wideLeft.div wideRight := by rw [div, unified, ← div]
  have leaves : left.rem right = wideLeft.rem wideRight := by rw [rem, unified, ← rem]
  by_cases isZero : divisor = 0
  · obtain ⟨fails, fails'⟩ := isLeft'.div_zero isRight' sameType isZero
    rw [divides, leaves, fails, fails']
    simp [isZero, eq_comm]
  · obtain ⟨quotient, remainder, divided, isQuotient, leaves', remainderType, isRemainder⟩ :=
      isLeft'.exists_div_rem isRight' sameType isZero
    rw [leftType] at isQuotient remainderType
    rw [divides, leaves, divided, leaves']
    refine ⟨by simp [isZero], by simp [isZero], fun _ => ?_⟩
    obtain ⟨product, multiplied, isProduct⟩ := isQuotient.mul (rightType ▸ isRight'.isResidue)
    obtain ⟨restored, added, isRestored⟩ := isProduct.add (remainderType ▸ isRemainder.isResidue)
    rw [mul_comm, add_comm, Int.tmod_add_mul_tdiv] at isRestored
    obtain rfl := isRestored.unique (leftType ▸ isLeft'.isResidue)
    refine ⟨quotient, remainder, _, rfl, isQuotient, rfl, remainderType, isRemainder,
      abs_tmod_lt isZero, tmod_eq_zero_or_sign dividend divisor, product, restored, ?_, added,
      leftType, isLeft'⟩
    rw [mul, replaced quotient isQuotient.type_eq, ← mul, multiplied]

/-- The least integer divided by minus one is itself and leaves nothing, also where the divisor has
the narrower type. -/
theorem quotient_remainder_of_least :
    let least := Number.int64 Int64.minValue
    let minusOne := Number.int32 (-1)
    least.IsWhole (-2 ^ 63) ∧ minusOne.IsWhole (-1) ∧ least.div minusOne = .ok least ∧
      ∃ remainder product : Number, least.rem minusOne = .ok remainder ∧ remainder.IsWhole 0 ∧
        least.mul minusOne = .ok product ∧ product.add remainder = .ok least := by
  intro least minusOne
  have isLeast : least.IsWhole (-2 ^ 63) := .int64 Int64.minValue
  have isMinusOne : minusOne.IsWhole (-1) := .int32 (-1)
  obtain ⟨-, -, divides⟩ := quotient_remainder isLeast isMinusOne
  obtain ⟨quotient, remainder, rest, divided, isQuotient, leaves, -, isRest, small, -,
    product, restored, multiplied, added, restoredType, isRestored⟩ := divides (by decide)
  obtain rfl := isQuotient.unique (.int64 Int64.minValue (by decide))
  obtain rfl : rest = 0 := Int.abs_lt_one_iff.mp small
  have restoredResidue := isRestored.isResidue
  rw [restoredType] at restoredResidue
  obtain rfl := restoredResidue.unique isLeast.isResidue
  exact ⟨isLeast, isMinusOne, divided, remainder, product, leaves, isRest, multiplied, added⟩

end Formula.Number
