import Formula.Operators.Basic
import Formula.Proofs.Number.Negation

/-!
# Differences with a negated operand

Where the standard operations cannot tell an operand from its opposite behind the other sign: null
swallows both, and numbers add as their opposites subtract.  A string does not, since a plus joins
texts and a minus reads numbers, and neither does an operand that only one of the signs is blamed
for.
-/

namespace Formula.Standard

variable {conventions : Conventions} {left right : Value}

def IsString (value : Value) : Prop :=
  ∃ text, value = .string text

/-- The values whose difference is the sum of the left one and the negated right one. -/
inductive AddsNegated (conventions : Conventions) : (left right : Value) → Prop
  | null {left : Value} (notString : ¬ IsString left) : AddsNegated conventions left .null
  | toNull {right : Value} {number : Number}
      (isNumber : conventions.convert right = .number number) : AddsNegated conventions .null right
  | numbers {left number : Number} {right : Value}
      (isNumber : conventions.convert right = .number number)
      (offsettable : left.Offsettable conventions.numericType number)
      (noOverflow : left.sub number ≠ .error (.overflow "-")) :
      AddsNegated conventions (.number left) right
  | unfit {left right : Value} {number : Number}
      (isNumber : conventions.convert left = .number number)
      (notNumber : ∀ number, conventions.convert right ≠ .number number) (notNull : right ≠ .null) :
      AddsNegated conventions left right

/-- The values whose sum is the difference of the left one and the negated right one. -/
inductive SubtractsNegated (conventions : Conventions) : (left right : Value) → Prop
  | null {left : Value} (notString : ¬ IsString left) : SubtractsNegated conventions left .null
  | fromNull (right : Number) : SubtractsNegated conventions .null (.number right)
  | numbers {left right : Number} (offsettable : left.Offsettable conventions.numericType right)
      (noOverflow : left.add right ≠ .error (.overflow "+")) :
      SubtractsNegated conventions (.number left) (.number right)

theorem convert_eq_null_iff : conventions.convert right = .null ↔ right = .null := by
  unfold Conventions.convert
  split
  · split
    · split <;> simp
    · simp
  · rfl

theorem convert_number (conventions : Conventions) (number : Number) :
    conventions.convert (.number number) = .number number := rfl

/-! ## Arithmetic by the kinds of its operands -/

section Arithmetic

variable {operator : String} {compute : Number → Number → Except Error Number}

theorem arithmetic_null_left :
    arithmetic conventions operator compute .null right = .ok .null := by
  have nothing : numericOperands conventions operator .null right = .ok none := by
    unfold numericOperands
    cases conventions.convert right <;> rfl
  rw [arithmetic, nothing]
  rfl

theorem arithmetic_null_right :
    arithmetic conventions operator compute left .null = .ok .null := by
  have nothing : numericOperands conventions operator left .null = .ok none := by
    unfold numericOperands
    cases conventions.convert left <;> rfl
  rw [arithmetic, nothing]
  rfl

theorem arithmetic_numbers {first second : Number}
    (isFirst : conventions.convert left = .number first)
    (isSecond : conventions.convert right = .number second) :
    arithmetic conventions operator compute left right = (compute first second).map .number := by
  have both : numericOperands conventions operator left right = .ok (some (first, second)) := by
    simp only [numericOperands, isFirst, isSecond]
  rw [arithmetic, both]
  cases computed : compute first second <;> simp [computed, bind, Except.bind] <;> rfl

theorem arithmetic_unfit {number : Number} (isNumber : conventions.convert left = .number number)
    (notNumber : ∀ number, conventions.convert right ≠ .number number) (notNull : right ≠ .null) :
    arithmetic conventions operator compute left right =
      .error (.typeMismatch operator .number (conventions.convert right).kind) := by
  have notNull : conventions.convert right ≠ .null := mt convert_eq_null_iff.mp notNull
  have mismatch : numericOperands conventions operator left right =
      .error (.typeMismatch operator .number (conventions.convert right).kind) := by
    unfold numericOperands
    rw [isNumber]
    cases converted : conventions.convert right with
    | null => exact absurd converted notNull
    | number number => exact absurd converted (notNumber number)
    | bool | string | array => rfl
  rw [arithmetic, mismatch]
  rfl

end Arithmetic

theorem add_eq_arithmetic (leftNotString : ¬ IsString left) (rightNotString : ¬ IsString right) :
    add conventions left right = arithmetic conventions "+" Number.add left right := by
  unfold add
  split
  · exact absurd ⟨_, rfl⟩ leftNotString
  · exact absurd ⟨_, rfl⟩ rightNotString
  · rfl

theorem add_null_left (conventions : Conventions) (number : Number) :
    add conventions .null (.number number) = .ok .null :=
  arithmetic_null_left

theorem add_null_right (notString : ¬ IsString left) : add conventions left .null = .ok .null := by
  rw [add_eq_arithmetic notString (by simp [IsString]), arithmetic_null_right]

theorem add_numbers (conventions : Conventions) (first second : Number) :
    add conventions (.number first) (.number second) = (first.add second).map .number :=
  arithmetic_numbers rfl rfl

theorem subtract_numbers {first second : Number}
    (isFirst : conventions.convert left = .number first)
    (isSecond : conventions.convert right = .number second) :
    subtract conventions left right = (first.sub second).map .number :=
  arithmetic_numbers isFirst isSecond

/-! ## Both signs -/

section Signs

variable (integer : conventions.numericType.isInteger = true)
include integer

theorem exists_zero_subtract {number : Number}
    (isNumber : conventions.convert right = .number number) :
    ∃ opposite, subtract conventions (.number conventions.zero) right = .ok (.number opposite) ∧
      ∀ left : Number, left.Offsettable conventions.numericType number →
        left.Meets number opposite := by
  obtain ⟨opposite, difference, meets⟩ := Number.exists_zero_sub integer number
  refine ⟨opposite, ?_, meets⟩
  rw [subtract_numbers (convert_number conventions _) isNumber, Conventions.zero, difference]
  rfl

theorem add_subtract_zero (negated : AddsNegated conventions left right) :
    (subtract conventions (.number conventions.zero) right >>= add conventions left) =
      subtract conventions left right := by
  cases negated with
  | null notString =>
      rw [subtract, arithmetic_null_right, arithmetic_null_right]
      exact add_null_right notString
  | toNull isNumber =>
      obtain ⟨opposite, negation, -⟩ := exists_zero_subtract integer isNumber
      rw [negation, subtract, arithmetic_null_left]
      exact add_null_left conventions opposite
  | @numbers first second _ isNumber offsettable noOverflow =>
      obtain ⟨opposite, negation, meets⟩ := exists_zero_subtract integer isNumber
      rw [negation, subtract_numbers (convert_number conventions first) isNumber,
        ← (meets first offsettable).add_eq_sub noOverflow]
      exact add_numbers conventions first opposite
  | unfit isNumber notNumber notNull =>
      rw [subtract, arithmetic_unfit (convert_number conventions _) notNumber notNull,
        arithmetic_unfit isNumber notNumber notNull]
      rfl

theorem subtract_subtract_zero (negated : SubtractsNegated conventions left right) :
    (subtract conventions (.number conventions.zero) right >>= subtract conventions left) =
      add conventions left right := by
  cases negated with
  | null notString =>
      rw [add_null_right notString, subtract, arithmetic_null_right, ← subtract]
      show subtract conventions left .null = .ok .null
      rw [subtract, arithmetic_null_right]
  | fromNull right =>
      obtain ⟨opposite, negation, -⟩ :=
        exists_zero_subtract integer (convert_number conventions right)
      rw [negation, add_null_left]
      show subtract conventions .null (.number opposite) = .ok .null
      rw [subtract, arithmetic_null_left]
  | @numbers first second offsettable noOverflow =>
      obtain ⟨opposite, negation, meets⟩ :=
        exists_zero_subtract integer (convert_number conventions second)
      rw [negation, add_numbers, ← (meets first offsettable).sub_eq_add noOverflow]
      exact subtract_numbers (convert_number conventions first)
        (convert_number conventions opposite)

end Signs

end Formula.Standard
