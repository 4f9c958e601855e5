import Formula.Builtin.Functions
import Formula.Operators.Standard
import Formula.Proofs.Number.Conversion

/-!
# Results of integer configurations

Where numbers are integers, powers and most functions compute in another representation and convert
what they get.  The result is the integer nearest to what was computed, or the computation fails; it
is never a third number, except that 2 ^ 63 as a float becomes the largest 64-bit integer.
-/

namespace Formula

variable {conventions : Conventions}

theorem Number.ofDouble_eq_error_iff {target : NumericType} (integer : target.isInteger = true)
    {value : Double} {error : Error} :
    ofDouble target value = .error error ↔ error = .unrepresentable value.text target ∧
      ∀ number, ¬ (float64 value).ConvertsTo target number := by
  have total : (∃ number, ofDouble target value = .ok number) ∨
      ofDouble target value = .error (.unrepresentable value.text target) := by
    cases target with
    | int32 =>
        cases converted : int32OfDouble? value <;>
          simp [ofDouble, converted, orUnrepresentable, Except.map]
    | int64 =>
        cases converted : int64OfDouble? value <;>
          simp [ofDouble, converted, orUnrepresentable, Except.map]
    | float32 | float64 | decimal => cases integer
  simp only [← ofDouble_eq_ok_iff integer]
  rcases total with ⟨number, converted⟩ | failed
  · simp [converted]
  · simp [failed, eq_comm]

/-! ## Powers -/

namespace Standard

variable {left right : Value} {number : Number}

theorem arithmetic_eq_number_iff {operator : String}
    {compute : Number → Number → Except Error Number} :
    arithmetic conventions operator compute left right = .ok (.number number) ↔
      ∃ first second, conventions.convert left = .number first ∧
        conventions.convert right = .number second ∧ compute first second = .ok number := by
  unfold arithmetic numericOperands
  split
  · next first second isFirst isSecond =>
      cases computed : compute first second <;>
        simp [computed, isFirst, isSecond, bind, Except.bind, pure, Except.pure]
  · next isNull => simp [isNull, bind, Except.bind, pure, Except.pure]
  · next isNull _ => simp [isNull, bind, Except.bind, pure, Except.pure]
  · next notBoth =>
      simp only [bind, Except.bind, reduceCtorEq, false_iff, not_exists, not_and]
      exact fun first second isFirst isSecond _ => notBoth first second isFirst isSecond

theorem pow_eq_number_iff (integer : conventions.numericType.isInteger = true) :
    pow conventions left right = .ok (.number number) ↔
      ∃ base exponent, conventions.convert left = .number base ∧
        conventions.convert right = .number exponent ∧
          (Number.float64 (base.toDouble.pow exponent.toDouble)).ConvertsTo conventions.numericType
            number := by
  simp only [pow, arithmetic_eq_number_iff, Number.ofDouble_eq_ok_iff integer]

end Standard

/-! ## Functions -/

namespace Builtin

variable {values : List Value}

/-- The number that an operation computes before it is converted to the configured type. -/
inductive Answers (conventions : Conventions) (values : List Value) : Operation → Number → Prop
  | unary {compute : Double → Double} {value : Number}
      (isValue : numericArgument conventions values 0 = .ok value) :
      Answers conventions values (unary compute) (.float64 (compute value.toDouble))
  | binary {compute : Double → Double → Double} {left right : Number}
      (isLeft : numericArgument conventions values 0 = .ok left)
      (isRight : numericArgument conventions values 1 = .ok right) :
      Answers conventions values (binary compute) (.float64 (compute left.toDouble right.toDouble))
  | naturalLog {value : Number} (isValue : numericArgument conventions values 0 = .ok value)
      (notTwo : values.length ≠ 2) :
      Answers conventions values log (.float64 value.toDouble.log)
  | logToBase {value base : Number} (isValue : numericArgument conventions values 0 = .ok value)
      (isBase : numericArgument conventions values 1 = .ok base) (two : values.length = 2) :
      Answers conventions values log (.float64 (value.toDouble.log.div base.toDouble.log))
  | rounded {rounding : Rounding} {value : Number}
      (isValue : numericArgument conventions values 0 = .ok value) :
      Answers conventions values (rounded rounding) (roundNumber rounding value)
  | abs {value : Number} (isValue : numericArgument conventions values 0 = .ok value) :
      Answers conventions values abs value.abs
  | sign {value : Number} (isValue : numericArgument conventions values 0 = .ok value)
      (notNaN : value.isNaN = false) :
      Answers conventions values sign (.int64 value.signum)

/-- The result is what an operation computed, converted to the configured type. -/
def Converts (conventions : Conventions) (operation : Operation) : Prop :=
  ∀ ⦃values : List Value⦄ ⦃number : Number⦄, operation conventions values = .ok (.number number) →
    ∃ computed, Answers conventions values operation computed ∧
      computed.ConvertsTo conventions.numericType number

variable (integer : conventions.numericType.isInteger = true)
include integer

theorem convertsTo_of_ofDouble {value : Double} {number : Number}
    (converted : conventions.ofDouble value = .ok (.number number)) :
    (Number.float64 value).ConvertsTo conventions.numericType number := by
  obtain ⟨_, converted, ⟨⟩⟩ := map_eq_ok_iff.mp converted
  exact (Number.ofDouble_eq_ok_iff integer).mp converted

theorem converts_unary (compute : Double → Double) : Converts conventions (unary compute) := by
  intro values number result
  obtain ⟨value, isValue, converted⟩ := bind_eq_ok_iff.mp result
  exact ⟨_, .unary isValue, convertsTo_of_ofDouble integer converted⟩

theorem converts_binary (compute : Double → Double → Double) :
    Converts conventions (binary compute) := by
  intro values number result
  obtain ⟨left, isLeft, result⟩ := bind_eq_ok_iff.mp result
  obtain ⟨right, isRight, converted⟩ := bind_eq_ok_iff.mp result
  exact ⟨_, .binary isLeft isRight, convertsTo_of_ofDouble integer converted⟩

theorem converts_log : Converts conventions log := by
  intro values number result
  obtain ⟨value, isValue, result⟩ := bind_eq_ok_iff.mp result
  split at result
  · next two =>
      obtain ⟨base, isBase, converted⟩ := bind_eq_ok_iff.mp result
      exact ⟨_, .logToBase isValue isBase two, convertsTo_of_ofDouble integer converted⟩
  · next notTwo => exact ⟨_, .naturalLog isValue notTwo, convertsTo_of_ofDouble integer result⟩

theorem converts_rounded (rounding : Rounding) : Converts conventions (rounded rounding) := by
  intro values number result
  obtain ⟨value, isValue, result⟩ := bind_eq_ok_iff.mp result
  obtain ⟨converted, cast, ⟨⟩⟩ := bind_eq_ok_iff.mp result
  exact ⟨_, .rounded isValue, (Number.cast_eq_ok_iff integer).mp cast⟩

theorem converts_abs : Converts conventions abs := by
  intro values number result
  obtain ⟨value, isValue, result⟩ := bind_eq_ok_iff.mp result
  obtain ⟨converted, cast, ⟨⟩⟩ := bind_eq_ok_iff.mp result
  exact ⟨_, .abs isValue, (Number.cast_eq_ok_iff integer).mp cast⟩

/-- A sign fits every integer type. -/
theorem converts_sign : Converts conventions sign := by
  intro values number result
  obtain ⟨value, isValue, result⟩ := bind_eq_ok_iff.mp result
  split at result
  · cases result
  · next notNaN =>
      cases result
      refine ⟨_, .sign isValue (Bool.eq_false_iff.mpr notNaN),
        (Number.cast_eq_ok_iff integer).mp ?_⟩
      unfold Number.signum
      cases target : conventions.numericType with
      | int32 => split <;> decide
      | int64 => rfl
      | float32 | float64 | decimal => simp [target, NumericType.isInteger] at integer

omit integer in
theorem mem_of_extremumFrom {wanted : Ordering} {best : Option Value} {number : Number}
    (result : extremumFrom conventions wanted best values = .ok (.number number)) :
    best = some (.number number) ∨
      ∃ value ∈ values, conventions.convert value = .number number := by
  induction values generalizing best with
  | nil =>
      cases best with
      | none => cases result
      | some best => exact .inl (congrArg some (Except.ok.inj result))
  | cons value values ih =>
      unfold extremumFrom at result
      split at result
      · cases result
      · rcases ih result with isFirst | ⟨value', member, isNumber⟩
        · exact .inr ⟨value, .head _, Option.some.inj isFirst⟩
        · exact .inr ⟨value', .tail _ member, isNumber⟩
      · obtain ⟨order, -, result⟩ := bind_eq_ok_iff.mp result
        rcases ih result with isBest | ⟨value', member, isNumber⟩
        · split at isBest
          · exact .inr ⟨value, .head _, Option.some.inj isBest⟩
          · exact .inl isBest
        · exact .inr ⟨value', .tail _ member, isNumber⟩

/-- Only an extremum does not compute a number of its own. -/
theorem converts_or_extremum {entry : String × Operation} (member : entry ∈ operations) :
    Converts conventions entry.2 ∨ ∃ wanted, entry.2 = extremum wanted := by
  have ofDoubles (compute : Double → Double) := converts_unary integer compute
  have ofDoublePairs (compute : Double → Double → Double) := converts_binary integer compute
  have rounds (rounding : Rounding) := converts_rounded integer rounding
  revert entry
  rw [← List.forall_iff_forall_mem]
  exact ⟨.inl (converts_abs integer), .inl (ofDoubles _), .inl (ofDoubles _), .inl (ofDoubles _),
    .inl (ofDoublePairs _), .inl (rounds _), .inl (ofDoubles _), .inl (ofDoubles _),
    .inl (ofDoubles _), .inl (rounds _), .inl (converts_log integer), .inl (ofDoubles _),
    .inl (ofDoubles _), .inr ⟨_, rfl⟩, .inr ⟨_, rfl⟩, .inl (ofDoublePairs _), .inl (rounds _),
    .inl (converts_sign integer), .inl (ofDoubles _), .inl (ofDoubles _), .inl (ofDoubles _),
    .inl (ofDoubles _), .inl (ofDoubles _), .inl (rounds _)⟩

end Builtin

/-! ## Nothing else changes a number -/

/-- In an integer configuration a conversion of a double gives the nearest integer, or fails where
the type does not have it, and so do the casts that give the results of powers and functions.  Only
2 ^ 63 as a float is another number afterwards. -/
theorem Conventions.converts_to_nearest (integer : conventions.numericType.isInteger = true) :
    (∀ value number, Number.ofDouble conventions.numericType value = .ok number ↔
      (Number.float64 value).ConvertsTo conventions.numericType number) ∧
    (∀ value error, Number.ofDouble conventions.numericType value = .error error ↔
      error = .unrepresentable value.text conventions.numericType ∧
        ∀ number, ¬ (Number.float64 value).ConvertsTo conventions.numericType number) ∧
    (∀ source number, Number.cast conventions.numericType source = .ok number ↔
      source.ConvertsTo conventions.numericType number) ∧
    (∀ left right number, Standard.pow conventions left right = .ok (.number number) ↔
      ∃ base exponent, conventions.convert left = .number base ∧
        conventions.convert right = .number exponent ∧
          (Number.float64 (base.toDouble.pow exponent.toDouble)).ConvertsTo conventions.numericType
            number) ∧
    ∀ entry ∈ Builtin.operations, ∀ values number,
      entry.2 conventions values = .ok (.number number) →
        (∃ computed, Builtin.Answers conventions values entry.2 computed ∧
          computed.ConvertsTo conventions.numericType number) ∨
        (∃ wanted, entry.2 = Builtin.extremum wanted) ∧
          ∃ value ∈ values, conventions.convert value = .number number := by
  refine ⟨fun _ _ => Number.ofDouble_eq_ok_iff integer,
    fun _ _ => Number.ofDouble_eq_error_iff integer, fun _ _ => Number.cast_eq_ok_iff integer,
    fun _ _ _ => Standard.pow_eq_number_iff integer, fun entry member values number result => ?_⟩
  rcases Builtin.converts_or_extremum integer member with converts | ⟨wanted, isExtremum⟩
  · exact .inl (converts result)
  · rw [isExtremum] at result
    rcases Builtin.mem_of_extremumFrom result with none | isArgument
    · cases none
    · exact .inr ⟨⟨wanted, isExtremum⟩, isArgument⟩

/-- Two and a half, between two integers that are equally near. -/
def twoAndAHalf : Double := .finite false (5 * 2 ^ (50 : ℕ)) (-51) (by decide)

theorem Conventions.converts_to_nearest_of_tie :
    (Conventions.ofType .int64).numericType.isInteger = true ∧
      Number.ofDouble .int64 twoAndAHalf = .ok (.int64 2) := by
  have exact_ : (Number.float64 twoAndAHalf).value? = some (5 / 2) := by
    norm_num [Number.value?, Binary.value?, twoAndAHalf, signed]
  have nearest : IsNearestEven (5 / 2) 2 := by
    constructor <;> norm_num
  have integer : (Conventions.ofType .int64).numericType.isInteger = true := rfl
  exact ⟨integer, ((Conventions.converts_to_nearest integer).1 _ _).mpr
    (.inl ⟨_, 2, exact_, nearest, rfl, rfl⟩)⟩

/-- The double 2 ^ 63. -/
def twoPow63 : Double := .finite false (2 ^ (52 : ℕ)) 11 (by decide)

/-- The largest 64-bit integer stands for a number that is one more. -/
theorem Number.not_ofDouble_rounds :
    ¬ ∀ (target : NumericType) (value : Double) (number : Number), target.isInteger = true →
      (ofDouble target value = .ok number ↔ (float64 value).RoundsTo target number) := by
  intro always
  have converted : ofDouble .int64 twoPow63 = .ok (.int64 Int64.maxValue) := by decide
  obtain ⟨exact_, whole, isExact, nearest, -, isWhole⟩ := (always _ _ _ rfl).mp converted
  have value : (float64 twoPow63).value? = some (2 ^ 63) := by
    norm_num [Number.value?, Binary.value?, twoPow63, signed]
  rw [value] at isExact
  obtain rfl := Option.some.inj isExact
  have largest : whole = Int64.maxValue.toInt := by simpa [Number.value?, eq_comm] using isWhole
  have near := nearest.near
  rw [largest, show Int64.maxValue.toInt = 2 ^ 63 - 1 by decide] at near
  norm_num at near

end Formula
