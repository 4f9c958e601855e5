import Formula.Builtin.Functions
import Formula.Proofs.Host.Failures
import Mathlib.Data.List.Basic

/-!
# Errors of the standard operations

What goes wrong in computing with values is a matter of their kinds and of the ranges of the numeric
types.  The standard operations and functions have no other errors, and an operator outside the
standard grammar has no operation.
-/

namespace Formula

/-- Computing with values does not lack operands. -/
inductive Error.OfComputation : Error → Prop
  | typeMismatch (operator : String) (left right : Kind) :
      OfComputation (.typeMismatch operator left right)
  | invalidArgument {fault : ArgumentFault} (complete : ∀ operator, fault ≠ .noOperand operator) :
      OfComputation (.invalidArgument fault)
  | divisionByZero : OfComputation .divisionByZero
  | overflow (operator : String) : OfComputation (.overflow operator)
  | unrepresentable (text : String) (target : NumericType) :
      OfComputation (.unrepresentable text target)

/-- A computation that fails, if at all, over its operands. -/
abbrev Computes {α : Type} (outcome : Except Error α) : Prop :=
  FailsWithin Error.OfComputation outcome

/-! ## Numbers -/

namespace Number

theorem computes_orUnrepresentable {α : Type} (text : String) (target : NumericType)
    (value : Option α) : Computes (orUnrepresentable text target value) := by
  cases value with
  | none => exact .error (.unrepresentable text target)
  | some value => exact .ok value

theorem computes_ofDouble (target : NumericType) (value : Double) :
    Computes (ofDouble target value) := by
  cases target with
  | float32 => exact .ok _
  | float64 => exact .ok _
  | decimal => exact (computes_orUnrepresentable _ _ _).map _
  | int32 => exact (computes_orUnrepresentable _ _ _).map _
  | int64 => exact (computes_orUnrepresentable _ _ _).map _

theorem computes_cast (target : NumericType) (value : Number) : Computes (value.cast target) := by
  cases value with
  | float32 value =>
      simp only [cast]
      split
      · exact .ok _
      · exact computes_ofDouble _ _
  | float64 value => exact computes_ofDouble _ _
  | decimal value =>
      simp only [cast, castDecimal]
      split
      · exact (computes_orUnrepresentable _ _ _).map _
      · exact (computes_orUnrepresentable _ _ _).map _
      · exact .ok _
      · exact computes_ofDouble _ _
      · exact computes_ofDouble _ _
  | int32 value => exact .ok _
  | int64 value =>
      cases target with
      | int32 => exact (computes_orUnrepresentable _ _ _).map _
      | _ => exact .ok _

theorem computes_toDecimal (value : Number) : Computes value.toDecimal := by
  cases value with
  | float32 value => exact computes_orUnrepresentable _ _ _
  | float64 value => exact computes_orUnrepresentable _ _ _
  | _ => exact .ok _

theorem computes_unify (left right : Number) : Computes (left.unify right) := by
  unfold unify
  split
  · exact (computes_toDecimal _).bind fun _ => .ok _
  · exact (computes_toDecimal _).bind fun _ => .ok _
  all_goals exact .ok _

theorem computes_decimalOr (operator : String) (value : Option Decimal) :
    Computes (decimalOr operator value) := by
  cases value with
  | none => exact .error (.overflow operator)
  | some value => exact .ok _

theorem computes_add (left right : Number) : Computes (left.add right) := by
  refine (computes_unify left right).bind fun matched => ?_
  cases matched with
  | decimal left right => exact computes_decimalOr _ _
  | _ => exact .ok _

theorem computes_sub (left right : Number) : Computes (left.sub right) := by
  refine (computes_unify left right).bind fun matched => ?_
  cases matched with
  | decimal left right => exact computes_decimalOr _ _
  | _ => exact .ok _

theorem computes_mul (left right : Number) : Computes (left.mul right) := by
  refine (computes_unify left right).bind fun matched => ?_
  cases matched with
  | decimal left right => exact computes_decimalOr _ _
  | _ => exact .ok _

theorem computes_of_divisor {α : Type} {isZero : Prop} [Decidable isZero]
    {quotient : Except Error α} (computes : Computes quotient) :
    Computes (if isZero then .error .divisionByZero else quotient) := by
  split
  · exact .error .divisionByZero
  · exact computes

theorem computes_div (left right : Number) : Computes (left.div right) := by
  refine (computes_unify left right).bind fun matched => ?_
  cases matched with
  | decimal left right => exact computes_of_divisor (computes_decimalOr _ _)
  | int32 left right => exact computes_of_divisor (.ok _)
  | int64 left right => exact computes_of_divisor (.ok _)
  | _ => exact .ok _

theorem computes_rem (left right : Number) : Computes (left.rem right) := by
  refine (computes_unify left right).bind fun matched => ?_
  cases matched with
  | decimal left right => exact computes_of_divisor (computes_decimalOr _ _)
  | int32 left right => exact computes_of_divisor (.ok _)
  | int64 left right => exact computes_of_divisor (.ok _)
  | _ => exact .ok _

theorem computes_factorial (value : Number) : Computes value.factorial := by
  have orOverflow {α : Type} (value : Option α) : Computes (orOverflow "!" value) := by
    cases value with
    | none => exact .error (.overflow "!")
    | some value => exact .ok value
  cases value with
  | float32 value => exact .ok _
  | float64 value => exact .ok _
  | decimal value => exact (orOverflow _).map _
  | int32 value => exact (orOverflow _).map _
  | int64 value => exact (orOverflow _).map _

end Number

/-! ## Operations -/

namespace Standard

variable (conventions : Conventions) (operator : String) (left right : Value)

theorem computes_numericOperands :
    Computes (numericOperands conventions operator left right) := by
  unfold numericOperands
  split
  · exact .ok _
  · exact .ok _
  · exact .ok _
  · exact .error (.typeMismatch _ _ _)

theorem computes_arithmetic {compute : Number → Number → Except Error Number}
    (computes : ∀ left right, Computes (compute left right)) :
    Computes (arithmetic conventions operator compute left right) := by
  refine (computes_numericOperands conventions operator left right).bind fun operands => ?_
  cases operands with
  | none => exact .ok _
  | some operands => exact (computes _ _).bind fun _ => .ok _

theorem computes_integral (compute : Int64 → Int64 → Int64) :
    Computes (integral conventions operator compute left right) := by
  refine (computes_numericOperands conventions operator left right).bind fun operands => ?_
  cases operands with
  | none => exact .ok _
  | some operands => exact .ok _

theorem computes_add : Computes (add conventions left right) := by
  unfold add
  split
  · exact .ok _
  · exact .ok _
  · exact computes_arithmetic conventions "+" left right Number.computes_add

theorem computes_order : Computes (order conventions operator left right) := by
  unfold order
  split
  · exact .ok _
  · exact .ok _
  · exact .ok _
  · exact .error (.typeMismatch _ _ _)

theorem computes_factorial (operand : Value) : Computes (factorial conventions operand) := by
  unfold factorial
  split
  · exact .ok _
  · exact (Number.computes_factorial _).map _
  · exact .error (.typeMismatch _ _ _)

end Standard

namespace Operators

open Standard

/-- An error of an operator: of the computation, or for want of an operation or of operands. -/
def Fault (error : Error) : Prop :=
  error.OfComputation ∨ ∃ operator,
    error = .unknownOperator operator ∨ error = .invalidArgument (.noOperand operator)

/-- The operators that there are operations for, with the sides on which they take operands.  A sign
with one operand is no operator node of its own. -/
inductive Knows : (operator : String) → (left right : Bool) → Prop
  | negation : Knows "!" false true
  | factorial : Knows "!" true false
  | binary {operator : String} (member : operator ∈ Grammar.standardTiers.flatten)
      (notUnary : operator ≠ "!") : Knows operator true true

variable (environment : Environment)

theorem computes_convertToNumber (text : String) :
    Computes (standard.convertToNumber environment text) :=
  (Number.computes_orUnrepresentable _ _ _).map _

theorem fails_standard_applyBinary (operator : String) (left right : Value) :
    FailsWithin
      (fun error => error.OfComputation ∨
        ¬ Knows operator true true ∧ error = .unknownOperator operator)
      (standard.applyBinary environment operator left right) := by
  have computed {outcome : Except Error Value} (computes : Computes outcome) :
      FailsWithin (fun error => error.OfComputation ∨
        ¬ Knows operator true true ∧ error = .unknownOperator operator) outcome :=
    computes.mono fun _ => .inl
  have power : Computes (Standard.pow environment.conventions left right) :=
    computes_arithmetic _ _ _ _ fun _ _ => Number.computes_ofDouble _ _
  unfold applyBinary
  split
  · exact computed (computes_add _ _ _)
  · exact computed (computes_arithmetic _ _ _ _ Number.computes_sub)
  · exact computed (computes_arithmetic _ _ _ _ Number.computes_mul)
  · exact computed (computes_arithmetic _ _ _ _ Number.computes_div)
  · exact computed (computes_arithmetic _ _ _ _ Number.computes_div)
  · exact computed (computes_arithmetic _ _ _ _ Number.computes_rem)
  · exact computed power
  · exact computed (computes_integral _ _ _ _ _)
  · exact computed (computes_integral _ _ _ _ _)
  · exact computed (computes_integral _ _ _ _ _)
  · exact computed (computes_integral _ _ _ _ _)
  · exact computed (computes_integral _ _ _ _ _)
  · exact computed ((computes_order _ _ _ _).bind fun _ => .ok _)
  · exact computed ((computes_order _ _ _ _).bind fun _ => .ok _)
  · exact computed ((computes_order _ _ _ _).bind fun _ => .ok _)
  · exact computed ((computes_order _ _ _ _).bind fun _ => .ok _)
  · exact .ok _
  · exact .ok _
  · exact .ok _
  · exact .ok _
  · exact .ok _
  · exact .ok _
  · refine .error (.inr ⟨?_, rfl⟩)
    rintro ⟨member, notUnary⟩
    simp_all [Grammar.standardTiers]

theorem fails_standard_apply (operator : String) (left right : Option Value) :
    FailsWithin Fault (standard.apply environment operator left right) := by
  match left, right with
  | some left, some right =>
      exact (fails_standard_applyBinary environment operator left right).mono fun _ =>
        Or.imp_right fun unknown => ⟨operator, .inl unknown.2⟩
  | none, some operand =>
      simp only [apply, applyPrefix]
      split
      · exact .ok _
      · exact (computes_arithmetic _ _ _ _ Number.computes_sub).mono fun _ => .inl
      · exact .ok _
      · exact .error (.inr ⟨_, .inl rfl⟩)
  | some operand, none =>
      simp only [apply, applySuffix]
      split
      · exact (computes_factorial _ _).mono fun _ => .inl
      · exact .error (.inr ⟨_, .inl rfl⟩)
  | none, none => exact .error (.inr ⟨operator, .inr rfl⟩)

/-- An operator that is known has an operation for just these operands. -/
theorem computes_standard_apply {operator : String} {left right : Option Value}
    (knows : Knows operator left.isSome right.isSome) :
    Computes (standard.apply environment operator left right) := by
  match left, right with
  | none, none => cases knows
  | none, some operand =>
      obtain ⟨⟩ := knows
      exact .ok _
  | some operand, none =>
      obtain ⟨⟩ := knows
      exact computes_factorial environment.conventions operand
  | some left, some right =>
      refine (fails_standard_applyBinary environment operator left right).mono fun error fault => ?_
      obtain computed | ⟨unknown, -⟩ := fault
      · exact computed
      · exact absurd knows unknown

end Operators

/-! ## Functions -/

namespace Builtin

variable (conventions : Conventions) (values : List Value)

theorem computes_numericArgument (index : Nat) :
    Computes (numericArgument conventions values index) := by
  have supplied : Computes (argument values index) := by
    unfold argument
    split
    · exact .ok _
    · exact .error (.invalidArgument nofun)
  refine supplied.bind fun value => ?_
  split
  · exact .ok _
  · exact .ok _
  · exact .ok _
  · exact .error (.invalidArgument nofun)

theorem computes_conventions_ofDouble (value : Double) : Computes (conventions.ofDouble value) :=
  (Number.computes_ofDouble _ _).map _

theorem computes_unary (compute : Double → Double) : Computes (unary compute conventions values) :=
  (computes_numericArgument conventions values 0).bind fun _ =>
    computes_conventions_ofDouble conventions _

theorem computes_binary (compute : Double → Double → Double) :
    Computes (binary compute conventions values) :=
  (computes_numericArgument conventions values 0).bind fun _ =>
    (computes_numericArgument conventions values 1).bind fun _ =>
      computes_conventions_ofDouble conventions _

theorem computes_log : Computes (log conventions values) := by
  refine (computes_numericArgument conventions values 0).bind fun _ => ?_
  split
  · exact (computes_numericArgument conventions values 1).bind fun _ =>
      computes_conventions_ofDouble conventions _
  · exact computes_conventions_ofDouble conventions _

theorem computes_rounded (rounding : Rounding) : Computes (rounded rounding conventions values) :=
  (computes_numericArgument conventions values 0).bind fun _ =>
    (Number.computes_cast _ _).bind fun _ => .ok _

theorem computes_abs : Computes (abs conventions values) :=
  (computes_numericArgument conventions values 0).bind fun _ =>
    (Number.computes_cast _ _).bind fun _ => .ok _

theorem computes_sign : Computes (sign conventions values) := by
  refine (computes_numericArgument conventions values 0).bind fun value => ?_
  split
  · exact .error (.invalidArgument nofun)
  · exact .ok _

theorem computes_extremumFrom (wanted : Ordering) (best : Option Value) :
    Computes (extremumFrom conventions wanted best values) := by
  have ordered (left right : Value) : Computes (orderArguments left right) := by
    unfold orderArguments
    split
    · exact .ok _
    · exact .ok _
    · exact .ok _
    · exact .error (.invalidArgument nofun)
  induction values generalizing best with
  | nil => exact .ok _
  | cons value values ih =>
      unfold extremumFrom
      split
      · exact .ok _
      · exact ih _
      · exact (ordered _ _).bind fun _ => ih _

theorem computes_of_mem {entry : String × Operation} (member : entry ∈ operations) :
    Computes (entry.2 conventions values) := by
  have ofDoubles := computes_unary conventions values
  have ofDoublePairs := computes_binary conventions values
  have rounds := computes_rounded conventions values
  have selects (wanted : Ordering) := computes_extremumFrom conventions values wanted none
  revert entry
  rw [← List.forall_iff_forall_mem]
  exact ⟨computes_abs conventions values, ofDoubles _, ofDoubles _, ofDoubles _, ofDoublePairs _,
    rounds _, ofDoubles _, ofDoubles _, ofDoubles _, rounds _, computes_log conventions values,
    ofDoubles _, ofDoubles _, selects _, selects _, ofDoublePairs _, rounds _,
    computes_sign conventions values, ofDoubles _, ofDoubles _, ofDoubles _, ofDoubles _,
    ofDoubles _, rounds _⟩

end Builtin

end Formula
