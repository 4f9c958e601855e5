import Formula.Number.Arithmetic
import Formula.Numeral.Number
import Formula.Operators.Factorial
import Formula.Proofs.Outcome

/-!
# Representations of results

Every conversion ends in the representation it was asked for.  Arithmetic ends in that of the
operand with the higher rank, and what has one operand keeps its representation.
-/

namespace Formula

namespace Number

/-! ## Conversions -/

abbrev HasType (type : NumericType) (value : Number) : Prop :=
  value.type = type

theorem type_ofInt64 (target : NumericType) (value : Int64) :
    (ofInt64 target value).type = target := by
  cases target with
  | float32 | float64 | decimal | int32 | int64 => rfl

theorem gives_ofDouble (target : NumericType) (value : Double) :
    Gives (HasType target) (ofDouble target value) := by
  cases target with
  | float32 | float64 => exact .ok rfl
  | decimal | int32 | int64 => exact .of_map fun _ => rfl

theorem gives_cast (target : NumericType) (value : Number) :
    Gives (HasType target) (value.cast target) := by
  cases value with
  | float32 value =>
      simp only [cast]
      split
      · next same => exact .ok same.symm
      · exact gives_ofDouble target _
  | float64 value => exact gives_ofDouble target value
  | decimal value =>
      cases target with
      | int32 | int64 => exact .of_map fun _ => rfl
      | decimal => exact .ok rfl
      | float32 | float64 => exact gives_ofDouble _ _
  | int32 value => exact .ok (type_ofInt64 target _)
  | int64 value =>
      cases target with
      | int32 => exact .of_map fun _ => rfl
      | float32 | float64 | decimal | int64 => exact .ok (type_ofInt64 _ value)

theorem type_of_read? {target : NumericType} {format : NumberFormat} {text : String}
    {value : Number} (reads : read? target format text = some value) : value.type = target := by
  obtain ⟨numeral, -, converts⟩ := Option.bind_eq_some_iff.mp reads
  cases target with
  | float32 | float64 =>
      cases converts
      rfl
  | decimal | int32 | int64 =>
      obtain ⟨_, -, rfl⟩ := Option.map_eq_some_iff.mp converts
      rfl

end Number

/-! ## Two operands -/

/-- The type in which numbers of two types meet. -/
def NumericType.promoted (left right : NumericType) : NumericType :=
  if left.rank < right.rank then right else left

theorem NumericType.promoted_self (type : NumericType) : type.promoted type = type := by
  simp [promoted]

namespace Number

def Matched.type (matched : Matched) : NumericType :=
  matched.left.type

theorem gives_unify (left right : Number) :
    Gives (fun matched : Matched => matched.type = left.type.promoted right.type)
      (left.unify right) := by
  have whole {outcome : Except Error Decimal} {make : Decimal → Matched}
      (makes : ∀ value, (make value).type = .decimal)
      (highest : left.type.promoted right.type = .decimal) :
      Gives (fun matched : Matched => matched.type = left.type.promoted right.type)
        (do return make (← outcome)) :=
    .of_bind fun value => .ok ((makes value).trans highest.symm)
  cases left with
  | decimal left =>
      refine whole (fun _ => rfl) ?_
      cases right with
      | float32 | float64 | decimal | int32 | int64 => rfl
  | float32 left | float64 left | int32 left | int64 left =>
      cases right with
      | decimal right => exact whole (fun _ => rfl) rfl
      | float32 right | float64 right | int32 right | int64 right => exact .ok rfl

theorem gives_decimalOr (operator : String) (value : Option Decimal) :
    Gives (HasType .decimal) (decimalOr operator value) := by
  cases value with
  | none => exact .error _
  | some value => exact .ok rfl

theorem gives_unlessZero {good : Number → Prop} {isZero : Prop} [Decidable isZero]
    {quotient : Except Error Number} (gives : Gives good quotient) :
    Gives good (if isZero then .error .divisionByZero else quotient) := by
  split
  · exact .error _
  · exact gives

theorem gives_promoted {left right : Number} {compute : Matched → Except Error Number}
    (keeps : ∀ matched, Gives (HasType matched.type) (compute matched)) :
    Gives (HasType (left.type.promoted right.type)) (left.unify right >>= compute) := by
  refine (gives_unify left right).bind fun matched same => ?_
  rw [← same]
  exact keeps matched

theorem gives_add (left right : Number) :
    Gives (HasType (left.type.promoted right.type)) (left.add right) := by
  refine gives_promoted fun matched => ?_
  cases matched with
  | decimal left right => exact gives_decimalOr _ _
  | float32 | float64 | int32 | int64 => exact .ok rfl

theorem gives_sub (left right : Number) :
    Gives (HasType (left.type.promoted right.type)) (left.sub right) := by
  refine gives_promoted fun matched => ?_
  cases matched with
  | decimal left right => exact gives_decimalOr _ _
  | float32 | float64 | int32 | int64 => exact .ok rfl

theorem gives_mul (left right : Number) :
    Gives (HasType (left.type.promoted right.type)) (left.mul right) := by
  refine gives_promoted fun matched => ?_
  cases matched with
  | decimal left right => exact gives_decimalOr _ _
  | float32 | float64 | int32 | int64 => exact .ok rfl

theorem gives_div (left right : Number) :
    Gives (HasType (left.type.promoted right.type)) (left.div right) := by
  refine gives_promoted fun matched => ?_
  cases matched with
  | decimal left right => exact gives_unlessZero (gives_decimalOr _ _)
  | int32 left right | int64 left right => exact gives_unlessZero (.ok rfl)
  | float32 | float64 => exact .ok rfl

theorem gives_rem (left right : Number) :
    Gives (HasType (left.type.promoted right.type)) (left.rem right) := by
  refine gives_promoted fun matched => ?_
  cases matched with
  | decimal left right => exact gives_unlessZero (gives_decimalOr _ _)
  | int32 left right | int64 left right => exact gives_unlessZero (.ok rfl)
  | float32 | float64 => exact .ok rfl

/-! ## One operand -/

theorem gives_factorial (value : Number) : Gives (HasType value.type) value.factorial := by
  cases value with
  | float32 | float64 => exact .ok rfl
  | decimal | int32 | int64 => exact .of_map fun _ => rfl

end Number

end Formula
