import Formula.Decimal.Arithmetic
import Formula.Number.Basic

/-!
# Promotion

Two numbers meet in the representation of the one with the higher rank.  A `Matched` pair holds both
in one representation, so arithmetic has no mixed cases.
-/

namespace Formula.Number

inductive Matched where
  | float32 (left right : Single)
  | float64 (left right : Double)
  | decimal (left right : Decimal)
  | int32 (left right : Int32)
  | int64 (left right : Int64)
deriving DecidableEq

namespace Matched

def left : Matched → Number
  | .float32 left _ => .float32 left
  | .float64 left _ => .float64 left
  | .decimal left _ => .decimal left
  | .int32 left _ => .int32 left
  | .int64 left _ => .int64 left

def right : Matched → Number
  | .float32 _ right => .float32 right
  | .float64 _ right => .float64 right
  | .decimal _ right => .decimal right
  | .int32 _ right => .int32 right
  | .int64 _ right => .int64 right

end Matched

/-- The nearest number of single precision. -/
def toSingle : Number → Single
  | .float32 value => value
  | .int32 value => Binary.ofInt value.toInt
  | .int64 value => Binary.ofInt value.toInt
  | value => value.toDouble.convert .single

def doubleToDecimal (value : Double) : Except Error Decimal :=
  orUnrepresentable value.text .decimal (Decimal.ofDouble? value)

/-- Only floats can be out of the range of decimals. -/
def toDecimal : Number → Except Error Decimal
  | .float32 value => doubleToDecimal (value.convert .double)
  | .float64 value => doubleToDecimal value
  | .decimal value => .ok value
  | .int32 value => .ok (Decimal.ofInt64 value.toInt64)
  | .int64 value => .ok (Decimal.ofInt64 value)

/-- Brings two numbers to a shared representation. -/
def unify : Number → Number → Except Error Matched
  | .decimal left, right => do return .decimal left (← right.toDecimal)
  | left, .decimal right => do return .decimal (← left.toDecimal) right
  | .float64 left, right => .ok (.float64 left right.toDouble)
  | left, .float64 right => .ok (.float64 left.toDouble right)
  | .float32 left, right => .ok (.float32 left right.toSingle)
  | left, .float32 right => .ok (.float32 left.toSingle right)
  | .int64 left, .int64 right => .ok (.int64 left right)
  | .int64 left, .int32 right => .ok (.int64 left right.toInt64)
  | .int32 left, .int64 right => .ok (.int64 left.toInt64 right)
  | .int32 left, .int32 right => .ok (.int32 left right)

/-- The order across representations, in which NaN stands below every other number.  Numbers of
which one is a float are compared as doubles. -/
def order (left right : Number) : Ordering :=
  match left.unify right with
  | .ok (.decimal left right) => left.order right
  | .ok (.int32 left right) => compare left.toInt right.toInt
  | .ok (.int64 left right) => compare left.toInt right.toInt
  | _ => left.toDouble.order right.toDouble

/-- Unlike `order`, the equality of numbers inside larger values sets NaN apart from itself. -/
def same (left right : Number) : Bool :=
  !left.isNaN && !right.isNaN && left.order right == .eq

def signum (value : Number) : Int64 :=
  match value.order (.int32 0) with
  | .lt => -1
  | .eq => 0
  | .gt => 1

end Formula.Number
