import Formula.Error
import Formula.Binary.Shortest
import Formula.Decimal.Conversion

/-!
# Numbers

A number is kept in one of five representations.  Conversions to floats never fail; conversions to
decimals and integers fail for what those types cannot hold, and name the value they were given.
-/

namespace Formula

inductive Number where
  | float32 (value : Single)
  | float64 (value : Double)
  | decimal (value : Decimal)
  | int32 (value : Int32)
  | int64 (value : Int64)
deriving DecidableEq

namespace Number

def type : Number → NumericType
  | .float32 _ => .float32
  | .float64 _ => .float64
  | .decimal _ => .decimal
  | .int32 _ => .int32
  | .int64 _ => .int64

/-- Thirty-two bit integers wrap around. -/
def ofInt64 (target : NumericType) (value : Int64) : Number :=
  match target with
  | .float32 => .float32 (Binary.ofInt value.toInt)
  | .float64 => .float64 (Binary.ofInt value.toInt)
  | .decimal => .decimal (Decimal.ofInt64 value)
  | .int32 => .int32 value.toInt32
  | .int64 => .int64 value

def zero (target : NumericType) : Number :=
  ofInt64 target 0

def text : Number → String
  | .float32 value => value.text
  | .float64 value => value.text
  | .decimal value => value.normalize.text
  | .int32 value => Text.ofInt value.toInt
  | .int64 value => Text.ofInt value.toInt

def isZero : Number → Bool
  | .float32 value => value.isZero
  | .float64 value => value.isZero
  | .decimal value => value.isZero
  | .int32 value => value == 0
  | .int64 value => value == 0

def isNaN : Number → Bool
  | .float32 value => value.isNaN
  | .float64 value => value.isNaN
  | _ => false

/-- Integers wrap around, so the least one is its own absolute value. -/
def abs : Number → Number
  | .float32 value => .float32 value.abs
  | .float64 value => .float64 value.abs
  | .decimal value => .decimal value.abs
  | .int32 value => .int32 value.abs
  | .int64 value => .int64 value.abs

/-! ## Integers within their range -/

def fitsInt32 (value : Int) : Bool :=
  Int32.minValue.toInt ≤ value && value ≤ Int32.maxValue.toInt

def fitsInt64 (value : Int) : Bool :=
  Int64.minValue.toInt ≤ value && value ≤ Int64.maxValue.toInt

def int32? (value : Int) : Option Int32 :=
  if fitsInt32 value then some (Int32.ofInt value) else none

def int64? (value : Int) : Option Int64 :=
  if fitsInt64 value then some (Int64.ofInt value) else none

/-- The integer of the type that is nearest to the value. -/
def saturate (value : Int) : Int64 :=
  Int64.ofInt (max Int64.minValue.toInt (min value Int64.maxValue.toInt))

/-! ## Conversions -/

def toDouble : Number → Double
  | .float32 value => value.convert .double
  | .float64 value => value
  | .decimal value => value.toDouble
  | .int32 value => Binary.ofInt value.toInt
  | .int64 value => Binary.ofInt value.toInt

/-- Drops the fraction.  Values out of range saturate and NaN is zero. -/
def truncateBinary {format : Binary.Format} : Binary format → Int64
  | .nan => 0
  | .infinity negative => if negative then Int64.minValue else Int64.maxValue
  | value => saturate ((value.toInt? .truncate).getD 0)

/-- The whole number that the shift and bitwise operators work on. -/
def toInt64 : Number → Int64
  | .float32 value => truncateBinary value
  | .float64 value => truncateBinary value
  | .decimal value => saturate value.toInt
  | .int32 value => value.toInt64
  | .int64 value => value

def int32OfDouble? (value : Double) : Option Int32 :=
  value.toInt? .nearestEven >>= int32?

/-- The upper bound is the double nearest to the largest integer, which is one more. -/
def int64OfDouble? (value : Double) : Option Int64 :=
  match value.toInt? .nearestEven with
  | some whole =>
      if Int64.minValue.toInt ≤ whole ∧ whole ≤ Int64.maxValue.toInt + 1 then
        some (saturate whole)
      else
        none
  | none => none

def orUnrepresentable {α : Type} (text : String) (target : NumericType) :
    Option α → Except Error α
  | some value => .ok value
  | none => .error (.unrepresentable text target)

/-- Integers are rounded to, half to even. -/
def ofDouble (target : NumericType) (value : Double) : Except Error Number :=
  match target with
  | .float32 => .ok (.float32 (value.convert .single))
  | .float64 => .ok (.float64 value)
  | .decimal =>
      (orUnrepresentable value.text target (Decimal.ofDouble? value)).map .decimal
  | .int32 => (orUnrepresentable value.text target (int32OfDouble? value)).map .int32
  | .int64 => (orUnrepresentable value.text target (int64OfDouble? value)).map .int64

def castDecimal (target : NumericType) (value : Decimal) : Except Error Number :=
  let whole := (value.integral .nearestEven).toInt
  match target with
  | .int32 => (orUnrepresentable value.text target (int32? whole)).map .int32
  | .int64 => (orUnrepresentable value.text target (int64? whole)).map .int64
  | .decimal => .ok (.decimal value)
  | .float32 | .float64 => ofDouble target value.toDouble

def castInt64 (target : NumericType) (value : Int64) : Except Error Number :=
  match target with
  | .int32 =>
      (orUnrepresentable (Text.ofInt value.toInt) target (int32? value.toInt)).map .int32
  | _ => .ok (ofInt64 target value)

/-- The number in another representation. -/
def cast (target : NumericType) : Number → Except Error Number
  | .float32 value =>
      if target = .float32 then .ok (.float32 value)
      else ofDouble target (value.convert .double)
  | .float64 value => ofDouble target value
  | .decimal value => castDecimal target value
  | .int32 value => .ok (ofInt64 target value.toInt64)
  | .int64 value => castInt64 target value

end Number

end Formula
