/-!
# Kinds of values

Five numeric types and five kinds of values, with the names that results and error messages use.
-/

namespace Formula

inductive NumericType where
  | float32
  | float64
  | decimal
  | int32
  | int64
deriving DecidableEq, Repr

namespace NumericType

def name : NumericType → String
  | .float32 => "f32"
  | .float64 => "f64"
  | .decimal => "decimal"
  | .int32 => "i32"
  | .int64 => "i64"

def isFloat : NumericType → Bool
  | .float32 | .float64 => true
  | _ => false

def isInteger : NumericType → Bool
  | .int32 | .int64 => true
  | _ => false

/-- Of two numbers of different types, the one of the lower rank is promoted. -/
def rank : NumericType → Nat
  | .int32 => 0
  | .int64 => 1
  | .float32 => 2
  | .float64 => 3
  | .decimal => 4

end NumericType

inductive Kind where
  | null
  | bool
  | number
  | string
  | array
deriving DecidableEq, Repr

namespace Kind

def name : Kind → String
  | .null => "null"
  | .bool => "bool"
  | .number => "number"
  | .string => "string"
  | .array => "array"

end Kind

end Formula
