import Formula.Binary.Elementary
import Formula.Numeral.Number
import Formula.Operators.Factorial

/-!
# Standard operations

What the operators of the standard grammar do.  Numeric strings count as numbers, except that a plus
with a string on either side joins texts.  A null operand makes the result of arithmetic null.
-/

namespace Formula.Standard

/-! ## Arithmetic -/

/-- Both operands as numbers, or none if one of them is null. -/
def numericOperands (conventions : Conventions) (operator : String) (left right : Value) :
    Except Error (Option (Number × Number)) :=
  match conventions.convert left, conventions.convert right with
  | .number left, .number right => .ok (some (left, right))
  | .null, _ => .ok none
  | _, .null => .ok none
  | left, right => .error (.typeMismatch operator left.kind right.kind)

def arithmetic (conventions : Conventions) (operator : String)
    (compute : Number → Number → Except Error Number) (left right : Value) :
    Except Error Value := do
  match ← numericOperands conventions operator left right with
  | some (left, right) => return .number (← compute left right)
  | none => return .null

def add (conventions : Conventions) : Value → Value → Except Error Value
  | .string left, right => .ok (.string (left ++ right.text))
  | left, .string right => .ok (.string (left.text ++ right))
  | left, right => arithmetic conventions "+" Number.add left right

def subtract (conventions : Conventions) : Value → Value → Except Error Value :=
  arithmetic conventions "-" Number.sub

def multiply (conventions : Conventions) : Value → Value → Except Error Value :=
  arithmetic conventions "*" Number.mul

def divide (conventions : Conventions) : Value → Value → Except Error Value :=
  arithmetic conventions "/" Number.div

def modulo (conventions : Conventions) : Value → Value → Except Error Value :=
  arithmetic conventions "%" Number.rem

/-- Powers are computed in double precision, whatever the type. -/
def pow (conventions : Conventions) : Value → Value → Except Error Value :=
  arithmetic conventions "**" fun base exponent =>
    Number.ofDouble conventions.numericType (base.toDouble.pow exponent.toDouble)

/-! ## Whole-number operations

Operands are truncated to 64 bits, and the result is converted back to the configured type. -/

def integral (conventions : Conventions) (operator : String) (compute : Int64 → Int64 → Int64)
    (left right : Value) : Except Error Value := do
  match ← numericOperands conventions operator left right with
  | some (left, right) => return conventions.ofInt64 (compute left.toInt64 right.toInt64)
  | none => return .null

/-- Only the lowest six bits of the amount count. -/
def shiftLeft (conventions : Conventions) : Value → Value → Except Error Value :=
  integral conventions "<<" (· <<< ·)

/-- Shifts in copies of the sign. -/
def shiftRight (conventions : Conventions) : Value → Value → Except Error Value :=
  integral conventions ">>" (· >>> ·)

def bitAnd (conventions : Conventions) : Value → Value → Except Error Value :=
  integral conventions "&" (· &&& ·)

def bitXor (conventions : Conventions) : Value → Value → Except Error Value :=
  integral conventions "^" (· ^^^ ·)

def bitOr (conventions : Conventions) : Value → Value → Except Error Value :=
  integral conventions "|" (· ||| ·)

/-! ## Comparisons -/

/-- A string is converted only when the other operand is a number. -/
def coerce (conventions : Conventions) : Value → Value → Value × Value
  | .string left, .number right => (conventions.convert (.string left), .number right)
  | .number left, .string right => (.number left, conventions.convert (.string right))
  | left, right => (left, right)

def order (conventions : Conventions) (operator : String) (left right : Value) :
    Except Error Ordering :=
  match coerce conventions left right with
  | (.number left, .number right) => .ok (left.order right)
  | (.string left, .string right) => .ok (compare left right)
  | (.bool left, .bool right) => .ok (compare left right)
  | (left, right) => .error (.typeMismatch operator left.kind right.kind)

def lessThan (conventions : Conventions) (left right : Value) : Except Error Value := do
  return .bool ((← order conventions "<" left right) == .lt)

def lessThanOrEqual (conventions : Conventions) (left right : Value) : Except Error Value := do
  return .bool ((← order conventions "<=" left right) != .gt)

def greaterThan (conventions : Conventions) (left right : Value) : Except Error Value := do
  return .bool ((← order conventions ">" left right) == .gt)

def greaterThanOrEqual (conventions : Conventions) (left right : Value) :
    Except Error Value := do
  return .bool ((← order conventions ">=" left right) != .lt)

/-- Two numbers are equal when neither is before the other, so that NaN equals itself. -/
def equal (conventions : Conventions) (left right : Value) : Bool :=
  match coerce conventions left right with
  | (.number left, .number right) => left.order right == .eq
  | (left, right) => left.same right

def equals (conventions : Conventions) (left right : Value) : Except Error Value :=
  .ok (.bool (equal conventions left right))

def notEquals (conventions : Conventions) (left right : Value) : Except Error Value :=
  .ok (.bool (!equal conventions left right))

/-! ## Truth and factorial -/

/-- Null, zero and what is empty are false. -/
def isTruthy : Value → Bool
  | .null => false
  | .bool value => value
  | .string text => text != ""
  | .array items => !items.isEmpty
  | .number value => value.order (.int32 0) != .eq

def factorial (conventions : Conventions) (operand : Value) : Except Error Value :=
  match conventions.convert operand with
  | .null => .ok .null
  | .number value => value.factorial.map .number
  | value => .error (.typeMismatch "!" value.kind .null)

end Formula.Standard
