import Formula.Decimal.Division
import Formula.Number.Promotion

/-!
# Arithmetic of numbers

Both operands are promoted first.  Floats follow their own rules for division by zero, integers wrap
around, and decimals overflow.
-/

namespace Formula.Number

def decimalOr (operator : String) : Option Decimal → Except Error Number
  | some value => .ok (.decimal value)
  | none => .error (.overflow operator)

def add (left right : Number) : Except Error Number := do
  match ← left.unify right with
  | .float32 left right => .ok (.float32 (left.add right))
  | .float64 left right => .ok (.float64 (left.add right))
  | .decimal left right => decimalOr "+" (left.add? right)
  | .int32 left right => .ok (.int32 (left + right))
  | .int64 left right => .ok (.int64 (left + right))

def sub (left right : Number) : Except Error Number := do
  match ← left.unify right with
  | .float32 left right => .ok (.float32 (left.sub right))
  | .float64 left right => .ok (.float64 (left.sub right))
  | .decimal left right => decimalOr "-" (left.sub? right)
  | .int32 left right => .ok (.int32 (left - right))
  | .int64 left right => .ok (.int64 (left - right))

def mul (left right : Number) : Except Error Number := do
  match ← left.unify right with
  | .float32 left right => .ok (.float32 (left.mul right))
  | .float64 left right => .ok (.float64 (left.mul right))
  | .decimal left right => decimalOr "*" (left.mul? right)
  | .int32 left right => .ok (.int32 (left * right))
  | .int64 left right => .ok (.int64 (left * right))

/-- Quotients of integers are truncated toward zero. -/
def div (left right : Number) : Except Error Number := do
  match ← left.unify right with
  | .float32 left right => .ok (.float32 (left.div right))
  | .float64 left right => .ok (.float64 (left.div right))
  | .decimal left right =>
      if right.isZero then .error .divisionByZero else decimalOr "/" (left.div? right)
  | .int32 left right =>
      if right = 0 then .error .divisionByZero else .ok (.int32 (left / right))
  | .int64 left right =>
      if right = 0 then .error .divisionByZero else .ok (.int64 (left / right))

def rem (left right : Number) : Except Error Number := do
  match ← left.unify right with
  | .float32 left right => .ok (.float32 (left.rem right))
  | .float64 left right => .ok (.float64 (left.rem right))
  | .decimal left right =>
      if right.isZero then .error .divisionByZero else decimalOr "%" (left.rem? right)
  | .int32 left right =>
      if right = 0 then .error .divisionByZero else .ok (.int32 (left % right))
  | .int64 left right =>
      if right = 0 then .error .divisionByZero else .ok (.int64 (left % right))

end Formula.Number
