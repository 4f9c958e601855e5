import Formula.Host.Configuration

/-!
# Standard functions

The mathematical functions that every configuration starts with.  They take numbers and numeric
strings, read null as zero and truth values as one or zero, and answer in the configured type.
-/

namespace Formula.Builtin

abbrev Operation := Conventions → List Value → Except Error Value

/-! ## Arguments -/

def argument (values : List Value) (index : Nat) : Except Error Value :=
  match values[index]? with
  | some value => .ok value
  | none => .error (.invalidArgument (.notSupplied index values.length))

def numericArgument (conventions : Conventions) (values : List Value) (index : Nat) :
    Except Error Number := do
  match conventions.convert (← argument values index) with
  | .number value => return value
  | .null => return conventions.zero
  | .bool value => return Number.ofInt64 conventions.numericType (if value then 1 else 0)
  | value => throw (.invalidArgument (.notNumber index value.kind))

/-! ## Functions of doubles -/

def unary (compute : Double → Double) : Operation := fun conventions values => do
  let value ← numericArgument conventions values 0
  conventions.ofDouble (compute value.toDouble)

def binary (compute : Double → Double → Double) : Operation := fun conventions values => do
  let left ← numericArgument conventions values 0
  let right ← numericArgument conventions values 1
  conventions.ofDouble (compute left.toDouble right.toDouble)

/-- The natural logarithm, or with exactly two arguments the logarithm to the base of the second. -/
def log : Operation := fun conventions values => do
  let value ← numericArgument conventions values 0
  if values.length = 2 then
    let base ← numericArgument conventions values 1
    conventions.ofDouble (value.toDouble.log.div base.toDouble.log)
  else
    conventions.ofDouble value.toDouble.log

/-! ## Rounding and sign -/

/-- Decimals are rounded exactly, and integers are whole already. -/
def roundNumber (rounding : Rounding) : Number → Number
  | .decimal value => .decimal (value.integral rounding)
  | .int32 value => .int32 value
  | .int64 value => .int64 value
  | .float32 value => .float64 ((value.convert .double).integral rounding)
  | .float64 value => .float64 (value.integral rounding)

def rounded (rounding : Rounding) : Operation := fun conventions values => do
  let value ← numericArgument conventions values 0
  return .number (← (roundNumber rounding value).cast conventions.numericType)

def abs : Operation := fun conventions values => do
  let value ← numericArgument conventions values 0
  return .number (← value.abs.cast conventions.numericType)

def sign : Operation := fun conventions values => do
  let value ← numericArgument conventions values 0
  if value.isNaN then
    throw (.invalidArgument .signOfNaN)
  else
    return conventions.ofInt64 value.signum

/-! ## Extrema -/

def orderArguments : Value → Value → Except Error Ordering
  | .number left, .number right => .ok (left.order right)
  | .string left, .string right => .ok (compare left right)
  | .bool left, .bool right => .ok (compare left right)
  | left, right => .error (.invalidArgument (.incomparable left.kind right.kind))

/-- Keeps a later value only where it stands strictly on the wanted side of the best so far.  The
first null ends the search. -/
def extremumFrom (conventions : Conventions) (wanted : Ordering) :
    (best : Option Value) → List Value → Except Error Value
  | best, [] => .ok (best.getD .null)
  | best, value :: values =>
      match conventions.convert value, best with
      | .null, _ => .ok .null
      | value, none => extremumFrom conventions wanted (some value) values
      | value, some current => do
          let order ← orderArguments value current
          extremumFrom conventions wanted (some (if order = wanted then value else current)) values

def extremum (wanted : Ordering) : Operation := fun conventions values =>
  extremumFrom conventions wanted none values

/-! ## The table -/

def operations : List (String × Operation) :=
  [("ABS", abs),
   ("ACOS", unary Binary.acos),
   ("ASIN", unary Binary.asin),
   ("ATAN", unary Binary.atan),
   ("ATAN2", binary Binary.atan2),
   ("CEILING", rounded .ceiling),
   ("COS", unary Binary.cos),
   ("COSH", unary Binary.cosh),
   ("EXP", unary Binary.exp),
   ("FLOOR", rounded .floor),
   ("LOG", log),
   ("LOG2", unary Binary.log2),
   ("LOG10", unary Binary.log10),
   ("MAX", extremum .gt),
   ("MIN", extremum .lt),
   ("POW", binary Binary.pow),
   ("ROUND", rounded .nearestEven),
   ("SIGN", sign),
   ("SIN", unary Binary.sin),
   ("SINH", unary Binary.sinh),
   ("SQRT", unary Binary.sqrt),
   ("TAN", unary Binary.tan),
   ("TANH", unary Binary.tanh),
   ("TRUNCATE", rounded .truncate)]

/-- The function that applies an operation to all its arguments. -/
def functionOf {σ : Type} (operation : Operation) : Function σ :=
  .ofBody fun settings arguments => do
    let values ← arguments.values
    ExceptT.mk (pure (operation settings.conventions values))

def functions {σ : Type} : Table (Function σ) :=
  .ofList (operations.map fun entry => (entry.1, functionOf entry.2))

end Formula.Builtin
