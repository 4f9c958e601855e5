import Formula.Binary.Reading
import Formula.Decimal.Reading
import Formula.Numeral.Basic
import Formula.Value

/-!
# Numbers from text

How a numeral becomes a number of a given type, and how the numeric conventions of a configuration
apply to literals and to strings.
-/

namespace Formula

namespace Numeral

def toBinary {format : Binary.Format} (numeral : Numeral) : Binary format :=
  Binary.ofDecimal numeral.negative numeral.digits numeral.power

def toDecimal? (numeral : Numeral) : Option Decimal := do
  let base ← Decimal.ofDigits? numeral.negative numeral.whole numeral.fraction
  match numeral.exponent with
  | none => some base
  | some exponent => base.scaled? exponent

/-- Plain digits are read directly; with a fraction or an exponent the decimal value must be
whole. -/
def toInt? (numeral : Numeral) : Option Int :=
  if numeral.fraction = [] ∧ numeral.exponent = none then
    some (signed numeral.negative (Text.ofDigits numeral.whole))
  else
    match numeral.toDecimal? with
    | some value => if value.isWhole then some value.toInt else none
    | none => none

def toNumber? (target : NumericType) (numeral : Numeral) : Option Number :=
  match target with
  | .float32 => some (.float32 numeral.toBinary)
  | .float64 => some (.float64 numeral.toBinary)
  | .decimal => numeral.toDecimal?.map .decimal
  | .int32 => (numeral.toInt? >>= Number.int32?).map .int32
  | .int64 => (numeral.toInt? >>= Number.int64?).map .int64

end Numeral

def Number.read? (target : NumericType) (format : NumberFormat) (text : String) : Option Number :=
  Numeral.read? format text >>= Numeral.toNumber? target

/-- Reads what `Binary.text` writes, and every other numeral. -/
def Binary.ofText? {format : Binary.Format} (text : String) : Option (Binary format) :=
  match text with
  | "NaN" => some .nan
  | "inf" => some (.infinity false)
  | "-inf" => some (.infinity true)
  | text => (Numeral.read? .invariant text).map Numeral.toBinary

/-- Reads what `Number.text` writes for a number of the type. -/
def Number.ofText? (target : NumericType) (text : String) : Option Number :=
  match target with
  | .float32 => (Binary.ofText? text).map .float32
  | .float64 => (Binary.ofText? text).map .float64
  | _ => Number.read? target .invariant text

/-- How a configuration reads numbers. -/
structure Conventions where
  numericType : NumericType
  numberFormat : Option NumberFormat
  parsesStrings : Bool
  ambiguousAsThousands : Bool
deriving DecidableEq, Repr

namespace Conventions

def ofType (numericType : NumericType) : Conventions :=
  ⟨numericType, none, true, false⟩

def zero (conventions : Conventions) : Number :=
  Number.zero conventions.numericType

def ofInt64 (conventions : Conventions) (value : Int64) : Value :=
  .number (Number.ofInt64 conventions.numericType value)

def ofDouble (conventions : Conventions) (value : Double) : Except Error Value :=
  (Number.ofDouble conventions.numericType value).map .number

/-- Literals have a period as decimal mark, whatever format strings are read in. -/
def readLiteral (conventions : Conventions) (text : String) : Except Error Number :=
  Number.orUnrepresentable text conventions.numericType
    (Number.read? conventions.numericType .invariant text)

def formatOf (conventions : Conventions) (text : String) : NumberFormat :=
  conventions.numberFormat.getD (DecimalMark.guess text conventions.ambiguousAsThousands).format

/-- Where the type is an integer type, a string that holds no such integer may be a double. -/
def readString? (conventions : Conventions) (text : String) : Option Number :=
  let format := conventions.formatOf text
  match Number.read? conventions.numericType format text with
  | some value => some value
  | none =>
      if conventions.numericType.isInteger then Number.read? .float64 format text else none

/-- Turns a numeric string into its number and leaves every other value as it is. -/
def convert (conventions : Conventions) : Value → Value
  | .string text =>
      if conventions.parsesStrings then
        match conventions.readString? text with
        | some value => .number value
        | none => .string text
      else
        .string text
  | value => value

end Conventions

end Formula
