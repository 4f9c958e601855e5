import Formula.Binary.Arithmetic
import Formula.Binary.Reading
import Formula.Number.Basic
import Formula.Table
import Formula.Value

/-!
# Standard constants

Each number is the double nearest to its mathematical value, converted to the configured type.
-/

namespace Formula.Builtin

def pi : Double := .ofDecimal false 3141592653589793 (-15)

def numericConstants : List (String × Double) :=
  [("PI", pi),
   ("PI_2", .ofDecimal false 15707963267948966 (-16)),
   ("LOG2E", .ofDecimal false 14426950408889634 (-16)),
   ("DEG", pi.div (Binary.ofInt 180)),
   ("E", .ofDecimal false 2718281828459045 (-15)),
   ("INFINITY", .infinity false),
   ("NAN", .nan)]

/-- Integer configurations keep doubles; a number that decimals cannot hold is left out. -/
def constantOf? (type : NumericType) (value : Double) : Option Value :=
  if type.isInteger then
    some (.number (.float64 value))
  else
    (Number.ofDouble type value).toOption.map .number

def constants (type : NumericType) : Table Value :=
  .ofList
    (numericConstants.filterMap (fun entry =>
        (constantOf? type entry.2).map fun value => (entry.1, value)) ++
      [("TRUE", .bool true), ("FALSE", .bool false)])

end Formula.Builtin
