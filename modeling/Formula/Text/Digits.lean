/-!
# Decimal digits

Numbers are written and read in decimal.  `positional` writes `digits * 10 ^ exponent` without an
exponent mark.
-/

namespace Formula.Text

def digitValue (digit : Char) : Nat :=
  digit.toNat - '0'.toNat

/-- The number that a run of decimal digits writes; the empty run writes zero. -/
def ofDigits (digits : List Char) : Nat :=
  Nat.ofDigitChars 10 digits 0

def toDigits (value : Nat) : List Char :=
  Nat.toDigits 10 value

theorem ofDigits_toDigits (value : Nat) : ofDigits (toDigits value) = value :=
  Nat.ofDigitChars_ten_toDigits

theorem isDigit_of_mem_toDigits {value : Nat} {digit : Char} (h : digit ∈ toDigits value) :
    digit.isDigit :=
  Nat.isDigit_of_mem_toDigits (by decide) (by decide) h

def sign (negative : Bool) : List Char :=
  if negative then ['-'] else []

def ofInt (value : Int) : String :=
  String.ofList (sign (decide (value < 0)) ++ toDigits value.natAbs)

/-- The digits with a point in front of the last `places`, and at least one digit before it. -/
def pointed (digits : List Char) (places : Nat) : List Char :=
  let padded := List.replicate (places + 1 - digits.length) '0' ++ digits
  let whole := padded.length - places
  padded.take whole ++ '.' :: padded.drop whole

def positional (negative : Bool) (digits : Nat) (exponent : Int) : String :=
  String.ofList (sign negative ++
    if 0 ≤ exponent then
      toDigits digits ++ List.replicate exponent.toNat '0'
    else
      pointed (toDigits digits) (-exponent).toNat)

end Formula.Text
