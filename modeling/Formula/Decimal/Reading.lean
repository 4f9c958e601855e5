import Formula.Decimal.Arithmetic

/-!
# Reading decimals

A decimal is read digit by digit.  Whole digits must fit; digits after the point are taken as long
as there is room, and the first one without room rounds the rest half up.
-/

namespace Formula.Decimal

/-- Rounds by the first digit that has no room.  A mantissa that rounds up to 96 bits and one gives
up its last place. -/
def roundedBy? (negative : Bool) (digit : Char) (mantissa scale : Nat) : Option Decimal :=
  if Text.digitValue digit < 5 then
    make? negative mantissa scale
  else if mantissa + 1 < 2 ^ (96 : Nat) then
    make? negative (mantissa + 1) scale
  else
    match scale with
    | 0 => none
    | places + 1 => make? negative ((mantissa + 5) / 10) places

def readFraction? (negative : Bool) : (digits : List Char) → (mantissa scale : Nat) → Option Decimal
  | [], mantissa, scale => make? negative mantissa scale
  | digit :: digits, mantissa, scale =>
      let extended := 10 * mantissa + Text.digitValue digit
      if scale = maxScale ∨ 2 ^ (96 : Nat) ≤ extended then
        roundedBy? negative digit mantissa scale
      else
        readFraction? negative digits extended (scale + 1)

/-- Zero is read without its sign. -/
def ofDigits? (negative : Bool) (whole fraction : List Char) : Option Decimal :=
  let mantissa := Text.ofDigits whole
  if mantissa < 2 ^ (96 : Nat) then
    (readFraction? false fraction mantissa 0).map fun value =>
      { value with negative := negative && value.mantissa != 0 }
  else
    none

/-- The value times `10 ^ power`, by factors of at most `10 ^ 19`. -/
def shiftLeft? (value : Decimal) (power : Nat) : Option Decimal := do
  if power < 19 then
    value.mul? (← make? false (10 ^ power) 0)
  else
    let shifted ← value.mul? (← make? false (10 ^ (19 : Nat)) 0)
    shifted.mul? (← make? false (10 ^ (power - 19)) 0)

/-- The value times `10 ^ exponent`, where the exponent moves the point before it appends zeros.
Exponents beyond 28 in either direction are refused. -/
def scaled? (value : Decimal) (exponent : Int) : Option Decimal :=
  if exponent < 0 then
    make? value.negative value.mantissa (value.scale + exponent.natAbs)
  else if exponent.toNat ≤ value.scale then
    make? value.negative value.mantissa (value.scale - exponent.toNat)
  else if exponent.toNat ≤ maxScale then
    value.shiftLeft? exponent.toNat
  else
    none

end Formula.Decimal
