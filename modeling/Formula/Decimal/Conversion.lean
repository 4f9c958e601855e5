import Formula.Binary.Arithmetic
import Formula.Decimal.Basic

/-!
# Decimals and binary numbers

The conversions between decimals and binary numbers of double precision.  Neither is exact in
general: a decimal is read off as whole part plus fraction and rounded at its own scale, and a
binary number is rewritten from powers of two to powers of ten in a register of 96 bits and then cut
to the precision of its significand.
-/

namespace Formula.Decimal

/-! ## From decimal to binary -/

/-- Powers by repeated squaring, each product rounded. -/
def squarings : (steps : Nat) → (base : Double) → (exponent : Nat) → Double → Double
  | 0, _, _, product => product
  | steps + 1, base, exponent, product =>
      let product := if exponent % 2 = 1 then product.mul base else product
      if exponent / 2 = 0 then product
      else squarings steps (base.mul base) (exponent / 2) product

def powerOfTen (exponent : Nat) : Double :=
  squarings (exponent + 1) (Binary.ofInt 10) exponent (Binary.ofInt 1)

def magnitudeToDouble (mantissa scale : Nat) : Double :=
  if scale = 0 then
    Binary.ofInt mantissa
  else
    let unit := 10 ^ scale
    let whole : Double := Binary.ofInt (mantissa / unit : Nat)
    let fraction : Double := (Binary.ofInt (mantissa % unit : Nat)).div (Binary.ofInt unit)
    if fraction.isZero then
      whole
    else
      let power := powerOfTen scale
      (((whole.add fraction).mul power).integral .nearestAway).div power

def toDouble (value : Decimal) : Double :=
  let magnitude := magnitudeToDouble value.mantissa value.scale
  if value.negative && (value.scale != 0 || value.mantissa != 0) then magnitude.neg else magnitude

/-! ## From binary to decimal

The register holds `mantissa * 10 ^ exponent`, times a power of two or five that is used up. -/

/-- Turns `steps` divisions by two into divisions by ten and multiplications by five. -/
def divideByTwos : (steps : Nat) → (mantissa : Nat) → (exponent : Int) → Nat × Int
  | 0, mantissa, exponent => (mantissa, exponent)
  | steps + 1, mantissa, exponent =>
      if mantissa % 2 = 1 ∧ mantissa * 5 < 2 ^ (96 : Nat) then
        divideByTwos steps (mantissa * 5) exponent
      else
        divideByTwos steps (mantissa / 2) (exponent + 1)

/-- Turns `steps` multiplications by two into multiplications by ten and divisions by five. -/
def multiplyByTwos? : (steps : Nat) → (mantissa : Nat) → (exponent : Int) → Option (Nat × Int)
  | 0, mantissa, exponent => some (mantissa, exponent)
  | steps + 1, mantissa, exponent =>
      if mantissa < 2 ^ (95 : Nat) then
        multiplyByTwos? steps (mantissa * 2) (exponent - 1)
      else if (steps + 1 : Nat) < exponent * 2 then
        none
      else
        multiplyByTwos? steps (mantissa / 5) exponent

def multiplyByTens? : (steps : Nat) → (mantissa : Nat) → Option Nat
  | 0, mantissa => some mantissa
  | steps + 1, mantissa =>
      if mantissa * 10 < 2 ^ (96 : Nat) then multiplyByTens? steps (mantissa * 10) else none

def dropDigit (mantissa : Nat) : Nat :=
  if 5 ≤ mantissa % 10 then mantissa / 10 + 1 else mantissa / 10

/-- Drops the digits beyond the largest scale; a mantissa that is used up is zero. -/
def dropExcess : (steps : Nat) → (mantissa : Nat) → (exponent : Int) → Nat × Int
  | 0, mantissa, exponent => (mantissa, exponent)
  | steps + 1, mantissa, exponent =>
      if mantissa / 10 = 0 then (0, 0) else dropExcess steps (dropDigit mantissa) (exponent + 1)

/-- Drops places while the mantissa is longer than a significand's fraction field. -/
def dropImprecise : (steps : Nat) → (mantissa : Nat) → (exponent : Int) → Nat × Int
  | 0, mantissa, exponent => (mantissa, exponent)
  | steps + 1, mantissa, exponent =>
      if mantissa < 2 ^ (52 : Nat) then (mantissa, exponent)
      else dropImprecise steps (dropDigit mantissa) (exponent + 1)

def ofDouble? : Double → Option Decimal
  | .nan => none
  | .infinity _ => none
  | .finite negative significand exponent _ =>
      if significand = 0 then
        some zero
      else do
        let (mantissa, place) := divideByTwos (-exponent).toNat significand exponent
        let (mantissa, place) ← multiplyByTwos? exponent.toNat mantissa place
        let mantissa ← multiplyByTens? place.toNat mantissa
        let place := min place 0
        let (mantissa, place) := dropExcess (-maxScale - place).toNat mantissa place
        let (mantissa, place) := dropImprecise (-place).toNat mantissa place
        (make? negative mantissa (-place).toNat).map normalize

end Formula.Decimal
