import Formula.Numeral.Format
import Formula.Text.Digits

/-!
# Numerals

A numeral is numeric text taken apart: sign, whole digits, fraction digits and exponent.  Group
separators may stand anywhere after the first whole digit and leave no trace.
-/

namespace Formula

structure Numeral where
  negative : Bool
  whole : List Char
  fraction : List Char
  exponent : Option Int
deriving DecidableEq, Repr

namespace Numeral

/-! ## Reading -/

def readSign : List Char → Bool × List Char
  | '-' :: rest => (true, rest)
  | '+' :: rest => (false, rest)
  | text => (false, text)

/-- Digits with group separators between or after them, and what follows. -/
def readWhole (group : Char) (started : Bool) : List Char → List Char × List Char
  | [] => ([], [])
  | character :: rest =>
      if character.isDigit then
        let (digits, rest) := readWhole group true rest
        (character :: digits, rest)
      else if character = group ∧ started then
        readWhole group started rest
      else
        ([], character :: rest)

/-- The digits after the decimal separator, if it comes next. -/
def readFraction (decimal : Char) : List Char → List Char × List Char
  | [] => ([], [])
  | character :: rest =>
      if character = decimal then
        (rest.takeWhile Char.isDigit, rest.dropWhile Char.isDigit)
      else
        ([], character :: rest)

def exponentInRange (exponent : Int) : Bool :=
  Int64.minValue.toInt ≤ exponent && exponent ≤ Int64.maxValue.toInt

/-- An exponent mark, a sign and at least one digit, up to the end of the text. -/
def readExponent? : List Char → Option (Option Int)
  | [] => some none
  | mark :: rest =>
      if mark = 'e' ∨ mark = 'E' then
        let (negative, digits) := readSign rest
        let exponent := if negative then -(Text.ofDigits digits : Int) else Text.ofDigits digits
        if digits ≠ [] ∧ digits.all Char.isDigit ∧ exponentInRange exponent then
          some (some exponent)
        else
          none
      else
        none

def readTrimmed? (format : NumberFormat) (text : List Char) : Option Numeral :=
  let (negative, rest) := readSign text
  let (whole, rest) := readWhole format.groupSeparator false rest
  let (fraction, rest) := readFraction format.decimalSeparator rest
  if whole = [] ∧ fraction = [] then
    none
  else
    (readExponent? rest).map fun exponent => ⟨negative, whole, fraction, exponent⟩

def read? (format : NumberFormat) (text : String) : Option Numeral :=
  readTrimmed? format (Text.trim text.toList)

/-! ## Writing and value -/

def exponentText : Option Int → List Char
  | none => []
  | some exponent => 'e' :: (Text.ofInt exponent).toList

/-- The text without group separators, with a period as decimal mark. -/
def canonical (numeral : Numeral) : String :=
  String.ofList (Text.sign numeral.negative ++
    (if numeral.whole = [] then ['0'] else numeral.whole) ++
    (if numeral.fraction = [] then [] else '.' :: numeral.fraction) ++
    exponentText numeral.exponent)

/-- The magnitude is `digits * 10 ^ power`. -/
def digits (numeral : Numeral) : Nat :=
  Text.ofDigits (numeral.whole ++ numeral.fraction)

def power (numeral : Numeral) : Int :=
  numeral.exponent.getD 0 - numeral.fraction.length

end Numeral

end Formula
