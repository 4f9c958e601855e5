import Formula.Text.Blank

/-!
# Number formats

Numeric text comes in two habits: `1,234.5` and `1.234,5`.  Where no format is given, the decimal
mark is guessed from the position and the count of the commas and periods.
-/

namespace Formula

structure NumberFormat where
  decimalSeparator : Char
  groupSeparator : Char
deriving DecidableEq, Repr

namespace NumberFormat

/-- The format of `1,234.5`. -/
def invariant : NumberFormat := ⟨'.', ','⟩

/-- The format of `1.234,5`. -/
def commaDecimal : NumberFormat := ⟨',', '.'⟩

end NumberFormat

inductive DecimalMark where
  | period
  | comma
deriving DecidableEq, Repr

namespace DecimalMark

def name : DecimalMark → String
  | .period => "period"
  | .comma => "comma"

def format : DecimalMark → NumberFormat
  | .period => .invariant
  | .comma => .commaDecimal

/-- The byte offset of the last occurrence of a character. -/
def lastOffset? (target : Char) : List Char → Option Nat
  | [] => none
  | character :: rest =>
      match lastOffset? target rest with
      | some offset => some (offset + character.utf8Size)
      | none => if character = target then some 0 else none

/-- The number of bytes without a leading sign. -/
def unsignedLength : List Char → Nat
  | '-' :: rest => Text.byteLength rest
  | '+' :: rest => Text.byteLength rest
  | text => Text.byteLength text

/-- One group separator makes sense only in a number of four to six digits. -/
def groupingPlausible (text : List Char) : Bool :=
  5 ≤ unsignedLength text && unsignedLength text ≤ 7

/-- A lone separator might group thousands when three characters follow it. -/
def mayGroup (text : List Char) (offset : Nat) : Bool :=
  groupingPlausible text && offset + 4 == Text.byteLength text

/-- Of two different separators the later one is the decimal mark.  A repeated separator groups
digits.  A lone separator is the decimal mark unless it might group thousands: then a comma groups,
and a period groups only on request. -/
def guessTrimmed (text : List Char) (ambiguousAsThousands : Bool) : DecimalMark :=
  match lastOffset? ',' text, lastOffset? '.' text with
  | none, none => .period
  | some commaAt, some periodAt => if periodAt < commaAt then .comma else .period
  | some commaAt, none =>
      if 1 < text.count ',' then .period
      else if mayGroup text commaAt then .period
      else .comma
  | none, some periodAt =>
      if 1 < text.count '.' then .comma
      else if mayGroup text periodAt && ambiguousAsThousands then .comma
      else .period

def guess (text : String) (ambiguousAsThousands : Bool) : DecimalMark :=
  guessTrimmed (Text.trim text.toList) ambiguousAsThousands

end DecimalMark

end Formula
