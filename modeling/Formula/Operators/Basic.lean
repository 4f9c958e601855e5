import Formula.Grammar.Basic
import Formula.Operators.Standard
import Formula.Table

/-!
# Operations and how operators apply

A configuration holds one operation for every operator of the standard grammar, and one for all
other spellings.  A host that replaces an operation keeps the standard ones for the rest.
-/

namespace Formula

/-- The part of a configuration that operations are shown besides the table they stand in. -/
structure Environment where
  conventions : Conventions
  grammar : Grammar
  maxDepth : Nat
  constants : Table Value
  genericConstants : Table Value

namespace Environment

def constant? (environment : Environment) (name : String) : Option Value :=
  environment.constants.lookup name <|> environment.genericConstants.lookup name

def ofInt64 (environment : Environment) (value : Int64) : Value :=
  environment.conventions.ofInt64 value

end Environment

/-- The operations that are not given are the standard ones; negation follows the given notion of
truth. -/
structure Operators where
  convertToNumber : Environment → String → Except Error Value :=
    fun environment text => (environment.conventions.readLiteral text).map .number
  add : Environment → Value → Value → Except Error Value := (Standard.add ·.conventions)
  subtract : Environment → Value → Value → Except Error Value := (Standard.subtract ·.conventions)
  multiply : Environment → Value → Value → Except Error Value := (Standard.multiply ·.conventions)
  divide : Environment → Value → Value → Except Error Value := (Standard.divide ·.conventions)
  modulo : Environment → Value → Value → Except Error Value := (Standard.modulo ·.conventions)
  pow : Environment → Value → Value → Except Error Value := (Standard.pow ·.conventions)
  shiftLeft : Environment → Value → Value → Except Error Value := (Standard.shiftLeft ·.conventions)
  shiftRight : Environment → Value → Value → Except Error Value :=
    (Standard.shiftRight ·.conventions)
  bitAnd : Environment → Value → Value → Except Error Value := (Standard.bitAnd ·.conventions)
  bitXor : Environment → Value → Value → Except Error Value := (Standard.bitXor ·.conventions)
  bitOr : Environment → Value → Value → Except Error Value := (Standard.bitOr ·.conventions)
  lessThan : Environment → Value → Value → Except Error Value := (Standard.lessThan ·.conventions)
  lessThanOrEqual : Environment → Value → Value → Except Error Value :=
    (Standard.lessThanOrEqual ·.conventions)
  greaterThan : Environment → Value → Value → Except Error Value :=
    (Standard.greaterThan ·.conventions)
  greaterThanOrEqual : Environment → Value → Value → Except Error Value :=
    (Standard.greaterThanOrEqual ·.conventions)
  equals : Environment → Value → Value → Except Error Value := (Standard.equals ·.conventions)
  notEquals : Environment → Value → Value → Except Error Value := (Standard.notEquals ·.conventions)
  isTruthy : Environment → Value → Bool := fun _ => Standard.isTruthy
  logicalNot : Environment → Value → Except Error Value :=
    fun environment operand => .ok (.bool (!isTruthy environment operand))
  factorial : Environment → Value → Except Error Value := (Standard.factorial ·.conventions)
  /-- The left operand is absent for a prefix operator, the right one for a suffix operator. -/
  applyCustom : Environment → String → Option Value → Option Value → Except Error Value :=
    fun _ operator _ _ => .error (.unknownOperator operator)

namespace Operators

def standard : Operators := {}

variable (operators : Operators) (environment : Environment)

def applyBinary (operator : String) (left right : Value) : Except Error Value :=
  match operator with
  | "+" => operators.add environment left right
  | "-" => operators.subtract environment left right
  | "*" => operators.multiply environment left right
  | "/" | "\\" => operators.divide environment left right
  | "%" => operators.modulo environment left right
  | "**" => operators.pow environment left right
  | "<<" => operators.shiftLeft environment left right
  | ">>" => operators.shiftRight environment left right
  | "&" => operators.bitAnd environment left right
  | "^" => operators.bitXor environment left right
  | "|" => operators.bitOr environment left right
  | "<" => operators.lessThan environment left right
  | "<=" => operators.lessThanOrEqual environment left right
  | ">" => operators.greaterThan environment left right
  | ">=" => operators.greaterThanOrEqual environment left right
  | "==" | "=" => operators.equals environment left right
  | "!=" | "<>" => operators.notEquals environment left right
  | "&&" | "||" => .ok right
  | _ => operators.applyCustom environment operator (some left) (some right)

def applyPrefix (operator : String) (operand : Value) : Except Error Value :=
  match operator with
  | "!" => operators.logicalNot environment operand
  | "-" => operators.subtract environment (.number environment.conventions.zero) operand
  | "+" => .ok operand
  | _ => operators.applyCustom environment operator none (some operand)

def applySuffix (operator : String) (operand : Value) : Except Error Value :=
  match operator with
  | "!" => operators.factorial environment operand
  | _ => operators.applyCustom environment operator (some operand) none

def apply (operator : String) : (left right : Option Value) → Except Error Value
  | some left, some right => operators.applyBinary environment operator left right
  | none, some operand => operators.applyPrefix environment operator operand
  | some operand, none => operators.applySuffix environment operator operand
  | none, none => .error (.invalidArgument (.noOperand operator))

/-- Whether the left operand alone decides: a false one of an and, a true one of an or. -/
def decides (operator : String) (left : Value) : Bool :=
  match operator with
  | "&&" => !operators.isTruthy environment left
  | "||" => operators.isTruthy environment left
  | _ => false

end Operators

end Formula
