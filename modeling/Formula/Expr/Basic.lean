/-!
# Expressions

An expression tree.  Operators have one or two operands; a prefix operator lacks the left one and a
suffix operator the right one.  An argument of a call may be empty.
-/

namespace Formula

/-- Numbers keep their text, since its meaning depends on the configuration. -/
inductive Expr where
  | number (text : String) (position : Nat)
  | string (content : String) (position : Nat)
  | identifier (name : String) (position : Nat)
  | call (name : String) (position : Nat) (arguments : List (Option Expr))
  | operation (operator : String) (position : Nat) (left right : Option Expr)

namespace Expr

def position : Expr → Nat
  | .number _ position => position
  | .string _ position => position
  | .identifier _ position => position
  | .call _ position _ => position
  | .operation _ position _ _ => position

/-! ## Variables

The identifiers that stand for values, in source order and as often as they occur, with their
positions. -/

mutual

def variableUses : Expr → List (String × Nat)
  | .number .. => []
  | .string .. => []
  | .identifier name position => [(name, position)]
  | .call _ _ arguments => variableUsesOfArguments arguments
  | .operation _ _ left right => variableUsesOfOperand left ++ variableUsesOfOperand right

def variableUsesOfOperand : Option Expr → List (String × Nat)
  | none => []
  | some expr => expr.variableUses

def variableUsesOfArguments : List (Option Expr) → List (String × Nat)
  | [] => []
  | argument :: arguments => variableUsesOfOperand argument ++ variableUsesOfArguments arguments

end

end Expr

end Formula
