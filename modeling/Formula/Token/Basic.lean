/-!
# Tokens

The words of an expression.  Positions are byte offsets into the UTF-8 text.
-/

namespace Formula

/-- Groups and calls are what parentheses turn into; the lexer produces neither. -/
inductive Token.Kind where
  | number
  | stringLiteral
  | identifier
  | operator
  | leftParen
  | rightParen
  | comma
  | group
  | call
deriving DecidableEq, Repr

/-- Parentheses and commas have no text. -/
structure Token where
  kind : Token.Kind
  text : Option String
  position : Nat
deriving DecidableEq, Repr

namespace Token

def lexeme (token : Token) : String :=
  token.text.getD ""

def isOperator (spelling : String) (token : Token) : Bool :=
  token.kind == .operator && token.lexeme == spelling

def isPlus (token : Token) : Bool :=
  token.isOperator "+"

def isMinus (token : Token) : Bool :=
  token.isOperator "-"

def isSign (token : Token) : Bool :=
  token.isPlus || token.isMinus

end Token

end Formula
