import Formula.Kind

/-!
# Errors

An error says what went wrong and, where it comes from the text of an expression, at which byte.
`Error.message` words it.
-/

namespace Formula

inductive LexicalFault where
  | numberWithoutDigits
  | malformedExponent (lexeme : String)
  | unterminatedString
  | unfinishedEscape
  | malformedHexEscape
  | invalidCodePoint (code : Nat)
  | unexpectedCharacter (character : Char)
deriving DecidableEq, Repr

inductive StructuralFault where
  | missingOperandOrOperator
  | unexpectedAfter (operator : String)
  | unexpectedOperator (operator : String)
  | missingOperand (operator : String)
  | unexpectedComma
  | unexpectedClosing
  | unexpectedToken (text : String)
deriving DecidableEq, Repr

inductive GrammarFault where
  | emptySpelling
  | startsLikeNumber (spelling : String)
  | reservedCharacter (spelling : String)
deriving DecidableEq, Repr

/-- Arguments are counted from zero. -/
inductive ArgumentFault where
  | notNumber (index : Nat) (kind : Kind)
  | notSupplied (index supplied : Nat)
  | signOfNaN
  | incomparable (left right : Kind)
  | noOperand (operator : String)
deriving DecidableEq, Repr

inductive Error where
  | lexical (position : Nat) (fault : LexicalFault)
  | unmatchedParenthesis (position : Nat)
  | structural (position : Option Nat) (fault : StructuralFault)
  | invalidGrammar (fault : GrammarFault)
  | nestingLimit (limit : Nat)
  | unknownFunction (name : String)
  | unknownOperator (operator : String)
  | typeMismatch (operator : String) (left right : Kind)
  | invalidArgument (fault : ArgumentFault)
  | divisionByZero
  | overflow (operator : String)
  | unrepresentable (text : String) (target : NumericType)
  | host (message : String)
  | cancelled
deriving DecidableEq, Repr

/-! ## Wording -/

/-- Upper-case hexadecimal digits, at least four of them. -/
def codePointText (code : Nat) : String :=
  let digits := (Nat.toDigits 16 code).map Char.toUpper
  String.ofList (List.replicate (4 - digits.length) '0' ++ digits)

def LexicalFault.message : LexicalFault → String
  | .numberWithoutDigits => "Number has no digits"
  | .malformedExponent lexeme => s!"Malformed exponent in '{lexeme}'"
  | .unterminatedString => "Unterminated string literal"
  | .unfinishedEscape => "Escape sequence at end of input"
  | .malformedHexEscape => "Malformed hex escape"
  | .invalidCodePoint code => "Invalid code point U+" ++ codePointText code
  | .unexpectedCharacter character => s!"Unexpected character '{character}'"

def StructuralFault.message : StructuralFault → String
  | .missingOperandOrOperator => "Missing operand or operator"
  | .unexpectedAfter operator => s!"Unexpected token after operator '{operator}'"
  | .unexpectedOperator operator => s!"Operator '{operator}' is unexpected"
  | .missingOperand operator => s!"Missing operand for operator '{operator}'"
  | .unexpectedComma => "Unexpected ','"
  | .unexpectedClosing => "Unexpected ')'"
  | .unexpectedToken text => s!"Unexpected token '{text}'"

def GrammarFault.message : GrammarFault → String
  | .emptySpelling => "empty operator spelling"
  | .startsLikeNumber spelling => s!"operator '{spelling}' starts like a number"
  | .reservedCharacter spelling => s!"operator '{spelling}' contains a reserved character"

/-- Messages count arguments from one. -/
def ArgumentFault.message : ArgumentFault → String
  | .notNumber index kind =>
      let ordinal := index + 1
      let kind := kind.name
      s!"argument {ordinal} is a {kind}, expected a number"
  | .notSupplied index supplied =>
      let ordinal := index + 1
      s!"argument {ordinal} requested but only {supplied} supplied"
  | .signOfNaN => "SIGN of NaN"
  | .incomparable left right =>
      let left := left.name
      let right := right.name
      s!"cannot compare {left} with {right}"
  | .noOperand operator => s!"missing operand for operator '{operator}'"

namespace Error

def message : Error → String
  | .lexical position fault =>
      let fault := fault.message
      s!"Tokenizer error at position {position}: {fault}"
  | .unmatchedParenthesis position =>
      s!"Unmatched parenthesis for parenthesis at position {position}"
  | .structural none fault => "Syntax error: " ++ fault.message
  | .structural (some position) fault =>
      let fault := fault.message
      s!"Syntax error: {fault} at position {position}"
  | .invalidGrammar fault => "Invalid operator grammar: " ++ fault.message
  | .nestingLimit limit =>
      s!"Expression too complex: exceeded maximum nesting depth of {limit}"
  | .unknownFunction name => s!"Function named \"{name}\" was not found"
  | .unknownOperator operator =>
      s!"Operator '{operator}' has no semantic action in this configuration"
  | .typeMismatch operator left right =>
      let left := left.name
      let right := right.name
      s!"Operator '{operator}' cannot be applied to {left} and {right}"
  | .invalidArgument fault => "Invalid argument: " ++ fault.message
  | .divisionByZero => "Division by zero"
  | .overflow operator => s!"Numeric overflow in '{operator}'"
  | .unrepresentable text target =>
      let target := target.name
      s!"Cannot convert '{text}' to {target}"
  | .host message => message
  | .cancelled => "Evaluation was cancelled"

/-- The byte of the expression's text that the error points at. -/
def position : Error → Option Nat
  | .lexical position _ => some position
  | .unmatchedParenthesis position => some position
  | .structural position _ => position
  | _ => none

/-- Whether the error can only come out of compilation.  Exceeding the nesting limit can also come
out of an evaluation. -/
def isCompileError : Error → Bool
  | .lexical .. | .unmatchedParenthesis _ | .structural .. | .invalidGrammar _ => true
  | _ => false

end Error

end Formula
