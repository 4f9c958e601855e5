import Formula.Grammar.Basic
import Formula.Token.Basic

/-!
# Sign folding

Where the tokens alone decide it, runs of signs become one sign, and a sign in front of a number
becomes part of the number.
-/

namespace Formula.Token

/-- A sign behind another one: equal signs make a plus, different ones a minus. -/
def afterSign (previous sign : Token) : Token :=
  if previous.isMinus then
    { sign with text := some (if sign.isMinus then "+" else "-") }
  else
    sign

def negated (number : Token) : Token :=
  { number with text := some ("-" ++ number.lexeme) }

/-- Whether a sign behind this token cannot be a binary operator. -/
def expectsOperand (grammar : Grammar) (token : Token) : Bool :=
  token.kind == .operator && !grammar.isSuffixOperator token.lexeme

/-- Adds a token to the folded ones, which are kept last first. -/
def foldOnto (grammar : Grammar) (folded : List Token) (token : Token) : List Token :=
  match folded with
  | [] => [token]
  | previous :: before =>
      if previous.isSign then
        if token.isSign then
          previous.afterSign token :: before
        else if token.kind = .number ∧ before.head?.all (expectsOperand grammar) then
          (if previous.isMinus then token.negated else token) :: before
        else
          token :: folded
      else
        token :: folded

def foldSigns (grammar : Grammar) (tokens : List Token) : List Token :=
  (tokens.foldl (foldOnto grammar) []).reverse

end Formula.Token
