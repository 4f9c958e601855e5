import Formula.Compiled
import Formula.Proofs.Expr.Nesting
import Formula.Proofs.Token.Failures
import Formula.Proofs.Token.Grouping

/-!
# Errors of a compilation

Each stage of a compilation blames what it looks at: the grammar, the characters, the parentheses or
the order of the tokens.  Parentheses and operators can also be nested too deeply.
-/

namespace Formula

inductive Error.OfCompilation : Error → Prop
  | lexical (position : Nat) (fault : LexicalFault) : OfCompilation (.lexical position fault)
  | unmatchedParenthesis (position : Nat) : OfCompilation (.unmatchedParenthesis position)
  | structural (position : Option Nat) (fault : StructuralFault) :
      OfCompilation (.structural position fault)
  | invalidGrammar (fault : GrammarFault) : OfCompilation (.invalidGrammar fault)
  | nestingLimit (limit : Nat) : OfCompilation (.nestingLimit limit)

namespace Error

theorem OfCompilation.of_isLexical {error : Error} (isLexical : error.IsLexical) :
    error.OfCompilation := by
  obtain ⟨position, fault, rfl⟩ := isLexical
  exact .lexical position fault

theorem OfCompilation.of_isStructural {error : Error} (isStructural : Expr.IsStructural error) :
    error.OfCompilation := by
  obtain ⟨position, fault, rfl⟩ := isStructural
  exact .structural position fault

end Error

theorem Grammar.fails_validate (grammar : Grammar) :
    FailsWithin Error.OfCompilation grammar.validate := by
  intro error invalid
  obtain ⟨fault, rfl⟩ := validate_eq_error invalid
  exact .invalidGrammar fault

theorem TokenTree.fails_ofTokens (maxDepth : Nat) (tokens : List Token) :
    FailsWithin Error.OfCompilation (ofTokens maxDepth tokens) := by
  intro error failed
  obtain rfl | ⟨position, rfl⟩ := groupOnto_eq_error failed
  · exact .nestingLimit maxDepth
  · exact .unmatchedParenthesis position

theorem Expr.fails_build (grammar : Grammar) (maxDepth : Nat) (trees : List TokenTree) :
    FailsWithin Error.OfCompilation (build grammar maxDepth trees) := by
  intro error failed
  obtain blames | ⟨rfl, -⟩ := buildWithin_eq_error failed
  · exact .of_isStructural blames.isStructural
  · exact .nestingLimit maxDepth

theorem Compiled.fails_ofText {σ : Type} (configuration : Configuration σ) (text : String) :
    FailsWithin Error.OfCompilation (ofText configuration text) := by
  have lexes : FailsWithin Error.OfCompilation (Lexer.tokenize configuration.grammar text) :=
    (Lexer.fails_tokensFrom _ _ _ _).mono fun _ lies => .of_isLexical lies.isLexical
  refine .bind ?_ fun root => .ok _
  refine (Grammar.fails_validate _).bind fun _ => lexes.bind fun tokens => ?_
  exact (TokenTree.fails_ofTokens _ _).bind fun trees => Expr.fails_build _ _ trees

end Formula
