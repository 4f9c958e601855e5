import Formula.Compiled
import Formula.Grammar.Document
import Formula.Proofs.Builtin.Extremum
import Formula.Proofs.Evaluation.Bindings
import Formula.Proofs.Evaluation.Consultation
import Formula.Proofs.Evaluation.Failures
import Formula.Proofs.Evaluation.LookupOrder
import Formula.Proofs.Evaluation.Modes
import Formula.Proofs.Evaluation.Replacement
import Formula.Proofs.Evaluation.Representation
import Formula.Proofs.Evaluation.Residues
import Formula.Proofs.Evaluation.ShortCircuit
import Formula.Proofs.Evaluation.SignCollapse
import Formula.Proofs.Evaluation.Stages
import Formula.Proofs.Evaluation.Truncation
import Formula.Proofs.Expr.Chains
import Formula.Proofs.Expr.Parentheses
import Formula.Proofs.Expr.RoundTrip
import Formula.Proofs.Expr.SourcePositions
import Formula.Proofs.Expr.Threshold
import Formula.Proofs.Expr.Variables
import Formula.Proofs.Grammar.Document
import Formula.Proofs.Number.Division
import Formula.Proofs.Numeral.Literal
import Formula.Proofs.Numeral.Printed
import Formula.Proofs.Operators.Comparison
import Formula.Proofs.Operators.Conversion
import Formula.Proofs.Token.Flattening
import Formula.Proofs.Token.FoldedForm
import Formula.Proofs.Token.Lossless
import Formula.Proofs.Token.OpenParentheses
import Formula.Proofs.Token.Spacing
import Formula.Proofs.Token.Spelling
import Formula.Proofs.Token.StringLiteral
import Formula.Proofs.Number.Factorial
import Formula.Proofs.Number.Promotion
