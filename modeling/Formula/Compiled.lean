import Formula.Builtin.Constants
import Formula.Builtin.Functions
import Formula.Evaluation.Walk
import Formula.Expr.Builder
import Formula.Token.Lexer
import Formula.Token.Sign

/-!
# Compiled expressions

Text is compiled once against the grammar of a configuration and evaluated any number of times.
Constants, functions and operations are looked up again at every evaluation.
-/

namespace Formula

namespace Configuration

variable {σ : Type}

def defaultMaxDepth : Nat := 256

/-- The configuration that has everything standard for a numeric type. -/
def ofType (type : NumericType) : Configuration σ where
  conventions := .ofType type
  operators := .standard
  grammar := .standard
  maxDepth := defaultMaxDepth
  constants := .empty
  genericConstants := Builtin.constants type
  functions := .empty
  genericFunctions := Builtin.functions
  provider := none
  asyncProvider := none

end Configuration

def Expr.ofText (grammar : Grammar) (maxDepth : Nat) (text : String) : Except Error Expr := do
  grammar.validate
  let tokens ← Lexer.tokenize grammar text
  let trees ← TokenTree.ofTokens maxDepth (Token.foldSigns grammar tokens)
  Expr.build grammar maxDepth trees

/-- An expression and the configuration it was compiled against. -/
structure Compiled (σ : Type) where
  root : Expr
  configuration : Configuration σ

namespace Compiled

variable {σ : Type}

def ofText (configuration : Configuration σ) (text : String) : Except Error (Compiled σ) := do
  let root ← Expr.ofText configuration.grammar configuration.maxDepth text
  return ⟨root, configuration⟩

/-- Evaluates against the expression's own configuration. -/
def execute (compiled : Compiled σ) (host : σ) : Except Error Value × Run σ :=
  compiled.configuration.evaluate compiled.root host

def executeAsync (compiled : Compiled σ) (host : σ) (cancelled : Bool) :
    Except Error Value × Run σ :=
  compiled.configuration.evaluateAsync compiled.root host cancelled

/-- Evaluates against another configuration; the tree stays that of the compilation. -/
def executeWith (compiled : Compiled σ) (configuration : Configuration σ) (host : σ) :
    Except Error Value × Run σ :=
  configuration.evaluate compiled.root host

def executeAsyncWith (compiled : Compiled σ) (configuration : Configuration σ) (host : σ)
    (cancelled : Bool) : Except Error Value × Run σ :=
  configuration.evaluateAsync compiled.root host cancelled

def variableUses (compiled : Compiled σ) : List (String × Nat) :=
  compiled.root.variableUses

end Compiled

end Formula
