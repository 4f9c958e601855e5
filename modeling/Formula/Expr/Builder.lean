import Formula.Error
import Formula.Expr.Basic
import Formula.Grammar.Basic
import Formula.Token.Tree

/-!
# Expressions from token trees

The tiers of the grammar are tried from the loosest on.  The first tier with an operator in the
sequence splits it there into operands, which are built in the same way; a sequence without
operators must be a single operand.
-/

namespace Formula.Expr

/-! ## Where a sequence splits -/

def isSpelling (spelling : String) (tree : TokenTree) : Bool :=
  tree.operator? == some spelling

def lastIndex? {α : Type} (found : α → Bool) : List α → Option Nat
  | [] => none
  | item :: items =>
      match lastIndex? found items with
      | some index => some (index + 1)
      | none => if found item then some 0 else none

/-- The occurrence of a spelling that may split: the first one of a right-associative operator, the
last one of any other. -/
def occurrence? (grammar : Grammar) (spelling : String) (trees : List TokenTree) : Option Nat :=
  if grammar.isRightAssociative spelling then
    trees.findIdx? (isSpelling spelling)
  else
    lastIndex? (isSpelling spelling) trees

/-- The greater of two optional indices. -/
def later : Option Nat → Option Nat → Option Nat
  | none, right => right
  | left, none => left
  | some left, some right => some (max left right)

/-- Of the occurrences of a tier's spellings, the last one splits. -/
def tierIndex? (grammar : Grammar) (trees : List TokenTree) (tier : List String) : Option Nat :=
  tier.foldl (fun index spelling => later index (occurrence? grammar spelling trees)) none

structure Split where
  before : List TokenTree
  operator : String
  position : Nat
  after : List TokenTree

def splitAt? (trees : List TokenTree) (index : Nat) : Option Split :=
  match trees.drop index with
  | tree :: after =>
      tree.operator?.map fun operator => ⟨trees.take index, operator, tree.position, after⟩
  | [] => none

def split? (grammar : Grammar) (trees : List TokenTree) : Option Split :=
  grammar.tiers.findSome? (tierIndex? grammar trees) >>= splitAt? trees

/-! ## Operands -/

def fail {α : Type} (position : Nat) (fault : StructuralFault) : Except Error α :=
  .error (.structural (some position) fault)

/-- What an operator node is made of.  A sign without left operand is written as a subtraction from
zero or left out. -/
inductive Shape where
  | prefixed (operand : List TokenTree)
  | suffixed (operand : List TokenTree)
  | infixed (left right : List TokenTree)
  | negated (operand : List TokenTree)
  | plain (operand : List TokenTree)

/-- The side on which a prefix or suffix operator takes its operand depends on whether anything
stands before it. -/
def unaryShape (grammar : Grammar) (split : Split) : Except Error Shape :=
  match grammar.isPrefixOperator split.operator, grammar.isSuffixOperator split.operator,
      split.before with
  | true, _, [] => .ok (.prefixed split.after)
  | _, true, before@(_ :: _) =>
      match split.after with
      | [] => .ok (.suffixed before)
      | extra :: _ => fail extra.position (.unexpectedAfter split.operator)
  | _, _, _ => fail split.position (.unexpectedOperator split.operator)

def binaryShape (split : Split) : Shape :=
  match split.before, split.operator with
  | [], "-" => .negated split.after
  | [], "+" => .plain split.after
  | before, _ => .infixed before split.after

def Shape.lacksOperand : Shape → Bool
  | .prefixed operand | .suffixed operand | .negated operand | .plain operand => operand.isEmpty
  | .infixed left right => left.isEmpty || right.isEmpty

def shape (grammar : Grammar) (split : Split) : Except Error Shape := do
  let shape ←
    if grammar.isPrefixOperator split.operator || grammar.isSuffixOperator split.operator then
      unaryShape grammar split
    else
      .ok (binaryShape split)
  if shape.lacksOperand then
    fail split.position (.missingOperand split.operator)
  else
    .ok shape

def ofLeaf (token : Token) : Except Error Expr :=
  match token.kind with
  | .number => .ok (.number token.lexeme token.position)
  | .stringLiteral => .ok (.string token.lexeme token.position)
  | .identifier => .ok (.identifier token.lexeme token.position)
  | .comma => fail token.position .unexpectedComma
  | .rightParen => fail token.position .unexpectedClosing
  | _ => fail token.position (.unexpectedToken token.lexeme)

/-! ## Building -/

/-- Builds a sequence that may be nested `levels - 1` deep. -/
def buildWithin (grammar : Grammar) (maxDepth : Nat) :
    (levels : Nat) → List TokenTree → Except Error Expr
  | 0, _ => .error (.nestingLimit maxDepth)
  | levels + 1, trees =>
      match split? grammar trees with
      | some split => do
          let node (left right : Option Expr) : Expr :=
            .operation split.operator split.position left right
          match ← shape grammar split with
          | .prefixed operand =>
              return node none (some (← buildWithin grammar maxDepth levels operand))
          | .suffixed operand =>
              return node (some (← buildWithin grammar maxDepth levels operand)) none
          | .infixed left right =>
              let left ← buildWithin grammar maxDepth levels left
              let right ← buildWithin grammar maxDepth levels right
              return node (some left) (some right)
          | .negated operand =>
              let right ← buildWithin grammar maxDepth levels operand
              return node (some (.number "0" split.position)) (some right)
          | .plain operand => buildWithin grammar maxDepth levels operand
      | none =>
          match trees with
          | [] => .error (.structural none .missingOperandOrOperator)
          | [.leaf token] => ofLeaf token
          | [.group _ content] => buildWithin grammar maxDepth levels content
          | [.call name position arguments] => do
              let arguments ← arguments.mapM fun argument =>
                if argument.isEmpty then pure none
                else some <$> buildWithin grammar maxDepth levels argument
              return .call name position arguments
          | _ :: second :: _ => fail second.position .missingOperandOrOperator

/-- Every operand, group and argument is one level deeper than what it belongs to. -/
def build (grammar : Grammar) (maxDepth : Nat) (trees : List TokenTree) : Except Error Expr :=
  buildWithin grammar maxDepth (maxDepth + 1) trees

end Formula.Expr
