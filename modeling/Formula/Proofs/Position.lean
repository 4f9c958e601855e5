import Formula.Proofs.Expr.Builds
import Formula.Proofs.Token.Folding
import Formula.Proofs.Token.Grouping
import Mathlib.Data.List.Basic

/-!
# Positions are only passed on

Folding signs, matching parentheses and building the tree carry positions along without ever
looking at them.  Moving the positions before a stage is moving them after it, in what it makes as
well as in its errors.
-/

namespace Formula

/-- Where every position is moved when positions do not count. -/
def origin : Nat → Nat := fun _ => 0

variable (move : Nat → Nat)

namespace Token

def relocate (token : Token) : Token :=
  { token with position := move token.position }

@[simp]
theorem kind_relocate (token : Token) : (token.relocate move).kind = token.kind := rfl

@[simp]
theorem lexeme_relocate (token : Token) : (token.relocate move).lexeme = token.lexeme := rfl

@[simp]
theorem isMinus_relocate (token : Token) : (token.relocate move).isMinus = token.isMinus := rfl

@[simp]
theorem isSign_relocate (token : Token) : (token.relocate move).isSign = token.isSign := rfl

end Token

namespace TokenTree

mutual

def relocate : TokenTree → TokenTree
  | .leaf token => .leaf (token.relocate move)
  | .group position content => .group (move position) (relocateAll content)
  | .call name position arguments => .call name (move position) (relocateArguments arguments)

def relocateAll : List TokenTree → List TokenTree
  | [] => []
  | tree :: trees => relocate tree :: relocateAll trees

def relocateArguments : List (List TokenTree) → List (List TokenTree)
  | [] => []
  | argument :: arguments => relocateAll argument :: relocateArguments arguments

end

theorem relocateAll_eq_map (trees : List TokenTree) :
    relocateAll move trees = trees.map (relocate move) := by
  induction trees with
  | nil => rfl
  | cons tree trees ih => rw [relocateAll, ih, List.map_cons]

theorem relocateArguments_eq_map (arguments : List (List TokenTree)) :
    relocateArguments move arguments = arguments.map (List.map (relocate move)) := by
  induction arguments with
  | nil => rfl
  | cons argument arguments ih =>
      rw [relocateArguments, ih, relocateAll_eq_map, List.map_cons]

@[simp]
theorem relocate_leaf (token : Token) : (leaf token).relocate move = .leaf (token.relocate move) :=
  rfl

@[simp]
theorem relocate_group (position : Nat) (content : List TokenTree) :
    (group position content).relocate move =
      .group (move position) (content.map (relocate move)) := by
  rw [relocate, relocateAll_eq_map]

@[simp]
theorem relocate_call (name : String) (position : Nat) (arguments : List (List TokenTree)) :
    (call name position arguments).relocate move =
      .call name (move position) (arguments.map (List.map (relocate move))) := by
  rw [relocate, relocateArguments_eq_map]

end TokenTree

namespace Expr

mutual

def relocate : Expr → Expr
  | .number text position => .number text (move position)
  | .string content position => .string content (move position)
  | .identifier name position => .identifier name (move position)
  | .call name position arguments => .call name (move position) (relocateArguments arguments)
  | .operation operator position left right =>
      .operation operator (move position) (relocateOperand left) (relocateOperand right)

def relocateOperand : Option Expr → Option Expr
  | none => none
  | some expr => some (relocate expr)

def relocateArguments : List (Option Expr) → List (Option Expr)
  | [] => []
  | argument :: arguments => relocateOperand argument :: relocateArguments arguments

end

theorem relocateOperand_eq_map (operand : Option Expr) :
    relocateOperand move operand = operand.map (relocate move) := by
  cases operand with
  | none => rfl
  | some expr => rfl

theorem relocateArguments_eq_map (arguments : List (Option Expr)) :
    relocateArguments move arguments = arguments.map (Option.map (relocate move)) := by
  induction arguments with
  | nil => rfl
  | cons argument arguments ih =>
      rw [relocateArguments, ih, relocateOperand_eq_map, List.map_cons]

theorem relocate_call (name : String) (position : Nat) (arguments : List (Option Expr)) :
    (call name position arguments).relocate move =
      .call name (move position) (arguments.map (Option.map (relocate move))) := by
  rw [relocate, relocateArguments_eq_map]

end Expr

def Error.relocate : Error → Error
  | .lexical position fault => .lexical (move position) fault
  | .unmatchedParenthesis position => .unmatchedParenthesis (move position)
  | .structural position fault => .structural (position.map move) fault
  | error => error

/-- Moves the positions of an outcome, given how to move those of a result. -/
def relocateOutcome {α : Type} (relocate : α → α) (outcome : Except Error α) : Except Error α :=
  (outcome.map relocate).mapError (Error.relocate move)

section Outcome

variable {move} {α β : Type} {relocate : α → α} {relocate' : β → β}

@[simp]
theorem relocateOutcome_ok (result : α) :
    relocateOutcome move relocate (.ok result) = .ok (relocate result) := rfl

@[simp]
theorem relocateOutcome_error (error : Error) :
    relocateOutcome move relocate (.error error) = .error (error.relocate move) := rfl

theorem relocateOutcome_bind {outcome : Except Error α} {next next' : α → Except Error β}
    (continues : ∀ result, next' (relocate result) =
      relocateOutcome move relocate' (next result)) :
    relocateOutcome move relocate outcome >>= next' =
      relocateOutcome move relocate' (outcome >>= next) := by
  cases outcome with
  | ok result => exact continues result
  | error error => rfl

theorem relocateOutcome_mapM {items : List α} {step step' : α → Except Error β}
    (continues : ∀ item ∈ items, step' (relocate item) =
      relocateOutcome move relocate' (step item)) :
    (items.map relocate).mapM step' =
      relocateOutcome move (List.map relocate') (items.mapM step) := by
  induction items with
  | nil => rfl
  | cons item items ih =>
      rw [List.map_cons, List.mapM_cons, List.mapM_cons, continues item (.head _),
        ih fun item member => continues item (.tail _ member)]
      refine relocateOutcome_bind fun result => ?_
      exact relocateOutcome_bind fun results => rfl

end Outcome

/-! ## Folding signs -/

namespace Token

variable {move} {grammar : Grammar}

theorem beginWithSignedNumber_relocate (tokens : List Token) :
    beginWithSignedNumber (tokens.map (relocate move)) = beginWithSignedNumber tokens := by
  have sameSign : isSign ∘ relocate move = isSign := rfl
  have sameNumber (token : Option Token) :
      (token.map (relocate move)).any (fun token => token.kind == .number) =
        token.any fun token => token.kind == .number := by
    cases token with
    | none => rfl
    | some token => rfl
  have sameFirst : (tokens.map (relocate move)).head?.any isSign = tokens.head?.any isSign := by
    cases tokens with
    | nil => rfl
    | cons token tokens => rfl
  rw [beginWithSignedNumber, beginWithSignedNumber, sameFirst, List.dropWhile_map, sameSign,
    List.head?_map, sameNumber]

theorem afterSign_relocate (previous sign : Token) :
    (previous.relocate move).afterSign (sign.relocate move) =
      (previous.afterSign sign).relocate move := by
  unfold afterSign
  rw [isMinus_relocate, isMinus_relocate]
  split
  · rfl
  · rfl

theorem foldOnto_relocate (folded : List Token) (token : Token) :
    foldOnto grammar (folded.map (relocate move)) (token.relocate move) =
      (foldOnto grammar folded token).map (relocate move) := by
  cases folded with
  | nil => rfl
  | cons previous before =>
      have sameStart : (before.map (relocate move)).head?.all (expectsOperand grammar) =
          before.head?.all (expectsOperand grammar) := by
        cases before with
        | nil => rfl
        | cons => rfl
      rw [List.map_cons]
      unfold foldOnto
      dsimp only
      rw [isSign_relocate, isSign_relocate, isMinus_relocate, kind_relocate, sameStart,
        afterSign_relocate]
      split
      · split
        · rfl
        · split
          · split
            · rfl
            · rfl
          · rfl
      · rfl

theorem foldSigns_relocate (tokens : List Token) :
    foldSigns grammar (tokens.map (relocate move)) =
      (foldSigns grammar tokens).map (relocate move) := by
  suffices general : ∀ folded : List Token,
      (tokens.map (relocate move)).foldl (foldOnto grammar) (folded.map (relocate move)) =
        (tokens.foldl (foldOnto grammar) folded).map (relocate move) by
    unfold foldSigns
    rw [List.map_reverse, ← general]
    rfl
  induction tokens with
  | nil => exact fun _ => rfl
  | cons token tokens ih =>
      intro folded
      rw [List.map_cons, List.foldl_cons, foldOnto_relocate, ih, List.foldl_cons]

end Token

/-! ## Matching parentheses -/

namespace TokenTree

variable {move}

theorem isComma_relocate (tree : TokenTree) : (tree.relocate move).isComma = tree.isComma := by
  cases tree with
  | leaf => rfl
  | group => rfl
  | call => rfl

theorem splitAtCommas_relocate (trees : List TokenTree) :
    splitAtCommas (trees.map (relocate move)) =
      (splitAtCommas trees).map (List.map (relocate move)) := by
  induction trees with
  | nil => rfl
  | cons tree trees ih =>
      simp only [List.map_cons, splitAtCommas, isComma_relocate, ih]
      split
      · rfl
      · cases splitAtCommas trees with
        | nil => rfl
        | cons => rfl

theorem splitArguments_relocate (trees : List TokenTree) :
    splitArguments (trees.map (relocate move)) =
      (splitArguments trees).map (List.map (relocate move)) := by
  cases trees with
  | nil => rfl
  | cons tree trees => exact splitAtCommas_relocate (tree :: trees)

def Frame.relocate (move : Nat → Nat) (frame : Frame) : Frame :=
  ⟨move frame.position, frame.before.map (TokenTree.relocate move)⟩

theorem Frame.close_relocate (frame : Frame) (content : List TokenTree) :
    (frame.relocate move).close (content.map (TokenTree.relocate move)) =
      (frame.close content).map (TokenTree.relocate move) := by
  obtain ⟨position, before⟩ := frame
  cases before with
  | nil => simp [relocate, close]
  | cons last before =>
      cases last with
      | leaf token =>
          simp only [relocate, close, List.map_cons, relocate_leaf, Token.kind_relocate,
            Token.lexeme_relocate]
          split
          · simp [splitArguments_relocate, Token.relocate]
          · simp
      | group => simp [relocate, close]
      | call => simp [relocate, close]

theorem groupOnto_relocate (maxDepth : Nat) (frames : List Frame) (level : List TokenTree)
    (tokens : List Token) :
    groupOnto maxDepth (frames.map (Frame.relocate move)) (level.map (relocate move))
        (tokens.map (Token.relocate move)) =
      relocateOutcome move (List.map (relocate move)) (groupOnto maxDepth frames level tokens) := by
  fun_induction groupOnto maxDepth frames level tokens with
  | case1 level => simp [groupOnto]
  | case2 => rfl
  | case3 level token tokens frame frames kind ih =>
      rw [List.map_cons, List.map_cons, groupOnto_closing (by exact kind), ← List.map_reverse,
        Frame.close_relocate, ih]
  | case4 level token tokens frames kind full =>
      rw [List.map_cons, groupOnto_opening (by exact kind), List.length_map, if_pos full]
      rfl
  | case5 level token tokens frames kind below ih =>
      rw [List.map_cons, groupOnto_opening (by exact kind), List.length_map, if_neg below, ← ih]
      rfl
  | case6 level token tokens frames notClosing notOpening ih =>
      rw [List.map_cons, groupOnto_leaf (by exact notOpening), ← ih]
      · rfl
      · intro kind
        cases frames with
        | nil => rfl
        | cons frame frames => exact (notClosing frame frames kind rfl).elim

theorem ofTokens_relocate (maxDepth : Nat) (tokens : List Token) :
    ofTokens maxDepth (tokens.map (Token.relocate move)) =
      relocateOutcome move (List.map (relocate move)) (ofTokens maxDepth tokens) :=
  groupOnto_relocate maxDepth [] [] tokens

end TokenTree

/-! ## Building -/

namespace Expr

variable {move} {grammar : Grammar}

theorem operator?_relocate (tree : TokenTree) :
    (tree.relocate move).operator? = tree.operator? := by
  cases tree with
  | leaf => rfl
  | group => rfl
  | call => rfl

theorem position_relocate (tree : TokenTree) :
    (tree.relocate move).position = move tree.position := by
  cases tree with
  | leaf => rfl
  | group => rfl
  | call => rfl

theorem lastIndex?_map {α β : Type} (convert : α → β) (found : β → Bool) (items : List α) :
    lastIndex? found (items.map convert) = lastIndex? (found ∘ convert) items := by
  induction items with
  | nil => rfl
  | cons item items ih => simp only [List.map_cons, lastIndex?, ih, Function.comp_apply]

theorem occurrence?_relocate (spelling : String) (trees : List TokenTree) :
    occurrence? grammar spelling (trees.map (TokenTree.relocate move)) =
      occurrence? grammar spelling trees := by
  have sameSpelling : isSpelling spelling ∘ TokenTree.relocate move = isSpelling spelling := by
    funext tree
    simp only [Function.comp_apply, isSpelling, operator?_relocate]
  unfold occurrence?
  rw [lastIndex?_map, List.findIdx?_map, sameSpelling]

def Split.relocate (move : Nat → Nat) (split : Split) : Split where
  before := split.before.map (TokenTree.relocate move)
  operator := split.operator
  position := move split.position
  after := split.after.map (TokenTree.relocate move)

theorem split?_relocate (trees : List TokenTree) :
    split? grammar (trees.map (TokenTree.relocate move)) =
      (split? grammar trees).map (Split.relocate move) := by
  have sameIndex : tierIndex? grammar (trees.map (TokenTree.relocate move)) =
      tierIndex? grammar trees := by
    funext tier
    simp only [tierIndex?, occurrence?_relocate]
  unfold split?
  rw [sameIndex]
  cases grammar.tiers.findSome? (tierIndex? grammar trees) with
  | none => rfl
  | some index =>
      simp only [Option.bind_eq_bind, Option.bind_some, splitAt?, ← List.map_drop, ← List.map_take]
      cases trees.drop index with
      | nil => rfl
      | cons tree after =>
          simp only [List.map_cons, operator?_relocate, position_relocate, Option.map_map]
          rfl

def Shape.relocate (move : Nat → Nat) : Shape → Shape
  | .prefixed operand => .prefixed (operand.map (TokenTree.relocate move))
  | .suffixed operand => .suffixed (operand.map (TokenTree.relocate move))
  | .infixed left right =>
      .infixed (left.map (TokenTree.relocate move)) (right.map (TokenTree.relocate move))
  | .negated operand => .negated (operand.map (TokenTree.relocate move))
  | .plain operand => .plain (operand.map (TokenTree.relocate move))

theorem unaryShape_relocate (split : Split) :
    unaryShape grammar (split.relocate move) =
      relocateOutcome move (Shape.relocate move) (unaryShape grammar split) := by
  obtain ⟨before, operator, position, after⟩ := split
  simp only [unaryShape, Split.relocate]
  cases grammar.isPrefixOperator operator <;> cases grammar.isSuffixOperator operator <;>
    cases before <;> cases after <;> simp [fail, position_relocate] <;> rfl

theorem binaryShape_relocate (split : Split) :
    binaryShape (split.relocate move) = (binaryShape split).relocate move := by
  obtain ⟨before, operator, position, after⟩ := split
  cases before with
  | nil =>
      simp only [binaryShape, Split.relocate, List.map_nil]
      split
      · rfl
      · rfl
      · rfl
  | cons => rfl

theorem lacksOperand_relocate (shape : Shape) :
    (shape.relocate move).lacksOperand = shape.lacksOperand := by
  cases shape <;> simp [Shape.relocate, Shape.lacksOperand]

theorem shape_relocate (split : Split) :
    shape grammar (split.relocate move) =
      relocateOutcome move (Shape.relocate move) (shape grammar split) := by
  have sameOperator : (split.relocate move).operator = split.operator := rfl
  unfold shape
  rw [sameOperator, unaryShape_relocate, binaryShape_relocate]
  have completed : ∀ picked : Except Error Shape,
      (relocateOutcome move (Shape.relocate move) picked >>= fun shape =>
          if shape.lacksOperand then
            fail (split.relocate move).position (.missingOperand split.operator)
          else .ok shape) =
        relocateOutcome move (Shape.relocate move) (picked >>= fun shape =>
          if shape.lacksOperand then fail split.position (.missingOperand split.operator)
          else .ok shape) := by
    intro picked
    refine relocateOutcome_bind fun shape => ?_
    rw [lacksOperand_relocate]
    split
    · rfl
    · rfl
  split
  · exact completed _
  · exact completed (.ok (binaryShape split))

theorem ofLeaf_relocate (token : Token) :
    ofLeaf (token.relocate move) = relocateOutcome move (relocate move) (ofLeaf token) := by
  obtain ⟨kind, text, position⟩ := token
  cases kind <;> rfl

theorem buildArgument_relocate {build : List TokenTree → Except Error Expr}
    (continues : ∀ trees, build (trees.map (TokenTree.relocate move)) =
      relocateOutcome move (relocate move) (build trees)) (argument : List TokenTree) :
    buildArgument build (argument.map (TokenTree.relocate move)) =
      relocateOutcome move (Option.map (relocate move)) (buildArgument build argument) := by
  unfold buildArgument
  rw [List.isEmpty_map, continues]
  split
  · rfl
  · cases build argument with
    | ok expr => rfl
    | error error => rfl

theorem buildWithin_relocate (maxDepth levels : Nat) (trees : List TokenTree) :
    buildWithin grammar maxDepth levels (trees.map (TokenTree.relocate move)) =
      relocateOutcome move (relocate move) (buildWithin grammar maxDepth levels trees) := by
  induction levels generalizing trees with
  | zero => rfl
  | succ levels ih =>
      unfold buildWithin
      rw [split?_relocate]
      cases split? grammar trees with
      | none =>
          dsimp only [Option.map_none]
          obtain _ | ⟨first, _ | ⟨second, rest⟩⟩ := trees
          · rfl
          · cases first with
            | leaf token => exact ofLeaf_relocate token
            | group position content =>
                simp only [List.map_cons, List.map_nil, TokenTree.relocate_group]
                exact ih content
            | call name position arguments =>
                simp only [List.map_cons, List.map_nil, TokenTree.relocate_call]
                change (arguments.map (List.map (TokenTree.relocate move))).mapM
                  (buildArgument (buildWithin grammar maxDepth levels)) >>= _ = _
                rw [relocateOutcome_mapM fun argument _ => buildArgument_relocate ih argument]
                refine relocateOutcome_bind fun values => ?_
                rw [← relocate_call]
                rfl
          · cases first <;> simp [fail, position_relocate, Error.relocate]
      | some split =>
          simp only [Option.map_some, shape_relocate]
          refine relocateOutcome_bind fun shape => ?_
          cases shape with
          | prefixed operand =>
              simp only [Shape.relocate]
              rw [ih]
              exact relocateOutcome_bind fun _ => rfl
          | suffixed operand =>
              simp only [Shape.relocate]
              rw [ih]
              exact relocateOutcome_bind fun _ => rfl
          | infixed left right =>
              simp only [Shape.relocate]
              rw [ih, ih]
              refine relocateOutcome_bind fun _ => ?_
              exact relocateOutcome_bind fun _ => rfl
          | negated operand =>
              simp only [Shape.relocate]
              rw [ih]
              exact relocateOutcome_bind fun _ => rfl
          | plain operand => exact ih operand

theorem build_relocate (maxDepth : Nat) (trees : List TokenTree) :
    build grammar maxDepth (trees.map (TokenTree.relocate move)) =
      relocateOutcome move (relocate move) (build grammar maxDepth trees) :=
  buildWithin_relocate maxDepth (maxDepth + 1) trees

theorem Builds.relocate {levels : Nat} {trees : List TokenTree} {expr : Expr}
    (builds : Builds grammar levels trees expr) (move : Nat → Nat) :
    Builds grammar levels (trees.map (TokenTree.relocate move)) (expr.relocate move) := by
  have built := @buildWithin_relocate move grammar levels levels trees
  rw [builds.ok] at built
  exact .of_ok built

/-- What compiled alone is grouped in the same way inside other tokens and at another place. -/
theorem Builds.groups {levels room : Nat} {tokens : List Token} {trees : List TokenTree}
    {expr : Expr} (builds : Builds grammar levels trees expr)
    (grouped : TokenTree.ofTokens room tokens = .ok trees) (move : Nat → Nat) :
    TokenTree.Groups room (tokens.map (Token.relocate move))
      (trees.map (TokenTree.relocate move)) := by
  refine TokenTree.groups_of_ofTokens ?_ fun leaf => (builds.relocate move).kind_ne_rightParen
  rw [TokenTree.ofTokens_relocate, grouped]
  rfl

end Expr

end Formula
