import Formula.Proofs.Expr.Induction
import Formula.Proofs.Expr.Operations
import Formula.Proofs.Token.Places

/-!
# Nothing is lost between the tokens and the expression

An expression read in order gives the literals, names and operators of its tokens back, each once
and in its place.  Only a plus without left operand leaves no node.  An operator node has its
operands on the sides where the grammar puts them.
-/

namespace Formula

/-- A token that is more than punctuation. -/
structure Word where
  kind : Token.Kind
  text : String
  position : Nat
deriving DecidableEq, Repr

def Word.isPlus (word : Word) : Bool :=
  word.kind == .operator && word.text == "+"

/-! ## Words of tokens -/

namespace Token

def word? (token : Token) : Option Word :=
  match token.kind with
  | .number | .stringLiteral | .identifier | .operator =>
      some ⟨token.kind, token.lexeme, token.position⟩
  | _ => none

def words (tokens : List Token) : List Word :=
  tokens.filterMap word?

theorem word?_eq_some {token : Token} {word : Word} (isWord : token.word? = some word) :
    word.kind = token.kind ∧ word.text = token.lexeme ∧ word.position = token.position := by
  unfold word? at isWord
  split at isWord <;> cases isWord <;> exact ⟨rfl, rfl, rfl⟩

end Token

/-! ## Words of trees -/

namespace TokenTree

mutual

/-- The name of a call comes before its arguments. -/
def words : TokenTree → List Word
  | .leaf token => token.word?.toList
  | .group _ content => wordsOfAll content
  | .call name position arguments =>
      ⟨.identifier, name, position⟩ :: wordsOfArguments arguments

def wordsOfAll : List TokenTree → List Word
  | [] => []
  | tree :: trees => tree.words ++ wordsOfAll trees

def wordsOfArguments : List (List TokenTree) → List Word
  | [] => []
  | argument :: arguments => wordsOfAll argument ++ wordsOfArguments arguments

end

theorem wordsOfAll_append (before after : List TokenTree) :
    wordsOfAll (before ++ after) = wordsOfAll before ++ wordsOfAll after := by
  induction before with
  | nil => rfl
  | cons tree before ih => rw [List.cons_append, wordsOfAll, wordsOfAll, ih, List.append_assoc]

theorem words_of_operator? {tree : TokenTree} {spelling : String}
    (isOperator : tree.operator? = some spelling) :
    tree.words = [⟨.operator, spelling, tree.position⟩] := by
  obtain ⟨token, rfl, kind, rfl⟩ := operator?_eq_some_iff.mp isOperator
  simp [words, Token.word?, kind, position]

theorem words_of_isComma {tree : TokenTree} (comma : tree.isComma = true) : tree.words = [] := by
  cases tree with
  | leaf token =>
      have kind : token.kind = .comma := by simpa [isComma] using comma
      simp [words, Token.word?, kind]
  | group position content => simp [isComma] at comma
  | call name position arguments => simp [isComma] at comma

theorem wordsOfArguments_consFirst (tree : TokenTree) (arguments : List (List TokenTree)) :
    wordsOfArguments (consFirst tree arguments) = tree.words ++ wordsOfArguments arguments := by
  cases arguments with
  | nil => simp [consFirst, wordsOfArguments, wordsOfAll]
  | cons first rest => simp [consFirst, wordsOfArguments, wordsOfAll]

theorem wordsOfArguments_splitAtCommas (content : List TokenTree) :
    wordsOfArguments (splitAtCommas content) = wordsOfAll content := by
  induction content with
  | nil => rfl
  | cons tree content ih =>
      unfold splitAtCommas
      split
      · next comma => simp [wordsOfArguments, wordsOfAll, words_of_isComma comma, ih]
      · rw [wordsOfArguments_consFirst, ih, wordsOfAll]

theorem wordsOfArguments_splitArguments (content : List TokenTree) :
    wordsOfArguments (splitArguments content) = wordsOfAll content := by
  cases content with
  | nil => rfl
  | cons tree content => exact wordsOfArguments_splitAtCommas (tree :: content)

/-! ## Words while grouping -/

/-- A name that becomes the name of a call stays where it was. -/
theorem Frame.wordsOfAll_close (frame : Frame) (content : List TokenTree) :
    wordsOfAll (frame.close content).reverse =
      wordsOfAll frame.before.reverse ++ wordsOfAll content := by
  unfold close
  split
  · next token before same =>
      split
      · next isName =>
          simp [same, wordsOfAll_append, wordsOfAll, words, Token.word?, isName,
            wordsOfArguments_splitArguments]
      · simp [wordsOfAll_append, wordsOfAll, words]
  · simp [wordsOfAll_append, wordsOfAll, words]

def wordsOfFrames : List Frame → List Word
  | [] => []
  | frame :: frames => wordsOfFrames frames ++ wordsOfAll frame.before.reverse

/-- The words read so far, those of the enclosing levels first. -/
theorem wordsOfAll_of_groupOnto {maxDepth : Nat} {frames : List Frame}
    {level trees : List TokenTree} {tokens : List Token}
    (grouped : groupOnto maxDepth frames level tokens = .ok trees) :
    wordsOfAll trees = wordsOfFrames frames ++ wordsOfAll level.reverse ++ Token.words tokens := by
  fun_induction groupOnto maxDepth frames level tokens with
  | case1 level =>
      obtain rfl := Except.ok.inj grouped
      simp [wordsOfFrames, Token.words]
  | case2 => cases grouped
  | case3 level token tokens frame frames kind ih =>
      rw [ih grouped, frame.wordsOfAll_close]
      simp [wordsOfFrames, Token.words, Token.word?, kind]
  | case4 => cases grouped
  | case5 level token tokens frames kind below ih =>
      rw [ih grouped]
      simp [wordsOfFrames, wordsOfAll, Token.words, Token.word?, kind]
  | case6 level token tokens frames notClosing notOpening ih =>
      rw [ih grouped, List.reverse_cons, wordsOfAll_append]
      simp only [wordsOfAll, words, Token.words, List.append_assoc, List.nil_append]
      cases isWord : token.word? with
      | none => simp [isWord]
      | some word => simp [isWord]

theorem wordsOfAll_of_ofTokens {maxDepth : Nat} {tokens : List Token} {trees : List TokenTree}
    (grouped : ofTokens maxDepth tokens = .ok trees) : wordsOfAll trees = Token.words tokens := by
  simpa [wordsOfFrames, wordsOfAll] using wordsOfAll_of_groupOnto grouped

end TokenTree

/-! ## Words of expressions -/

namespace Expr

open TokenTree (wordsOfAll wordsOfArguments)

/-- The zero that stands for the missing left operand of a minus, at the position of this minus. -/
def isImpliedZero (operator : String) (position : Nat) : Option Expr → Bool
  | some (.number text place) => operator == "-" && text == "0" && place == position
  | _ => false

mutual

/-- What an expression is written with, from left to right. -/
def words : Expr → List Word
  | .number text position => [⟨.number, text, position⟩]
  | .string content position => [⟨.stringLiteral, content, position⟩]
  | .identifier name position => [⟨.identifier, name, position⟩]
  | .call name position arguments => ⟨.identifier, name, position⟩ :: argumentWords arguments
  | .operation operator position left right =>
      (if isImpliedZero operator position left then [] else operandWords left) ++
        ⟨.operator, operator, position⟩ :: operandWords right

def operandWords : Option Expr → List Word
  | none => []
  | some expr => expr.words

def argumentWords : List (Option Expr) → List Word
  | [] => []
  | argument :: arguments => operandWords argument ++ argumentWords arguments

end

/-! ## The words of the nodes -/

/-- The word that a node itself is written with. -/
def word : Expr → Word
  | .number text position => ⟨.number, text, position⟩
  | .string content position => ⟨.stringLiteral, content, position⟩
  | .identifier name position => ⟨.identifier, name, position⟩
  | .call name position _ => ⟨.identifier, name, position⟩
  | .operation operator position _ _ => ⟨.operator, operator, position⟩

theorem operandWords_subset_argumentWords {arguments : List (Option Expr)} {argument : Expr}
    (member : some argument ∈ arguments) : argument.words ⊆ argumentWords arguments := by
  induction arguments with
  | nil => cases member
  | cons first arguments ih =>
      rw [argumentWords]
      rcases List.mem_cons.mp member with rfl | later
      · exact List.subset_append_left _ _
      · exact List.Subset.trans (ih later) (List.subset_append_right _ _)

theorem eq_zero_of_isImpliedZero {operator : String} {position : Nat} {left : Option Expr}
    (isZero : isImpliedZero operator position left = true) :
    operator = "-" ∧ left = some (.number "0" position) := by
  unfold isImpliedZero at isZero
  split at isZero
  · simp only [Bool.and_eq_true, beq_iff_eq] at isZero
    obtain ⟨⟨rfl, rfl⟩, rfl⟩ := isZero
    exact ⟨rfl, rfl⟩
  · cases isZero

/-- Every node is written, except for the zero in front of a minus. -/
theorem word_mem_words {node expr : Expr} (isNode : node ∈ expr.nodes) :
    node.word ∈ expr.words ∨
      ∃ position, node = .number "0" position ∧ ⟨.operator, "-", position⟩ ∈ expr.words := by
  have inside {inner outer : Expr} (within : inner.words ⊆ outer.words)
      (written : node.word ∈ inner.words ∨
        ∃ position, node = .number "0" position ∧ ⟨.operator, "-", position⟩ ∈ inner.words) :
      node.word ∈ outer.words ∨
        ∃ position, node = .number "0" position ∧ ⟨.operator, "-", position⟩ ∈ outer.words :=
    written.imp (within ·) fun ⟨position, isZero, isMinus⟩ => ⟨position, isZero, within isMinus⟩
  induction expr using nestedInduction with
  | number | string | identifier =>
      obtain rfl := List.mem_singleton.mp isNode
      exact .inl (.head _)
  | call name position arguments ih =>
      obtain rfl | ⟨argument, given, isInner⟩ := mem_nodes_call_iff.mp isNode
      · exact .inl (.head _)
      · refine inside (fun _ isWord => ?_) (ih argument given isInner)
        exact .tail _ (operandWords_subset_argumentWords given isWord)
  | operation operator position left right ihLeft ihRight =>
      obtain rfl | ⟨operand, rfl, isInner⟩ | ⟨operand, rfl, isInner⟩ :=
        mem_nodes_operation_iff.mp isNode
      · exact .inl (List.mem_append_right _ (.head _))
      · cases isZero : isImpliedZero operator position (some operand) with
        | false =>
            refine inside (fun _ isWord => ?_) (ihLeft operand rfl isInner)
            rw [words, isZero]
            exact List.mem_append_left _ isWord
        | true =>
            obtain ⟨rfl, isNumber⟩ := eq_zero_of_isImpliedZero isZero
            obtain rfl := Option.some.inj isNumber
            obtain rfl := List.mem_singleton.mp isInner
            exact .inr ⟨position, rfl, List.mem_append_right _ (.head _)⟩
      · refine inside (fun _ isWord => ?_) (ihRight operand rfl isInner)
        exact List.mem_append_right _ (.tail _ isWord)

/-! ## Words of leaves and splits -/

theorem words_of_ofLeaf {token : Token} {expr : Expr} (isOperand : ofLeaf token = .ok expr) :
    expr.words = (TokenTree.leaf token).words := by
  unfold ofLeaf fail at isOperand
  split at isOperand <;> cases isOperand <;> simp_all [words, TokenTree.words, Token.word?]

theorem wordsOfAll_of_split? {grammar : Grammar} {trees : List TokenTree} {split : Split}
    (splits : split? grammar trees = some split) :
    wordsOfAll trees =
      wordsOfAll split.before ++ ⟨.operator, split.operator, split.position⟩ ::
        wordsOfAll split.after := by
  obtain ⟨tree, isOperator, samePosition, rfl⟩ := split?_eq_some splits
  rw [TokenTree.wordsOfAll_append, wordsOfAll, TokenTree.words_of_operator? isOperator,
    samePosition, List.singleton_append]

/-! ## The words of a build -/

/-- The words that are read are those that are given, apart from some of the pluses. -/
def LosesPluses (read given : List Word) : Prop :=
  read.Sublist given ∧
    read.filter (fun word => !word.isPlus) = given.filter fun word => !word.isPlus

namespace LosesPluses

theorem refl (words : List Word) : LosesPluses words words :=
  ⟨.refl _, rfl⟩

theorem append {read given read' given' : List Word} (loses : LosesPluses read given)
    (loses' : LosesPluses read' given') : LosesPluses (read ++ read') (given ++ given') :=
  ⟨loses.1.append loses'.1, by rw [List.filter_append, List.filter_append, loses.2, loses'.2]⟩

theorem cons {read given : List Word} (word : Word) (loses : LosesPluses read given) :
    LosesPluses (word :: read) (word :: given) :=
  (refl [word]).append loses

theorem plus {read given : List Word} {word : Word} (isPlus : word.isPlus = true)
    (loses : LosesPluses read given) : LosesPluses read (word :: given) :=
  ⟨loses.1.cons word, by simp [isPlus, loses.2]⟩

end LosesPluses

/-- No number stands where an operator does. -/
def NumbersApart (words : List Word) : Prop :=
  ∀ number ∈ words, ∀ operator ∈ words, number.kind = .number → operator.kind = .operator →
    number.position ≠ operator.position

theorem NumbersApart.mono {some all : List Word} (apart : NumbersApart all) (within : some ⊆ all) :
    NumbersApart some :=
  fun number isNumber operator isOperator =>
    apart number (within isNumber) operator (within isOperator)

theorem NumbersApart.sides {grammar : Grammar} {trees : List TokenTree} {split : Split}
    (apart : NumbersApart (wordsOfAll trees)) (splits : split? grammar trees = some split) :
    NumbersApart (wordsOfAll split.before) ∧ NumbersApart (wordsOfAll split.after) := by
  rw [wordsOfAll_of_split? splits] at apart
  exact ⟨apart.mono (List.subset_append_left _ _),
    apart.mono fun _ member => List.mem_append_right _ (.tail _ member)⟩

theorem wordsOfAll_subset_wordsOfArguments {arguments : List (List TokenTree)}
    {argument : List TokenTree} (member : argument ∈ arguments) :
    wordsOfAll argument ⊆ wordsOfArguments arguments := by
  induction arguments with
  | nil => cases member
  | cons first arguments ih =>
      rw [wordsOfArguments]
      rcases List.mem_cons.mp member with rfl | later
      · exact List.subset_append_left _ _
      · exact List.Subset.trans (ih later) (List.subset_append_right _ _)

theorem losesPluses_arguments {arguments : List (List TokenTree)} {values : List (Option Expr)}
    (same : values.map Option.isNone = arguments.map List.isEmpty)
    (each : ∀ argument value, (argument, some value) ∈ arguments.zip values →
      LosesPluses value.words (wordsOfAll argument)) :
    LosesPluses (argumentWords values) (wordsOfArguments arguments) := by
  induction arguments generalizing values with
  | nil =>
      obtain rfl : values = [] := by simpa using same
      exact .refl []
  | cons argument arguments ih =>
      cases values with
      | nil => cases same
      | cons value values =>
          obtain ⟨sameFirst, sameRest⟩ := List.cons.inj same
          refine .append ?_ (ih sameRest fun other value later => each other value (.tail _ later))
          cases value with
          | none =>
              obtain rfl : argument = [] := by simpa using sameFirst
              exact .refl []
          | some value => exact each argument value (.head _)

/-- A number in front of a minus stands at a place of its own, so it is not taken for the zero that
a minus without left operand is given. -/
theorem isImpliedZero_eq_false {grammar : Grammar} {trees : List TokenTree} {split : Split}
    {left : Expr} (splits : split? grammar trees = some split)
    (apart : NumbersApart (wordsOfAll trees))
    (kept : left.words.Sublist (wordsOfAll split.before)) :
    isImpliedZero split.operator split.position (some left) = false := by
  rw [wordsOfAll_of_split? splits] at apart
  rw [← Bool.not_eq_true]
  intro isZero
  obtain rfl := Option.some.inj (eq_zero_of_isImpliedZero isZero).2
  have isWord : ⟨.number, "0", split.position⟩ ∈ wordsOfAll split.before := kept.subset (.head _)
  exact apart _ (List.mem_append_left _ isWord) _ (List.mem_append_right _ (.head _)) rfl rfl rfl

theorem Builds.losesPluses {grammar : Grammar} {levels : Nat} {trees : List TokenTree}
    {expr : Expr} (builds : Builds grammar levels trees expr)
    (apart : NumbersApart (wordsOfAll trees)) : LosesPluses expr.words (wordsOfAll trees) := by
  induction builds with
  | prefixed splits fits _ ih =>
      obtain ⟨-, empty, rfl, -⟩ := fits
      rw [wordsOfAll_of_split? splits, empty]
      exact (ih (apart.sides splits).2).cons _
  | suffixed splits fits _ ih =>
      obtain ⟨-, rfl, empty, -⟩ := fits
      have kept := ih (apart.sides splits).1
      rw [words, isImpliedZero_eq_false splits apart kept.1, wordsOfAll_of_split? splits, empty]
      exact kept.append (.refl _)
  | infixed splits fits _ _ ihLeft ihRight =>
      obtain ⟨-, rfl, rfl, -⟩ := fits
      have kept := ihLeft (apart.sides splits).1
      rw [words, isImpliedZero_eq_false splits apart kept.1, wordsOfAll_of_split? splits]
      exact kept.append ((ihRight (apart.sides splits).2).cons _)
  | @negated _ _ _ split _ splits fits _ ih =>
      obtain ⟨-, minus, empty, rfl, -⟩ := fits
      have isZero : isImpliedZero split.operator split.position
          (some (.number "0" split.position)) = true := by simp [isImpliedZero, minus]
      rw [words, isZero, wordsOfAll_of_split? splits, empty]
      exact (ih (apart.sides splits).2).cons _
  | plain splits fits _ ih =>
      obtain ⟨-, plus, empty, rfl, -⟩ := fits
      have kept := ih (apart.sides splits).2
      rw [wordsOfAll_of_split? splits, empty]
      exact kept.plus (by simp [Word.isPlus, plus])
  | leaf isOperand =>
      rw [words_of_ofLeaf isOperand, wordsOfAll, wordsOfAll, List.append_nil]
      exact .refl _
  | group _ ih =>
      rw [wordsOfAll, wordsOfAll, List.append_nil] at apart ⊢
      exact ih apart
  | call same _ ih =>
      rw [wordsOfAll, wordsOfAll, List.append_nil, TokenTree.words] at apart ⊢
      refine .cons _ (losesPluses_arguments same fun argument value member => ?_)
      have within := wordsOfAll_subset_wordsOfArguments (List.of_mem_zip member).1
      exact ih argument value member (apart.mono fun _ isWord => .tail _ (within isWord))

end Expr

/-! ## Words of a text -/

namespace Token

theorem mem_words_iff {tokens : List Token} {word : Word} :
    word ∈ words tokens ↔ ∃ token ∈ tokens, token.word? = some word :=
  List.mem_filterMap

/-- Where a number stands no other token of the text does, whether its signs are folded or not. -/
theorem numbersApart {text : List Char} {tokens : List Token}
    (stand : ∀ token ∈ tokens, Lexer.StandsIn text token) :
    Expr.NumbersApart (words tokens) := by
  intro number isNumber operator isOperator numberKind operatorKind samePosition
  obtain ⟨token, member, isWord⟩ := mem_words_iff.mp isNumber
  obtain ⟨other, member', isWord'⟩ := mem_words_iff.mp isOperator
  obtain ⟨kind, -, position⟩ := word?_eq_some isWord
  obtain ⟨kind', -, position'⟩ := word?_eq_some isWord'
  rw [position, position'] at samePosition
  rw [kind] at numberKind
  have sameKind := (stand token member).kind_iff (stand other member') samePosition
  have alsoNumber := sameKind.mp numberKind
  rw [← kind', operatorKind] at alsoNumber
  cases alsoNumber

end Token

namespace Expr

open TokenTree (wordsOfAll)

/-- What is built from the tokens of a text, folded or not, has an operator node for each operator
but some pluses, with operands on the sides that the grammar allows, and reads in order as the words
of the text. -/
theorem build_arranges_words {lexing grammar : Grammar} {text : String}
    {tokens given : List Token} {room maxDepth : Nat} {trees : List TokenTree} {expr : Expr}
    (tokenized : Lexer.tokenize lexing text = .ok tokens)
    (read : given = tokens ∨ ∃ folding, given = Token.foldSigns folding tokens)
    (grouped : TokenTree.ofTokens room given = .ok trees)
    (built : build grammar maxDepth trees = .ok expr) :
    expr.EveryOperation (TakesSides grammar) ∧ wordsOfAll trees = Token.words given ∧
      LosesPluses expr.words (wordsOfAll trees) := by
  have builds := Builds.of_ok built
  have sameWords := TokenTree.wordsOfAll_of_ofTokens grouped
  have stand := Lexer.standsIn_of_tokenize tokenized
  have apart : NumbersApart (Token.words given) := by
    rcases read with rfl | ⟨folding, rfl⟩
    · exact Token.numbersApart stand
    · exact Token.numbersApart (Token.standsIn_foldSigns stand)
  rw [← sameWords] at apart
  exact ⟨builds.takesSides, sameWords, builds.losesPluses apart⟩

/-- A grammar with an operator on either side, and a minus in two tiers. -/
def tildes : Grammar :=
  { Grammar.standard with
    tiers := [["+", "-"], ["-", "~"]]
    prefixOperators := .ofList ["~"]
    suffixOperators := .ofList ["~"] }

/-- Signs without left operand, and a zero of the text. -/
theorem build_arranges_words_of_tildes :
    let call : Expr := .call "f" 1 [some (.operation "~" 3 none (some (.identifier "a" 4))),
      some (.operation "~" 9 (some (.identifier "b" 8)) none)]
    let root : Expr := .operation "-" 12
      (some (.operation "-" 0 (some (.number "0" 0)) (some call))) (some (.number "0" 14))
    ∃ tokens trees, Lexer.tokenize tildes "-f(~a, +b~) - 0" = .ok tokens ∧
      TokenTree.ofTokens 1 (Token.foldSigns tildes tokens) = .ok trees ∧
      build tildes 5 trees = .ok root ∧ root.EveryOperation (TakesSides tildes) ∧
      wordsOfAll trees = Token.words (Token.foldSigns tildes tokens) ∧
        LosesPluses root.words (wordsOfAll trees) := by
  intro call root
  let tokens : List Token :=
    [⟨.operator, some "-", 0⟩, ⟨.identifier, some "f", 1⟩, ⟨.leftParen, none, 2⟩,
      ⟨.operator, some "~", 3⟩, ⟨.identifier, some "a", 4⟩, ⟨.comma, none, 5⟩,
      ⟨.operator, some "+", 7⟩, ⟨.identifier, some "b", 8⟩, ⟨.operator, some "~", 9⟩,
      ⟨.rightParen, none, 10⟩, ⟨.operator, some "-", 12⟩, ⟨.number, some "0", 14⟩]
  let trees : List TokenTree :=
    [.leaf ⟨.operator, some "-", 0⟩,
      .call "f" 1 [[.leaf ⟨.operator, some "~", 3⟩, .leaf ⟨.identifier, some "a", 4⟩],
        [.leaf ⟨.operator, some "+", 7⟩, .leaf ⟨.identifier, some "b", 8⟩,
          .leaf ⟨.operator, some "~", 9⟩]],
      .leaf ⟨.operator, some "-", 12⟩, .leaf ⟨.number, some "0", 14⟩]
  have tokenized : Lexer.tokenize tildes "-f(~a, +b~) - 0" = .ok tokens := by decide +kernel
  have grouped : TokenTree.ofTokens 1 (Token.foldSigns tildes tokens) = .ok trees := by rfl
  have built : build tildes 5 trees = .ok root := by rfl
  exact ⟨tokens, trees, tokenized, grouped, built,
    build_arranges_words tokenized (.inr ⟨tildes, rfl⟩) grouped built⟩

end Expr

end Formula
