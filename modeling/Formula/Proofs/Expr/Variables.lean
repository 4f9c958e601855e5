import Formula.Compiled
import Formula.Proofs.Expr.Builds
import Formula.Proofs.Token.Folding
import Formula.Proofs.Token.Grouping

/-!
# Variables and identifier tokens

The variables of a compiled expression are the identifiers of its text that are not called.  Folding
signs, matching parentheses and building the tree each keep this list.
-/

namespace Formula

/-! ## Names among the tokens -/

namespace Token

def opens : List Token → Bool
  | [] => false
  | token :: _ => token.kind == .leftParen

theorem opens_cons (token : Token) (tokens : List Token) :
    opens (token :: tokens) = (token.kind == .leftParen) := rfl

/-- The identifiers that no opening parenthesis follows, with their positions. -/
def valueNames : List Token → List (String × Nat)
  | [] => []
  | token :: tokens =>
      if token.kind = .identifier ∧ opens tokens = false then
        (token.lexeme, token.position) :: valueNames tokens
      else
        valueNames tokens

theorem valueNames_cons_of_ne {token : Token} (notIdentifier : token.kind ≠ .identifier)
    (tokens : List Token) : valueNames (token :: tokens) = valueNames tokens := by
  simp [valueNames, notIdentifier]

theorem valueNames_append_congr {left right : List Token}
    (sameNames : valueNames left = valueNames right) (sameOpening : opens left = opens right)
    (before : List Token) : valueNames (before ++ left) = valueNames (before ++ right) := by
  induction before with
  | nil => exact sameNames
  | cons token before ih =>
      have opening : opens (before ++ left) = opens (before ++ right) := by
        cases before with
        | nil => exact sameOpening
        | cons => rfl
      simp only [List.cons_append, valueNames, opening, ih]

theorem valueNames_foldOnto (grammar : Grammar) (folded : List Token) (token : Token)
    (tokens : List Token) :
    valueNames ((foldOnto grammar folded token).reverse ++ tokens) =
      valueNames (folded.reverse ++ token :: tokens) := by
  cases folded with
  | nil => rfl
  | cons previous before =>
      -- Neither a sign nor a token that takes it in is an identifier or a parenthesis.
      have merged : ∀ {taken : Token}, previous.isSign = true →
          (token.kind = .operator ∨ token.kind = .number) → taken.kind = token.kind →
          valueNames ((taken :: before).reverse ++ tokens) =
            valueNames ((previous :: before).reverse ++ token :: tokens) := by
        intro taken sign kind sameKind
        have previousKind := kind_of_isSign sign
        simp only [List.reverse_cons, List.append_assoc, List.singleton_append]
        refine valueNames_append_congr ?_ ?_ _
        · rw [valueNames_cons_of_ne (by grind), valueNames_cons_of_ne (by simp [previousKind]),
            valueNames_cons_of_ne (by grind)]
        · simp only [opens]
          grind
      unfold foldOnto
      dsimp only
      split
      · rename_i sign
        split
        · rename_i alsoSign
          refine merged sign (.inl (kind_of_isSign alsoSign)) ?_
          unfold afterSign
          split <;> rfl
        · split
          · rename_i number
            refine merged sign (.inr number.1) ?_
            split <;> rfl
          · simp
      · simp

theorem valueNames_foldSigns (grammar : Grammar) (tokens : List Token) :
    valueNames (foldSigns grammar tokens) = valueNames tokens := by
  suffices ∀ folded : List Token,
      valueNames (tokens.foldl (foldOnto grammar) folded).reverse =
        valueNames (folded.reverse ++ tokens) from this []
  induction tokens with
  | nil => simp
  | cons token tokens ih =>
      intro folded
      rw [List.foldl_cons, ih, valueNames_foldOnto]

end Token

/-! ## Names in the trees -/

namespace TokenTree

mutual

/-- The identifier leaves in order.  The name of a call is none of them. -/
def names : TokenTree → List (String × Nat)
  | .leaf token => if token.kind = .identifier then [(token.lexeme, token.position)] else []
  | .group _ content => namesOfAll content
  | .call _ _ arguments => namesOfArguments arguments

def namesOfAll : List TokenTree → List (String × Nat)
  | [] => []
  | tree :: trees => tree.names ++ namesOfAll trees

def namesOfArguments : List (List TokenTree) → List (String × Nat)
  | [] => []
  | argument :: arguments => namesOfAll argument ++ namesOfArguments arguments

end

theorem namesOfAll_append (before after : List TokenTree) :
    namesOfAll (before ++ after) = namesOfAll before ++ namesOfAll after := by
  induction before with
  | nil => simp [namesOfAll]
  | cons tree before ih => simp [namesOfAll, ih]

theorem names_of_operator? {tree : TokenTree} {spelling : String}
    (isOperator : tree.operator? = some spelling) : tree.names = [] := by
  obtain ⟨token, rfl, kind, -⟩ := operator?_eq_some_iff.mp isOperator
  simp [names, kind]

theorem names_of_isComma {tree : TokenTree} (comma : tree.isComma = true) : tree.names = [] := by
  cases tree with
  | leaf token =>
      have kind : token.kind = .comma := by simpa [isComma] using comma
      simp [names, kind]
  | group position content => simp [isComma] at comma
  | call name position arguments => simp [isComma] at comma

theorem namesOfArguments_consFirst (tree : TokenTree) (arguments : List (List TokenTree)) :
    namesOfArguments (consFirst tree arguments) = tree.names ++ namesOfArguments arguments := by
  cases arguments <;> simp [consFirst, namesOfArguments, namesOfAll]

theorem namesOfArguments_splitAtCommas (content : List TokenTree) :
    namesOfArguments (splitAtCommas content) = namesOfAll content := by
  induction content with
  | nil => rfl
  | cons tree content ih =>
      unfold splitAtCommas
      split
      · rename_i comma
        simp [namesOfArguments, namesOfAll, names_of_isComma comma, ih]
      · rw [namesOfArguments_consFirst, ih, namesOfAll]

theorem namesOfArguments_splitArguments (content : List TokenTree) :
    namesOfArguments (splitArguments content) = namesOfAll content := by
  cases content with
  | nil => rfl
  | cons tree content => exact namesOfArguments_splitAtCommas (tree :: content)

/-! ## Names while grouping -/

/-- A level, last tree first, without the identifier that a parenthesis opened now would call. -/
def withoutCallee : List TokenTree → List TokenTree
  | .leaf token :: before => if token.kind = .identifier then before else .leaf token :: before
  | level => level

/-- Closing a parenthesis leaves a group or a call, which nothing calls. -/
theorem Frame.close_eq_cons (frame : Frame) (content : List TokenTree) :
    ∃ tree, frame.close content = tree :: withoutCallee frame.before ∧
      withoutCallee (frame.close content) = frame.close content ∧
      tree.names = namesOfAll content := by
  obtain ⟨position, before⟩ := frame
  cases before with
  | nil => exact ⟨.group position content, rfl, rfl, rfl⟩
  | cons last before =>
      cases last with
      | group => exact ⟨.group position content, rfl, rfl, rfl⟩
      | call => exact ⟨.group position content, rfl, rfl, rfl⟩
      | leaf token =>
          by_cases identifier : token.kind = .identifier
          · have closed : (Frame.mk position (.leaf token :: before)).close content =
                .call token.lexeme token.position (splitArguments content) :: before := by
              simp [close, identifier]
            rw [closed]
            refine ⟨.call token.lexeme token.position (splitArguments content), ?_, rfl,
              namesOfArguments_splitArguments content⟩
            simp [withoutCallee, identifier]
          · have closed : (Frame.mk position (.leaf token :: before)).close content =
                .group position content :: .leaf token :: before := by
              simp [close, identifier]
            rw [closed]
            exact ⟨.group position content, by simp [withoutCallee, identifier], rfl, rfl⟩

def namesOfFrames : List Frame → List (String × Nat)
  | [] => []
  | frame :: frames => namesOfFrames frames ++ namesOfAll (withoutCallee frame.before).reverse

/-- The names read so far, those of the enclosing levels first. -/
theorem namesOfAll_of_groupOnto {maxDepth : Nat} {frames : List Frame}
    {level trees : List TokenTree} {tokens : List Token}
    (grouped : groupOnto maxDepth frames level tokens = .ok trees) :
    namesOfAll trees =
      namesOfFrames frames ++
        namesOfAll (if Token.opens tokens then withoutCallee level else level).reverse ++
          Token.valueNames tokens := by
  fun_induction groupOnto maxDepth frames level tokens with
  | case1 level =>
      obtain rfl := Except.ok.inj grouped
      simp [namesOfFrames, Token.opens, Token.valueNames]
  | case2 => contradiction
  | case3 level token tokens frame frames kind ih =>
      obtain ⟨tree, closed, uncalled, sameNames⟩ := frame.close_eq_cons level.reverse
      rw [ih grouped, uncalled, ite_self, closed, Token.valueNames_cons_of_ne (by simp [kind])]
      simp [namesOfFrames, namesOfAll_append, namesOfAll, sameNames, Token.opens_cons, kind]
  | case4 => contradiction
  | case5 level token tokens frames kind below ih =>
      rw [ih grouped, Token.valueNames_cons_of_ne (by simp [kind])]
      simp [namesOfFrames, namesOfAll, withoutCallee, Token.opens_cons, kind]
  | case6 level token tokens frames notClosing notOpening ih =>
      have uncalled : Token.opens (token :: tokens) = false := by
        simpa [Token.opens_cons] using notOpening
      rw [ih grouped, uncalled]
      by_cases identifier : token.kind = .identifier <;> by_cases opening : Token.opens tokens <;>
        simp [Token.valueNames, withoutCallee, namesOfAll_append, namesOfAll, names, identifier,
          opening]

theorem namesOfAll_of_ofTokens {maxDepth : Nat} {tokens : List Token} {trees : List TokenTree}
    (grouped : ofTokens maxDepth tokens = .ok trees) :
    namesOfAll trees = Token.valueNames tokens := by
  simpa [namesOfFrames, withoutCallee, namesOfAll] using namesOfAll_of_groupOnto grouped

end TokenTree

/-! ## Names in the expression -/

namespace Expr

open TokenTree (namesOfAll namesOfArguments)

theorem variableUses_of_ofLeaf {token : Token} {expr : Expr}
    (isOperand : ofLeaf token = .ok expr) :
    expr.variableUses = (TokenTree.leaf token).names := by
  unfold ofLeaf fail at isOperand
  split at isOperand <;> cases isOperand <;> simp_all [variableUses, TokenTree.names]

theorem variableUsesOfArguments_eq {arguments : List (List TokenTree)}
    {values : List (Option Expr)}
    (same : values.map Option.isNone = arguments.map List.isEmpty)
    (each : ∀ argument value, (argument, some value) ∈ arguments.zip values →
      value.variableUses = namesOfAll argument) :
    variableUsesOfArguments values = namesOfArguments arguments := by
  induction arguments generalizing values with
  | nil =>
      obtain rfl : values = [] := by simpa using same
      rfl
  | cons argument arguments ih =>
      cases values with
      | nil => simp at same
      | cons value values =>
          obtain ⟨sameFirst, sameRest⟩ := List.cons.inj same
          rw [variableUsesOfArguments, namesOfArguments,
            ih sameRest fun other value later => each other value (List.mem_cons_of_mem _ later)]
          congr 1
          cases value with
          | none =>
              obtain rfl : argument = [] := by simpa using sameFirst
              rfl
          | some value => exact each argument value (by simp)

theorem Builds.variableUses_eq {grammar : Grammar} {levels : Nat} {trees : List TokenTree}
    {expr : Expr} (builds : Builds grammar levels trees expr) :
    expr.variableUses = namesOfAll trees := by
  have sides : ∀ {trees : List TokenTree} {split : Split}, split? grammar trees = some split →
      namesOfAll trees = namesOfAll split.before ++ namesOfAll split.after := by
    intro trees split splits
    obtain ⟨tree, isOperator, -, rfl⟩ := split?_eq_some splits
    simp [TokenTree.namesOfAll_append, namesOfAll, TokenTree.names_of_operator? isOperator]
  induction builds with
  | prefixed splits fits _ ih =>
      obtain ⟨-, empty, rfl, -⟩ := fits
      simp [variableUses, variableUsesOfOperand, sides splits, empty, namesOfAll, ih]
  | suffixed splits fits _ ih =>
      obtain ⟨-, rfl, empty, -⟩ := fits
      simp [variableUses, variableUsesOfOperand, sides splits, empty, namesOfAll, ih]
  | infixed splits fits _ _ ihLeft ihRight =>
      obtain ⟨-, rfl, rfl, -⟩ := fits
      simp [variableUses, variableUsesOfOperand, sides splits, ihLeft, ihRight]
  | negated splits fits _ ih =>
      obtain ⟨-, -, empty, rfl, -⟩ := fits
      simp [variableUses, variableUsesOfOperand, sides splits, empty, namesOfAll, ih]
  | plain splits fits _ ih =>
      obtain ⟨-, -, empty, rfl, -⟩ := fits
      simp [sides splits, empty, namesOfAll, ih]
  | leaf isOperand => simp [variableUses_of_ofLeaf isOperand, namesOfAll]
  | group _ ih => simp [namesOfAll, TokenTree.names, ih]
  | call same _ ih =>
      simp [variableUses, namesOfAll, TokenTree.names, variableUsesOfArguments_eq same ih]

end Expr

/-- The variables of a compiled text are its uncalled identifiers, as the lexer reads them. -/
theorem Compiled.variableUses_eq_valueNames {σ : Type} {configuration : Configuration σ}
    {text : String} {compiled : Compiled σ}
    (compiles : Compiled.ofText configuration text = .ok compiled) :
    ∃ tokens, Lexer.tokenize configuration.grammar text = .ok tokens ∧
      compiled.variableUses = Token.valueNames tokens := by
  obtain ⟨root, ofText, ⟨⟩⟩ := bind_eq_ok_iff.mp compiles
  obtain ⟨_, -, lexed⟩ := bind_eq_ok_iff.mp ofText
  obtain ⟨tokens, tokenized, folded⟩ := bind_eq_ok_iff.mp lexed
  obtain ⟨trees, grouped, built⟩ := bind_eq_ok_iff.mp folded
  refine ⟨tokens, tokenized, ?_⟩
  calc root.variableUses
      = TokenTree.namesOfAll trees := (Expr.Builds.of_ok built).variableUses_eq
    _ = Token.valueNames (Token.foldSigns configuration.grammar tokens) :=
        TokenTree.namesOfAll_of_ofTokens grouped
    _ = Token.valueNames tokens := Token.valueNames_foldSigns _ tokens

theorem variableUses_of_nested_calls :
    ∃ compiled,
      Compiled.ofText (.ofType .float64 : Configuration Unit) "f(a,) - -a * g(b, (c))" =
          .ok compiled ∧
        ∃ tokens, Lexer.tokenize .standard "f(a,) - -a * g(b, (c))" = .ok tokens ∧
          compiled.variableUses = Token.valueNames tokens := by
  have compiles :
      Compiled.ofText (.ofType .float64 : Configuration Unit) "f(a,) - -a * g(b, (c))" =
        .ok ⟨.operation "+" 8 (some (.call "f" 0 [some (.identifier "a" 2), none]))
          (some (.operation "*" 11 (some (.identifier "a" 9))
            (some (.call "g" 13 [some (.identifier "b" 15), some (.identifier "c" 19)])))),
          .ofType .float64⟩ := by rfl
  exact ⟨_, compiles, Compiled.variableUses_eq_valueNames compiles⟩

end Formula
