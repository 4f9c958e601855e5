import Formula.Proofs.Expr.Height
import Formula.Proofs.Expr.Precedence
import Formula.Proofs.Position
import Formula.Proofs.Token.Juxtaposition

/-!
# A minus behind another sign

What texts of the form `a + - b` and `a + (- b)` compile to.  Two signs in a row become one before
there is a tree.  In parentheses the minus stays, and subtracts its operand from zero.
-/

namespace Formula

open Lexer (StartsApart)

/-- The text is a literal, a name, a call or something in parentheses, or a literal behind signs,
and compiles to the expression. -/
inductive Expr.IsOperandText (maxDepth : Nat) (text : String) (expr : Expr) : Prop
  | unsigned {tokens : List Token} {tree : TokenTree}
      (tokenized : Lexer.tokenize .standard text = .ok tokens)
      (starts : tokens.head?.any Token.isSign = false)
      (grouped : TokenTree.ofTokens maxDepth (Token.foldSigns .standard tokens) = .ok [tree])
      (compiles : Expr.ofText .standard maxDepth text = .ok expr)
  | literal {signs : List Token} {number : Token}
      (tokenized : Lexer.tokenize .standard text = .ok (signs ++ [number]))
      (areSigns : ∀ sign ∈ signs, sign.isSign = true) (isNumber : number.kind = .number)
      (compiles : Expr.ofText .standard maxDepth text = .ok expr)

/-! ## Tokens -/

namespace Lexer

theorem separates_space : Separates .standard ' ' :=
  separates_of_isReserved Grammar.validate_standard (by decide) (by decide) (by decide) (by decide)

theorem separates_closing : Separates .standard ')' :=
  separates_of_isReserved Grammar.validate_standard (by decide) (by decide) (by decide) (by decide)

theorem startsApart_space (text : String) : StartsApart .standard (" " ++ text).toList := by
  rw [String.toList_append]
  rintro _ ⟨⟩
  exact separates_space

/-- The tokens of two texts with signs between them, up to where they stand. -/
theorem tokenize_joined {first glue second : String} {tokens between following : List Token}
    (readsFirst : tokenize .standard first = .ok tokens)
    (readsGlue : tokenize .standard (" " ++ glue) = .ok between)
    (readsSecond : tokenize .standard second = .ok following) :
    ∃ move move' move'', tokenize .standard (first ++ (" " ++ glue ++ (" " ++ second))) =
      .ok (tokens.map (Token.relocate move) ++ (between.map (Token.relocate move') ++
        following.map (Token.relocate move''))) := by
  have valid := Grammar.validate_standard
  have blank : tokenize .standard " " = .ok [] := by rfl
  have readsSpaced := tokenize_append_of_blank valid readsSecond blank
  have readsSigned := tokenize_append valid readsSpaced readsGlue (startsApart_space second)
  have apart : StartsApart .standard (" " ++ glue ++ (" " ++ second)).toList := by
    rw [String.append_assoc]
    exact startsApart_space _
  have readsAll := tokenize_append valid readsSigned readsFirst apart
  rw [List.map_append, List.map_map, List.map_map] at readsAll
  have stays : tokens.map (Token.relocate id) = tokens := List.map_id'' (fun _ => rfl) tokens
  rw [← stays] at readsAll
  exact ⟨id, _, fun position => position + Text.byteLength " ".toList +
    Text.byteLength (" " ++ glue).toList + Text.byteLength first.toList, readsAll⟩

theorem tokenize_closed {text : String} {tokens : List Token}
    (reads : tokenize .standard text = .ok tokens) :
    ∃ position, tokenize .standard (text ++ ")") =
      .ok (tokens ++ [⟨.rightParen, none, position⟩]) := by
  have valid := Grammar.validate_standard
  have closing : tokenize .standard ")" = .ok [⟨.rightParen, none, 0⟩] := by rfl
  have apart : StartsApart .standard ")".toList := by
    rintro _ ⟨⟩
    exact separates_closing
  exact ⟨_, tokenize_append valid closing reads apart⟩

end Lexer

/-! ## Folded signs -/

namespace Token

/-- Folded tokens behind which a sign is no part of a number. -/
def EndInNoOperator (folded : List Token) : Prop :=
  ∃ front last, folded = front ++ [last] ∧ last.kind ≠ .operator

variable {tokens following signs : List Token} {sign : Token}

theorem foldSigns_append_signs (ends : EndInNoOperator (foldSigns .standard tokens))
    (isSign : sign.isSign = true) (areSigns : ∀ sign ∈ signs, sign.isSign = true)
    (unsigned : ∀ first ∈ following.head?, first.isSign = false) :
    foldSigns .standard (tokens ++ (sign :: signs ++ following)) =
      foldSigns .standard tokens ++
        signs.foldl afterSign sign :: foldSigns .standard following := by
  obtain ⟨front, last, folded, notOperator⟩ := ends
  have onto : tokens.foldl (foldOnto .standard) [] = last :: front.reverse := by
    simpa [foldSigns, List.reverse_eq_iff] using folded
  have run : foldSigns .standard (tokens ++ sign :: signs) =
      (signs.foldl afterSign sign :: last :: front.reverse).reverse := by
    rw [foldSigns, List.foldl_append, onto, List.foldl_cons,
      foldOnto_of_not_sign (isSign_of_kind notOperator), foldl_foldOnto_signs isSign areSigns]
  have ready : Ready (foldSigns .standard (tokens ++ sign :: signs)).reverse := by
    rw [run, List.reverse_reverse]
    rintro _ _ ⟨⟩ -
    exact ⟨last, _, rfl, notOperator⟩
  rw [← List.append_assoc, foldSigns_append_of_ready ready unsigned, run, folded]
  simp

theorem foldSigns_enclosed (ends : EndInNoOperator (foldSigns .standard tokens))
    {outer opening closing : Token} (isOuter : outer.isSign = true)
    (opens : opening.kind = .leftParen) (closes : closing.kind = .rightParen)
    (isSign : sign.isSign = true) (areSigns : ∀ sign ∈ signs, sign.isSign = true)
    (unsigned : ∀ first ∈ following.head?, first.isSign = false) :
    foldSigns .standard (tokens ++ ([outer, opening] ++
        (sign :: signs ++ (following ++ [closing])))) =
      foldSigns .standard tokens ++ outer :: (opening ::
        signs.foldl afterSign sign :: foldSigns .standard following ++ [closing]) := by
  have openingNotSign : opening.isSign = false := isSign_of_kind (by simp [opens])
  have closingNotSign : closing.isSign = false := isSign_of_kind (by simp [closes])
  have opened : foldSigns .standard (tokens ++ [outer, opening]) =
      foldSigns .standard tokens ++ [outer, opening] := by
    refine @foldSigns_append_signs _ [opening] [] _ ends isOuter ?_ ?_
    · rintro _ ⟨⟩
    · rintro _ ⟨⟩
      exact openingNotSign
  have behind : EndInNoOperator (foldSigns .standard (tokens ++ [outer, opening])) := by
    rw [opened]
    exact ⟨foldSigns .standard tokens ++ [outer], opening, by simp, by simp [opens]⟩
  have closed : foldSigns .standard (following ++ [closing]) =
      foldSigns .standard following ++ [closing] := by
    rw [foldSigns_concat, foldOnto_of_other closingNotSign (by simp [closes])]
    simp
  have stillUnsigned : ∀ first ∈ (following ++ [closing]).head?, first.isSign = false := by
    cases following with
    | nil =>
        rintro _ ⟨⟩
        exact closingNotSign
    | cons => exact unsigned
  rw [← List.append_assoc, foldSigns_append_signs behind isSign areSigns stillUnsigned, closed,
    opened]
  simp

/-- At the beginning signs become part of the number behind them. -/
theorem foldSigns_literal {number : Token} (areSigns : ∀ sign ∈ signs, sign.isSign = true)
    (isNumber : number.kind = .number) :
    foldSigns .standard (signs ++ [number]) =
      [if negates signs then number.negated else number] := by
  cases signs with
  | nil => rfl
  | cons sign signs =>
      obtain ⟨isSign, areSigns⟩ := List.forall_mem_cons.mp areSigns
      obtain ⟨position, merged⟩ := foldl_afterSign isSign areSigns
      have notSign : number.isSign = false := isSign_of_kind (by simp [isNumber])
      rw [foldSigns, List.cons_append, List.foldl_cons, List.foldl_append,
        show foldOnto .standard [] sign = [sign] from rfl, foldl_foldOnto_signs isSign areSigns,
        merged]
      simp [foldOnto, notSign, isNumber]

theorem negates_relocate (move : Nat → Nat) (signs : List Token) :
    negates (signs.map (Token.relocate move)) = negates signs := by
  induction signs with
  | nil => rfl
  | cons sign signs ih => rw [List.map_cons, negates, negates, ih, isMinus_relocate]

theorem areSigns_relocate (areSigns : ∀ sign ∈ signs, sign.isSign = true) (move : Nat → Nat) :
    ∀ sign ∈ signs.map (Token.relocate move), sign.isSign = true :=
  List.forall_mem_map.mpr areSigns

theorem unsigned_relocate (unsigned : ∀ first ∈ following.head?, first.isSign = false)
    (move : Nat → Nat) :
    ∀ first ∈ (following.map (Token.relocate move)).head?, first.isSign = false := by
  cases following with
  | nil => rintro _ ⟨⟩
  | cons first following =>
      rintro _ ⟨⟩
      exact unsigned first rfl

end Token

/-! ## Trees -/

namespace Expr

variable {first second : TokenTree} {left right expr operand : Expr}
  {room levels position maxDepth : Nat} {spelling text : String} {tokens following : List Token}

/-- Tokens that are an operand whatever stands around them. -/
structure IsOperand (room : Nat) (tokens : List Token) (expr : Expr) : Prop where
  ends : Token.EndInNoOperator (Token.foldSigns .standard tokens)
  single : ∃ tree, TokenTree.Groups room (Token.foldSigns .standard tokens) [tree] ∧
    Builds .standard (room + 1) [tree] expr

theorem endInNoOperator_of_builds (grouped : TokenTree.ofTokens room tokens = .ok [first])
    (builds : Builds .standard levels [first] left) : Token.EndInNoOperator tokens := by
  rcases List.eq_nil_or_concat tokens with rfl | ⟨front, last, rfl⟩
  · cases grouped
  · rw [List.concat_eq_append] at grouped
    refine ⟨front, last, List.concat_eq_append, fun operator => ?_⟩
    have leaf := TokenTree.leaf_mem_of_last grouped (by simp [operator]) (by simp [operator])
    obtain rfl := List.mem_singleton.mp leaf
    have notOperator := builds.operator?_eq_none
    simp [TokenTree.operator?, operator] at notOperator

theorem isOperand_of_builds
    (grouped : TokenTree.ofTokens room (Token.foldSigns .standard tokens) = .ok [first])
    (builds : Builds .standard (room + 1) [first] expr) (move : Nat → Nat) :
    IsOperand room (tokens.map (Token.relocate move)) (expr.relocate move) := by
  have ⟨front, last, folded, notOperator⟩ := endInNoOperator_of_builds grouped builds
  have groups := builds.groups grouped move
  rw [← Token.foldSigns_relocate] at groups
  refine ⟨?_, _, groups, builds.relocate move⟩
  rw [Token.foldSigns_relocate, folded, List.map_append]
  exact ⟨_, _, rfl, notOperator⟩

theorem IsOperandText.single (isOperand : IsOperandText maxDepth text expr) :
    ∃ tokens tree, Lexer.tokenize .standard text = .ok tokens ∧
      TokenTree.ofTokens maxDepth (Token.foldSigns .standard tokens) = .ok [tree] ∧
        Builds .standard (maxDepth + 1) [tree] expr := by
  cases isOperand with
  | unsigned tokenized starts grouped compiles =>
      obtain ⟨-, _, _, tokenized', grouped', builds⟩ := ofText_eq_ok_iff.mp compiles
      cases tokenized.symm.trans tokenized'
      cases grouped.symm.trans grouped'
      exact ⟨_, _, tokenized, grouped, builds⟩
  | @literal signs number tokenized areSigns isNumber compiles =>
      obtain ⟨-, _, _, tokenized', grouped', builds⟩ := ofText_eq_ok_iff.mp compiles
      cases tokenized.symm.trans tokenized'
      have folded := Token.foldSigns_literal areSigns isNumber
      generalize isFolded : (if Token.negates signs then number.negated else number) = literal
        at folded
      have kind : literal.kind = .number := by
        rw [← isFolded]
        split
        · exact isNumber
        · exact isNumber
      have groups := TokenTree.groups_leaf (by simp [kind] : literal.kind ≠ .leftParen)
        (by simp [kind]) maxDepth
      have grouped := groups.ofTokens (Nat.le_refl _)
      rw [← folded] at grouped
      cases grouped.symm.trans grouped'
      exact ⟨_, _, tokenized, grouped, builds⟩

theorem IsOperandText.height_le (isOperand : IsOperandText maxDepth text expr) :
    expr.height ≤ maxDepth := by
  obtain ⟨_, _, -, -, builds⟩ := isOperand.single
  exact Nat.le_of_lt_succ builds.height_lt

/-- The text is an operand behind signs, if any, which come to a minus or not. -/
structure IsSignedOperandText (maxDepth : Nat) (text : String) (negative : Bool)
    (operand : Expr) : Prop where
  height : operand.height ≤ maxDepth
  tokens : ∃ signs following, Lexer.tokenize .standard text = .ok (signs ++ following) ∧
    Token.negates signs = negative ∧ (∀ sign ∈ signs, sign.isSign = true) ∧
      (∀ first ∈ following.head?, first.isSign = false) ∧
        ∀ move, IsOperand maxDepth (following.map (Token.relocate move)) (operand.relocate move)

/-- The signs in front of the text come to a minus. -/
def StartsNegative (text : String) : Prop :=
  ∀ tokens, Lexer.tokenize .standard text = .ok tokens →
    Token.negates (tokens.takeWhile Token.isSign) = true

theorem IsSignedOperandText.eq_true_of_startsNegative {negative : Bool}
    (isOperand : IsSignedOperandText maxDepth text negative operand)
    (starts : StartsNegative text) : negative = true := by
  obtain ⟨-, signs, following, tokenized, rfl, areSigns, unsigned, -⟩ := isOperand
  have all := starts _ tokenized
  have noMore : following.takeWhile Token.isSign = [] := by
    cases following with
    | nil => rfl
    | cons first following => exact List.takeWhile_cons_of_neg (by simp [unsigned first rfl])
  rwa [List.takeWhile_append_of_pos areSigns, noMore, List.append_nil] at all

theorem isSignedOperandText_of_unsigned
    (tokenized : Lexer.tokenize .standard text = .ok tokens)
    (starts : tokens.head?.any Token.isSign = false)
    (grouped : TokenTree.ofTokens maxDepth (Token.foldSigns .standard tokens) = .ok [first])
    (compiles : ofText .standard maxDepth text = .ok expr) :
    IsSignedOperandText maxDepth text false expr := by
  obtain ⟨-, _, _, tokenized', grouped', builds⟩ := ofText_eq_ok_iff.mp compiles
  cases tokenized.symm.trans tokenized'
  cases grouped.symm.trans grouped'
  refine ⟨height_le_of_ofText compiles, [], _, tokenized, rfl, by simp, fun first isFirst => ?_,
    isOperand_of_builds grouped builds⟩
  rwa [isFirst] at starts

/-- Without the signs an operand text is an operand, and the same one unless they come to a
minus. -/
theorem IsOperandText.signed (isOperand : IsOperandText maxDepth text expr) :
    ∃ negative operand, IsSignedOperandText maxDepth text negative operand ∧
      (negative = false → operand = expr) := by
  cases isOperand with
  | unsigned tokenized starts grouped compiles =>
      exact ⟨false, expr, isSignedOperandText_of_unsigned tokenized starts grouped compiles,
        fun _ => rfl⟩
  | @literal signs number tokenized areSigns isNumber compiles =>
      have notSign : number.isSign = false := Token.isSign_of_kind (by simp [isNumber])
      have grouped : TokenTree.ofTokens maxDepth (Token.foldSigns .standard [number]) =
          .ok [.leaf number] :=
        (TokenTree.groups_leaf (by simp [isNumber]) (by simp [isNumber]) maxDepth).ofTokens
          (Nat.le_refl _)
      have builds : Builds .standard (maxDepth + 1) [.leaf number]
          (.number number.lexeme number.position) :=
        .leaf (by simp [ofLeaf, isNumber])
      refine ⟨Token.negates signs, .number number.lexeme number.position, ⟨Nat.zero_le _, signs,
        [number], tokenized, rfl, areSigns, ?_, isOperand_of_builds grouped builds⟩, ?_⟩
      · rintro _ ⟨⟩
        exact notSign
      · intro positive
        obtain ⟨-, _, _, tokenized', grouped', builds'⟩ := ofText_eq_ok_iff.mp compiles
        cases tokenized.symm.trans tokenized'
        have folded := Token.foldSigns_literal areSigns isNumber
        rw [positive, if_neg (by simp)] at folded
        rw [folded] at grouped'
        cases grouped.symm.trans grouped'
        exact Except.ok.inj ((builds.ok maxDepth).symm.trans (builds'.ok maxDepth))

/-- The signs are the operators of one tier, and operands have none of any tier. -/
theorem split?_sign {before : List TokenTree} (isSign : spelling ∈ ["+", "-"])
    (noneBefore : ∀ tree ∈ before, tree.operator? = none) (isOperand : second.operator? = none) :
    split? .standard (before ++ [.leaf ⟨.operator, some spelling, position⟩, second]) =
      some ⟨before, spelling, position, [second]⟩ := by
  have isOperator : (TokenTree.leaf ⟨.operator, some spelling, position⟩).operator? =
      some spelling := rfl
  have lacksBelow :
      LacksBelow 9 (before ++ [.leaf ⟨.operator, some spelling, position⟩, second]) := by
    refine lacksBelow_append.mpr ⟨fun tier _ tree member => ?_, lacksBelow_cons.mpr
      ⟨lacksBelow_of_operator isOperator isSign, lacksBelow_of_operand isOperand 9⟩⟩
    simp [noneBefore tree member]
  refine split?_standard_eq_some_iff.mpr ⟨_, rfl, isOperator, rfl, 9, isSign, lacksBelow, ?_⟩
  simp [Lacks, isOperand]

theorem isBinary_sign (isSign : spelling ∈ ["+", "-"]) : IsBinary .standard spelling := by
  refine isBinary_standard.mpr ?_
  rintro rfl
  simp at isSign

theorem builds_sign (negative : Bool) (buildsLeft : Builds .standard levels [first] left)
    (buildsRight : Builds .standard levels [second] right) :
    Builds .standard (levels + 1) [first, .leaf (Token.signAt negative position), second]
      (.operation (Token.signOf negative) position (some left) (some right)) := by
  have isSign := Token.signOf_mem negative
  have splits := @split?_sign second position _ [first] isSign
    (by simpa using buildsLeft.operator?_eq_none) buildsRight.operator?_eq_none
  exact .infixed splits ⟨isBinary_sign isSign, rfl, rfl, by simp, by simp⟩ buildsLeft buildsRight

/-- A sign in front of an operand: a minus subtracts it from zero, a plus leaves no trace. -/
def signed (negative : Bool) (position : Nat) (operand : Expr) : Expr :=
  if negative then .operation "-" position (some (.number "0" position)) (some operand)
  else operand

theorem builds_signed (negative : Bool) (builds : Builds .standard levels [second] operand) :
    Builds .standard (levels + 1) [.leaf (Token.signAt negative position), second]
      (signed negative position operand) := by
  have isSign := Token.signOf_mem negative
  have splits := @split?_sign second position _ [] isSign (by simp) builds.operator?_eq_none
  have binary := isBinary_sign isSign
  cases negative with
  | false => exact .plain splits ⟨binary, rfl, rfl, rfl, by simp⟩ builds
  | true => exact .negated splits ⟨binary, rfl, rfl, rfl, by simp⟩ builds

/-! ## Operands with signs between them -/

section Operands

variable {roomLeft roomRight : Nat} {outer minus opening closing : Token} {signs : List Token}
  (isLeft : IsOperand roomLeft tokens left) (isRight : IsOperand roomRight following right)
  (isOuter : outer.isSign = true) (isMinus : minus.isSign = true)
  (areSigns : ∀ sign ∈ signs, sign.isSign = true)
  (unsigned : ∀ first ∈ following.head?, first.isSign = false)
  (enoughLeft : roomLeft + 1 ≤ maxDepth)
include isLeft isRight isOuter isMinus areSigns unsigned enoughLeft

theorem IsOperand.joined (enoughRight : roomRight + 1 ≤ maxDepth) :
    ∃ position trees, TokenTree.ofTokens maxDepth (Token.foldSigns .standard
        (tokens ++ (outer :: minus :: signs ++ following))) = .ok trees ∧
      Builds .standard (maxDepth + 1) trees
        (.operation (Token.signOf (Token.negates (outer :: minus :: signs))) position
          (some left) (some right)) := by
  obtain ⟨ends, first, groupsLeft, buildsLeft⟩ := isLeft
  obtain ⟨-, second, groupsRight, buildsRight⟩ := isRight
  have areSigns : ∀ sign ∈ minus :: signs, sign.isSign = true :=
    List.forall_mem_cons.mpr ⟨isMinus, areSigns⟩
  obtain ⟨position, merged⟩ := Token.foldl_afterSign isOuter areSigns
  have groups := (groupsLeft.mono (Nat.le_of_succ_le enoughLeft)).separated
    (groupsRight.mono (Nat.le_of_succ_le enoughRight))
    (.inl rfl : (Token.signAt (Token.negates (outer :: minus :: signs)) position).kind = _ ∨ _)
  refine ⟨position, _, ?_, builds_sign _ (buildsLeft.mono enoughLeft)
    (buildsRight.mono enoughRight)⟩
  rw [Token.foldSigns_append_signs ends isOuter areSigns unsigned, merged]
  exact groups.ofTokens (Nat.le_refl _)

theorem IsOperand.enclosed (opens : opening.kind = .leftParen) (closes : closing.kind = .rightParen)
    (enoughRight : roomRight + 3 ≤ maxDepth) :
    ∃ position inner trees, TokenTree.ofTokens maxDepth (Token.foldSigns .standard
        (tokens ++ ([outer, opening] ++ (minus :: signs ++ (following ++ [closing]))))) =
          .ok trees ∧
      Builds .standard (maxDepth + 1) trees
        (.operation (Token.signOf outer.isMinus) position (some left)
          (some (signed (Token.negates (minus :: signs)) inner right))) := by
  obtain ⟨ends, first, groupsLeft, buildsLeft⟩ := isLeft
  obtain ⟨-, second, groupsRight, buildsRight⟩ := isRight
  obtain ⟨inner, merged⟩ := Token.foldl_afterSign isMinus areSigns
  have groupsSigned := (TokenTree.groups_nil roomRight).separated groupsRight
    (.inl rfl : (Token.signAt (Token.negates (minus :: signs)) inner).kind = _ ∨ _)
  have groupsGroup := (groupsSigned.parenthesised opens closes).mono
    (Nat.le_trans (Nat.le_add_right _ 2) enoughRight)
  have groups := (groupsLeft.mono (Nat.le_of_succ_le enoughLeft)).separated groupsGroup
    (.inl rfl : (Token.signAt outer.isMinus outer.position).kind = _ ∨ _)
  have buildsGroup : Builds .standard maxDepth
      [.group opening.position
        [.leaf (Token.signAt (Token.negates (minus :: signs)) inner), second]]
      (signed (Token.negates (minus :: signs)) inner right) :=
    Builds.mono (.group (builds_signed _ buildsRight)) enoughRight
  refine ⟨outer.position, inner, _, ?_, builds_sign _ (buildsLeft.mono enoughLeft) buildsGroup⟩
  rw [Token.foldSigns_enclosed ends isOuter opens closes isMinus areSigns unsigned, merged]
  rw [← Token.eq_signAt_of_isSign isOuter] at groups ⊢
  exact groups.ofTokens (Nat.le_refl _)

end Operands

/-! ## Texts -/

section Texts

variable {roomLeft roomRight : Nat} {textLeft textRight glue : String} {negative negated : Bool}
  (isLeft : IsOperandText roomLeft textLeft left)
  (isRight : IsSignedOperandText roomRight textRight negated right)
  (enoughLeft : roomLeft + 1 ≤ maxDepth)
include isLeft isRight enoughLeft

theorem ofText_joined {atOuter atMinus : Nat} (enoughRight : roomRight + 1 ≤ maxDepth)
    (readsGlue : Lexer.tokenize .standard (" " ++ glue) =
      .ok [Token.signAt negative atOuter, Token.signAt true atMinus]) :
    ∃ position move move', ofText .standard maxDepth
        (textLeft ++ (" " ++ glue ++ (" " ++ textRight))) =
      .ok (.operation (Token.signOf (negative ^^ !negated)) position (some (left.relocate move))
        (some (right.relocate move'))) := by
  obtain ⟨tokens, first, readsLeft, grouped, buildsLeft⟩ := isLeft.single
  obtain ⟨-, signs, following, readsRight, rfl, areSigns, unsigned, operandRight⟩ := isRight
  obtain ⟨move, move', move'', reads⟩ := Lexer.tokenize_joined readsLeft readsGlue readsRight
  obtain ⟨position, trees, grouped, builds⟩ :=
    (isOperand_of_builds grouped buildsLeft move).joined (operandRight move'')
      (Token.isSign_signAt negative (move' atOuter)) (Token.isSign_signAt true (move' atMinus))
      (Token.areSigns_relocate areSigns move'') (Token.unsigned_relocate unsigned move'')
      enoughLeft enoughRight
  rw [Token.negates, Token.negates, Token.negates_relocate, Token.isMinus_signAt,
    Token.isMinus_signAt, Bool.true_xor] at builds
  rw [List.map_append] at reads
  exact ⟨_, _, _, ofText_eq_ok_iff.mpr ⟨Grammar.validate_standard, _, _, reads, grouped, builds⟩⟩

theorem ofText_enclosedMinus {atOuter atOpening atMinus : Nat}
    (enoughRight : roomRight + 3 ≤ maxDepth)
    (readsGlue : Lexer.tokenize .standard (" " ++ glue) =
      .ok [Token.signAt negative atOuter, ⟨.leftParen, none, atOpening⟩,
        Token.signAt true atMinus]) :
    ∃ position inner move move', ofText .standard maxDepth
        (textLeft ++ (" " ++ glue ++ (" " ++ (textRight ++ ")")))) =
      .ok (.operation (Token.signOf negative) position (some (left.relocate move))
        (some (signed (!negated) inner (right.relocate move')))) := by
  obtain ⟨tokens, first, readsLeft, grouped, buildsLeft⟩ := isLeft.single
  obtain ⟨-, signs, following, readsRight, rfl, areSigns, unsigned, operandRight⟩ := isRight
  obtain ⟨closing, readsClosed⟩ := Lexer.tokenize_closed readsRight
  obtain ⟨move, move', move'', reads⟩ := Lexer.tokenize_joined readsLeft readsGlue readsClosed
  obtain ⟨position, inner, trees, grouped, builds⟩ :=
    (isOperand_of_builds grouped buildsLeft move).enclosed (operandRight move'')
      (Token.isSign_signAt negative (move' atOuter)) (Token.isSign_signAt true (move' atMinus))
      (Token.areSigns_relocate areSigns move'') (Token.unsigned_relocate unsigned move'')
      enoughLeft
      (rfl : (Token.relocate move' ⟨.leftParen, none, atOpening⟩).kind = .leftParen)
      (rfl : (Token.relocate move'' ⟨.rightParen, none, closing⟩).kind = .rightParen) enoughRight
  rw [Token.negates, Token.negates_relocate, Token.isMinus_signAt, Token.isMinus_signAt,
    Bool.true_xor] at builds
  rw [List.map_append, List.map_append, List.append_assoc] at reads
  exact ⟨_, _, _, _, ofText_eq_ok_iff.mpr ⟨Grammar.validate_standard, _, _, reads, grouped, builds⟩⟩

end Texts

end Expr

end Formula
