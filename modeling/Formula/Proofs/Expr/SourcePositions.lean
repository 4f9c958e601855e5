import Formula.Proofs.Expr.Nesting
import Formula.Proofs.Expr.Stages
import Formula.Proofs.Expr.Words
import Formula.Proofs.Token.Source

/-!
# Where errors and nodes point

Every position that comes out of a compilation is the start of a character of the text: the one that
an error points at, and those of the nodes.  Where the order of the tokens is wrong and the error
points at nothing, there was nothing to build from.
-/

namespace Formula

open Text (IsStart StandsAt)

namespace Expr

variable {grammar : Grammar} {maxDepth : Nat} {text : String} {tokens : List Token}
  {trees : List TokenTree} {expr node : Expr}

/-! ## Nodes -/

/-- What stands in the text at a node: the name itself, or the quote in front of a string. -/
def StandsIn (text : String) : Expr → Prop
  | .identifier name position | .call name position _ => StandsAt text position name.toList
  | .string _ position => ∃ quote ∈ ['\x22', '\x27'], StandsAt text position [quote]
  | .number .. | .operation .. => True

section Nodes

variable (valid : grammar.validate = .ok ()) (tokenized : Lexer.tokenize grammar text = .ok tokens)
  (grouped : TokenTree.ofTokens maxDepth (Token.foldSigns grammar tokens) = .ok trees)
include valid tokenized grouped

theorem isStart_of_mem_partsOfAll {tree : TokenTree} (member : tree ∈ TokenTree.partsOfAll trees) :
    IsStart text tree.position := by
  have lexed := Token.isLexed_foldSigns tokenized valid
  obtain ⟨token, isToken, same⟩ := TokenTree.exists_token_of_mem_partsOfAll lexed grouped member
  exact same ▸ Token.isStart_foldSigns tokenized token isToken

end Nodes

/-- A text without tokens, or with parentheses around nothing that are no call. -/
def HoldsNothing (grammar : Grammar) (maxDepth : Nat) (text : String) : Prop :=
  ∃ tokens trees, Lexer.tokenize grammar text = .ok tokens ∧
    TokenTree.ofTokens maxDepth (Token.foldSigns grammar tokens) = .ok trees ∧
      (tokens = [] ∨ ∃ position, .group position [] ∈ TokenTree.partsOfAll trees)

/-- An error that points at a character of the text or, if it is about the order of the tokens, at
nothing only where a sequence of them is empty. -/
structure PointsInto (grammar : Grammar) (maxDepth : Nat) (text : String) (error : Error) :
    Prop where
  start : ∀ position, error.position = some position → IsStart text position
  nothing : ∀ fault, error = .structural none fault → HoldsNothing grammar maxDepth text

theorem PointsInto.of_isStart {error : Error} {position : Nat}
    (points : error.position = some position) (starts : IsStart text position) :
    PointsInto grammar maxDepth text error where
  start place known := by
    obtain rfl := Option.some.inj (points.symm.trans known)
    exact starts
  nothing := by
    rintro fault rfl
    cases points

theorem PointsInto.of_pointless {error : Error} (pointless : error.position = none)
    (notStructural : ∀ fault, error ≠ .structural none fault) :
    PointsInto grammar maxDepth text error where
  start place known := by
    rw [pointless] at known
    cases known
  nothing fault same := absurd same (notStructural fault)

theorem fails_ofText (grammar : Grammar) (maxDepth : Nat) (text : String) :
    FailsWithin (PointsInto grammar maxDepth text) (ofText grammar maxDepth text) := by
  intro error failed
  obtain invalid | ⟨_, valid, failed⟩ := bind_eq_error_iff.mp failed
  · obtain ⟨fault, rfl⟩ := Grammar.validate_eq_error invalid
    exact .of_pointless rfl nofun
  obtain unread | ⟨tokens, tokenized, failed⟩ := bind_eq_error_iff.mp failed
  · obtain ⟨position, fault, rfl, starts⟩ := Lexer.isStart_of_tokenize_eq_error unread
    exact .of_isStart rfl starts
  obtain ungrouped | ⟨trees, grouped, failed⟩ := bind_eq_error_iff.mp failed
  · obtain rfl | ⟨position, rfl⟩ := TokenTree.groupOnto_eq_error ungrouped
    · exact .of_pointless rfl nofun
    · obtain ⟨token, member, rfl⟩ := TokenTree.exists_token_of_unmatchedParenthesis ungrouped
      exact .of_isStart rfl (Token.isStart_foldSigns tokenized token member)
  · obtain blames | ⟨rfl, -⟩ := buildWithin_eq_error failed
    · cases blames with
      | tree member fault =>
          exact .of_isStart rfl (isStart_of_mem_partsOfAll valid tokenized grouped member)
      | empty nothing fault =>
          refine ⟨nofun, fun _ _ => ⟨tokens, trees, tokenized, grouped, nothing.imp_left ?_⟩⟩
          intro noTrees
          have lexed := Token.isLexed_foldSigns tokenized valid
          exact Token.foldSigns_eq_nil_iff.mp (TokenTree.eq_nil_of_ofTokens lexed grouped noTrees)
    · exact .of_pointless rfl nofun

end Expr

end Formula
