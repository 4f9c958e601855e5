import Formula.Compiled
import Formula.Proofs.Expr.Builds

/-!
# The stages of a compilation

A text compiles exactly when the grammar is valid and the lexer, grouping and the builder all
succeed, one after the other.
-/

namespace Formula

theorem Expr.ofText_of_tokenize {grammar : Grammar} {text : String} {tokens : List Token}
    (valid : grammar.validate = .ok ()) (tokenized : Lexer.tokenize grammar text = .ok tokens)
    (maxDepth : Nat) :
    Expr.ofText grammar maxDepth text =
      TokenTree.ofTokens maxDepth (Token.foldSigns grammar tokens) >>=
        Expr.build grammar maxDepth := by
  simp only [Expr.ofText, valid, tokenized, bind, Except.bind]

theorem Expr.ofText_eq_ok_iff {grammar : Grammar} {maxDepth : Nat} {text : String} {expr : Expr} :
    Expr.ofText grammar maxDepth text = .ok expr ↔
      grammar.validate = .ok () ∧ ∃ tokens trees, Lexer.tokenize grammar text = .ok tokens ∧
        TokenTree.ofTokens maxDepth (Token.foldSigns grammar tokens) = .ok trees ∧
          Expr.Builds grammar (maxDepth + 1) trees expr := by
  constructor
  · intro compiles
    obtain ⟨_, valid, lexed⟩ := bind_eq_ok_iff.mp compiles
    obtain ⟨tokens, tokenized, folded⟩ := bind_eq_ok_iff.mp lexed
    obtain ⟨trees, grouped, built⟩ := bind_eq_ok_iff.mp folded
    exact ⟨valid, tokens, trees, tokenized, grouped, .of_ok built⟩
  · rintro ⟨valid, tokens, trees, tokenized, grouped, builds⟩
    exact bind_eq_ok_iff.mpr ⟨(), valid, bind_eq_ok_iff.mpr ⟨tokens, tokenized,
      bind_eq_ok_iff.mpr ⟨trees, grouped, builds.ok maxDepth⟩⟩⟩

theorem Compiled.ofText_eq_ok_iff {σ : Type} {configuration : Configuration σ} {text : String}
    {compiled : Compiled σ} :
    Compiled.ofText configuration text = .ok compiled ↔
      Expr.ofText configuration.grammar configuration.maxDepth text = .ok compiled.root ∧
        compiled.configuration = configuration := by
  constructor
  · intro compiles
    obtain ⟨root, built, ⟨⟩⟩ := bind_eq_ok_iff.mp compiles
    exact ⟨built, rfl⟩
  · rintro ⟨built, rfl⟩
    exact bind_eq_ok_iff.mpr ⟨compiled.root, built, rfl⟩

end Formula
