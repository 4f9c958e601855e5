import Formula.Proofs.Evaluation.Placement
import Formula.Proofs.Expr.Stages
import Formula.Proofs.Token.Juxtaposition

/-!
# Parentheses around a text

A text in parentheses compiles to the tree of the text itself, one byte further on, and evaluates to
the same outcome.  There are two exceptions: parentheses are no parentheses where the grammar counts
them among the characters of names, and a sign in front of a number is part of the number at the
beginning of a text but not behind a parenthesis, where it takes a level of its own and leaves the
number to operators that bind tighter.
-/

namespace Formula

namespace Lexer

/-- Neither parenthesis is a character of names. -/
def ParenthesesStandAlone (grammar : Grammar) : Prop :=
  grammar.isIdentifierCharacter '(' = false ∧ grammar.isIdentifierCharacter ')' = false

theorem tokenize_parenthesised {grammar : Grammar} (valid : grammar.validate = .ok ())
    (alone : ParenthesesStandAlone grammar) {text : String} {tokens : List Token}
    (tokenized : tokenize grammar text = .ok tokens) :
    tokenize grammar ("(" ++ text ++ ")") =
      .ok (⟨.leftParen, none, 0⟩ :: tokens.map (Token.relocate (· + 1)) ++
        [⟨.rightParen, none, Text.byteLength text.toList + 1⟩]) := by
  obtain ⟨openingAlone, closingAlone⟩ := alone
  have reads := (tokenize_eq_ok_iff valid).mp tokenized
  have separates : Separates grammar ')' :=
    separates_of_isReserved valid (by decide) (by decide) (by decide) closingAlone
  have apart : StartsApart grammar [')'] := by
    rintro _ ⟨⟩
    exact separates
  have closing (position : Nat) :
      Reads grammar ⟨[')'], position⟩ [⟨.rightParen, none, position⟩] :=
    .punctuation rfl closingAlone (.done rfl)
  have inside : Reads grammar ⟨text.toList ++ [')'], 1⟩ (tokens.map (Token.relocate (· + 1)) ++
      [⟨.rightParen, none, Text.byteLength text.toList + 1⟩]) := by
    simpa using reads.append valid apart 1 (closing _)
  have written : ("(" ++ text ++ ")").toList = '(' :: (text.toList ++ [')']) := by
    simp
  rw [tokenize_eq_ok_iff valid, written]
  exact .punctuation rfl openingAlone inside

end Lexer

open Lexer (ParenthesesStandAlone)

theorem Expr.ofText_enclosed {grammar : Grammar} (alone : ParenthesesStandAlone grammar)
    {maxDepth : Nat} {text : String} {root : Expr}
    (unsigned : ∀ tokens, Lexer.tokenize grammar text = .ok tokens →
      Token.beginWithSignedNumber tokens = false)
    (compiles : Expr.ofText grammar maxDepth text = .ok root) :
    Expr.ofText grammar (maxDepth + 1) ("(" ++ text ++ ")") = .ok (root.relocate (· + 1)) := by
  obtain ⟨valid, tokens, trees, tokenized, grouped, builds⟩ := Expr.ofText_eq_ok_iff.mp compiles
  have tokenized' := Lexer.tokenize_parenthesised valid alone tokenized
  have noNumber : Token.beginWithSignedNumber (tokens.map (Token.relocate (· + 1))) = false := by
    rw [Token.beginWithSignedNumber_relocate]
    exact unsigned tokens tokenized
  have groups := (builds.groups grouped (· + 1)).parenthesised
    (rfl : Token.kind ⟨.leftParen, none, 0⟩ = _)
    (rfl : Token.kind ⟨.rightParen, none, Text.byteLength text.toList + 1⟩ = _)
  have grouped' := groups.ofTokens (Nat.le_refl _)
  rw [← Token.foldSigns_relocate, ← Token.foldSigns_parenthesised rfl rfl noNumber] at grouped'
  exact Expr.ofText_eq_ok_iff.mpr
    ⟨valid, _, _, tokenized', grouped', .group (builds.relocate (· + 1))⟩

variable {σ : Type}

/-- Parentheses around a text change neither its tree nor its meaning.  A body or an operation that
looks at the nesting limit sees the limit of the configuration that the text is executed against. -/
theorem Compiled.ofText_parenthesised {configuration : Configuration σ}
    (alone : ParenthesesStandAlone configuration.grammar) {text : String} {compiled : Compiled σ}
    (unsigned : ∀ tokens, Lexer.tokenize configuration.grammar text = .ok tokens →
      Token.beginWithSignedNumber tokens = false)
    (compiles : Compiled.ofText configuration text = .ok compiled) :
    ∃ enclosed, Compiled.ofText (configuration.withMaxDepth (configuration.maxDepth + 1))
        ("(" ++ text ++ ")") = .ok enclosed ∧
      enclosed.root = compiled.root.relocate (· + 1) ∧
      (∀ other host,
        SameEnding (compiled.executeWith other host) (enclosed.executeWith other host) ∧
          ∀ cancelled, SameEnding (compiled.executeAsyncWith other host cancelled)
            (enclosed.executeAsyncWith other host cancelled)) ∧
      (configuration.HidesMaxDepth (configuration.maxDepth + 1) → ∀ host,
        SameEnding (compiled.execute host) (enclosed.execute host) ∧
          ∀ cancelled, SameEnding (compiled.executeAsync host cancelled)
            (enclosed.executeAsync host cancelled)) := by
  obtain ⟨root, built, ⟨⟩⟩ := bind_eq_ok_iff.mp compiles
  have built' := Expr.ofText_enclosed alone unsigned built
  have fits := Expr.height_le_of_ofText built
  let enclosed : Compiled σ :=
    ⟨root.relocate (· + 1), configuration.withMaxDepth (configuration.maxDepth + 1)⟩
  refine ⟨enclosed, Compiled.ofText_eq_ok_iff.mpr ⟨built', rfl⟩, rfl, fun other host => ?_,
    fun hides host => ?_⟩
  · have same (mode : Mode) := Configuration.movable other.hidesMaxDepth_self (· + 1) root
      mode 0 0 (.inl ⟨rfl, rfl⟩)
    exact ⟨(same .sync).sameEnding _, fun _ => (same _).sameEnding _⟩
  · have same (mode : Mode) := Configuration.movable hides (· + 1) root mode 0 0
      (.inr ⟨by omega, by omega⟩)
    exact ⟨(same .sync).sameEnding _, fun _ => (same _).sameEnding _⟩

/-- The trees of `1+1` and `(1+1)`, each under its own limit, where a sum comes to the limit. -/
example :
    let operators : Operators :=
      { add := fun environment _ _ => .ok (environment.ofInt64 (.ofNat environment.maxDepth)) }
    let configuration : Configuration Unit :=
      { Configuration.ofType .int32 with operators := operators }
    let sum (position : Nat) : Expr := .operation "+" (position + 1)
      (some (.number "1" position)) (some (.number "1" (position + 2)))
    (configuration.evaluate (sum 0) ()).1 = .ok (.number (.int32 256)) ∧
      ((configuration.withMaxDepth 257).evaluate (sum 1) ()).1 = .ok (.number (.int32 257)) :=
  ⟨rfl, rfl⟩

theorem Configuration.hidesMaxDepth_ofType (type : NumericType) (limit : Nat) :
    (Configuration.ofType type : Configuration σ).HidesMaxDepth limit := by
  refine actsAlikeUnder_of_standard rfl rfl rfl rfl fun name function body found => ?_
  simp [ofType, Table.find?_empty] at found

/-- A sign in front of a name, tighter operators and a call. -/
theorem Compiled.ofText_parenthesised_negation :
    ∃ tokens compiled enclosed, Lexer.tokenize .standard "-x ** ABS(2)!" = .ok tokens ∧
      Token.beginWithSignedNumber tokens = false ∧
      Compiled.ofText (.ofType .int32 : Configuration Unit) "-x ** ABS(2)!" = .ok compiled ∧
      Compiled.ofText ((Configuration.ofType .int32).withMaxDepth 257) "(-x ** ABS(2)!)" =
        .ok enclosed ∧
      SameEnding (compiled.execute ()) (enclosed.execute ()) := by
  let tokens : List Token := [⟨.operator, some "-", 0⟩, ⟨.identifier, some "x", 1⟩,
    ⟨.operator, some "**", 3⟩, ⟨.identifier, some "ABS", 6⟩, ⟨.leftParen, none, 9⟩,
    ⟨.number, some "2", 10⟩, ⟨.rightParen, none, 11⟩, ⟨.operator, some "!", 12⟩]
  have tokenized : Lexer.tokenize .standard "-x ** ABS(2)!" = .ok tokens := by rfl
  have unsigned : ∀ other, Lexer.tokenize .standard "-x ** ABS(2)!" = .ok other →
      Token.beginWithSignedNumber other = false := by
    intro other same
    rw [tokenized] at same
    cases same
    rfl
  obtain ⟨compiled, compiles⟩ : ∃ compiled,
      Compiled.ofText (.ofType .int32 : Configuration Unit) "-x ** ABS(2)!" = .ok compiled :=
    ⟨_, rfl⟩
  obtain ⟨enclosed, compiles', -, -, same⟩ :=
    Compiled.ofText_parenthesised ⟨by decide, by decide⟩ unsigned compiles
  exact ⟨tokens, compiled, enclosed, tokenized, rfl, compiles, compiles',
    (same (Configuration.hidesMaxDepth_ofType .int32 257) ()).1⟩

/-- The sign of a number at the beginning binds tighter than a factorial, behind a parenthesis it
does not: the parentheses turn one into minus a hundred and twenty. -/
theorem Compiled.not_parenthesised_signed_number :
    ¬ ∀ (configuration : Configuration Unit) (text : String) (compiled : Compiled Unit),
      Compiled.ofText configuration text = .ok compiled →
        ∃ enclosed, Compiled.ofText (configuration.withMaxDepth (configuration.maxDepth + 1))
            ("(" ++ text ++ ")") = .ok enclosed ∧
          (enclosed.execute ()).1 = (compiled.execute ()).1 := by
  intro always
  obtain ⟨enclosed, compiles, same⟩ := always (.ofType .int32) "-5!" _ rfl
  have minus : Compiled.ofText ((Configuration.ofType .int32 : Configuration Unit).withMaxDepth 257)
      "(-5!)" = .ok ⟨.operation "-" 1 (some (.number "0" 1))
        (some (.operation "!" 3 (some (.number "5" 2)) none)),
          (Configuration.ofType .int32).withMaxDepth 257⟩ := by rfl
  cases minus.symm.trans compiles
  have different : (Except.ok (.number (.int32 (-120))) : Except Error Value) =
      .ok (.number (.int32 1)) := same
  simp at different

end Formula
