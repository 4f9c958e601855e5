import Formula.Proofs.Token.Failures
import Formula.Proofs.Token.Flattening
import Formula.Proofs.Token.OpenParentheses
import Formula.Proofs.Token.Places

/-!
# Positions in the text

Whatever the lexer, sign folding and grouping point at starts with a character of the text: their
tokens, their trees and their errors.  A name stands where its token does, and a string begins with
a quote.
-/

namespace Formula

namespace Text

/-- The characters stand in the text at a byte offset. -/
def StandsAt (text : String) (position : Nat) (part : List Char) : Prop :=
  ∃ passed rest, text.toList = passed ++ part ++ rest ∧ position = byteLength passed

/-- A character of the text starts at the byte offset. -/
def IsStart (text : String) (position : Nat) : Prop :=
  ∃ first, StandsAt text position [first]

theorem isStart_of_append {text : String} {passed rest : List Char}
    (whole : text.toList = passed ++ rest) (present : rest ≠ []) :
    IsStart text (byteLength passed) := by
  obtain ⟨first, rest, rfl⟩ := List.exists_cons_of_ne_nil present
  exact ⟨first, passed, rest, by simp [whole], rfl⟩

theorem StandsAt.left {text : String} {position : Nat} {part more : List Char}
    (stands : StandsAt text position (part ++ more)) : StandsAt text position part := by
  obtain ⟨passed, rest, whole, position⟩ := stands
  exact ⟨passed, more ++ rest, by simp [whole], position⟩

end Text

namespace Lexer

open Text (IsStart StandsAt byteLength)

variable {grammar : Grammar} {text : String} {tokens : List Token} {token : Token}

/-! ## Errors of the lexer -/

theorem isStart_of_advances {ahead : Cursor} (advances : Advances (.ofText text) ahead)
    (present : ahead.rest ≠ []) : IsStart text ahead.position := by
  obtain ⟨passed, whole, ended⟩ := advances
  rw [ended, Cursor.ofText, Nat.zero_add]
  exact Text.isStart_of_append whole present

theorem isStart_of_tokenize_eq_error {error : Error}
    (failed : tokenize grammar text = .error error) :
    ∃ position fault, error = .lexical position fault ∧ IsStart text position := by
  obtain ⟨ahead, fault, advances, present, rfl⟩ := fails_tokensFrom _ _ _ _ error failed
  exact ⟨ahead.position, fault, rfl, isStart_of_advances advances present⟩

/-- The fault is at the backslash, behind a character of two bytes. -/
example : tokenize .standard "f('é\\xg')" = .error (.lexical 5 .malformedHexEscape) := by
  decide +kernel

/-! ## Tokens -/

theorem StandsIn.isStart (stands : StandsIn text.toList token) : IsStart text token.position := by
  obtain ⟨passed, first, following, whole, position, -⟩ := stands
  rw [position]
  exact Text.isStart_of_append whole (by simp)

theorem Cut.spells {start : Nat} {text : List Char} (cut : Cut grammar start text tokens) :
    ∀ token ∈ tokens, ∃ passed lexeme rest, text = passed ++ lexeme ++ rest ∧
      token.position = start + byteLength passed ∧
        Spells grammar token.position lexeme rest token := by
  induction cut with
  | done => simp
  | @token start stop gap lexeme rest token tokens _ starts ends _ spells _ ih =>
      refine List.forall_mem_cons.mpr ⟨⟨gap, lexeme, rest, rfl, starts, spells⟩, ?_⟩
      intro token member
      obtain ⟨passed, lexeme', rest', rfl, position, spells⟩ := ih token member
      refine ⟨gap ++ lexeme ++ passed, lexeme', rest', by simp, ?_, spells⟩
      simp only [position, ends, starts, Text.byteLength_append, Nat.add_assoc]

theorem spells_of_tokenize (valid : grammar.validate = .ok ())
    (tokenized : tokenize grammar text = .ok tokens) :
    ∀ token ∈ tokens, ∃ lexeme rest, StandsAt text token.position lexeme ∧
      Spells grammar token.position lexeme rest token := by
  intro token member
  obtain ⟨passed, lexeme, rest, whole, position, spells⟩ :=
    (((tokenize_eq_ok_iff valid).mp tokenized).cut valid).spells token member
  exact ⟨lexeme, rest, ⟨passed, rest, whole, position.trans (Nat.zero_add _)⟩, spells⟩

theorem Spells.isLexed {position : Nat} {lexeme rest : List Char}
    (spells : Spells grammar position lexeme rest token) : token.IsLexed := by
  cases spells with
  | number | identifier | string | operator => simp [Token.IsLexed, Mark.IsLexed, Token.mark]
  | punctuation isPunctuation =>
      exact iff_of_true rfl (kind_of_punctuation? isPunctuation)

end Lexer

namespace Token

open Text (IsStart StandsAt)

/-- What stands in the text at a token: the name itself, or the quote in front of a string. -/
structure IsWritten (text : String) (token : Token) : Prop where
  name : token.kind = .identifier → StandsAt text token.position token.lexeme.toList
  quote : token.kind = .stringLiteral →
    ∃ quote ∈ ['\x22', '\x27'], StandsAt text token.position [quote]

/-! ## Folded tokens -/

section Folded

variable {grammar : Grammar} {text : String} {tokens : List Token}
  (tokenized : Lexer.tokenize grammar text = .ok tokens)
include tokenized

theorem isStart_foldSigns :
    ∀ token ∈ foldSigns grammar tokens, IsStart text token.position :=
  fun token member =>
    (standsIn_foldSigns (Lexer.standsIn_of_tokenize tokenized) token member).isStart

theorem isLexed_foldSigns (valid : grammar.validate = .ok ()) :
    ∀ token ∈ foldSigns grammar tokens, token.IsLexed := by
  intro token member
  obtain isToken | ⟨isOperator | isNumber, present⟩ := mem_foldSigns member
  · obtain ⟨lexeme, rest, -, spells⟩ := Lexer.spells_of_tokenize valid tokenized token isToken
    exact spells.isLexed
  · simp [IsLexed, Mark.IsLexed, mark, isOperator, present]
  · simp [IsLexed, Mark.IsLexed, mark, isNumber, present]

end Folded

end Token

end Formula
