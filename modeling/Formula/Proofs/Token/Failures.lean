import Formula.Proofs.Token.Lossless

/-!
# Errors of the lexer

Whatever the lexer cannot read it reports as a lexical fault, at one of the characters that are
still to be read.
-/

namespace Formula

def Error.IsLexical (error : Error) : Prop :=
  ∃ position fault, error = .lexical position fault

namespace Lexer

open Text (byteLength)

variable {grammar : Grammar} {spellings : List String}

/-- A lexical fault at a character that the cursor stands in front of. -/
def LiesAhead (cursor : Cursor) (error : Error) : Prop :=
  ∃ ahead fault, Advances cursor ahead ∧ ahead.rest ≠ [] ∧ error = .lexical ahead.position fault

namespace LiesAhead

theorem isLexical {cursor : Cursor} {error : Error} (lies : LiesAhead cursor error) :
    error.IsLexical := by
  obtain ⟨ahead, fault, -, -, rfl⟩ := lies
  exact ⟨ahead.position, fault, rfl⟩

theorem of_advances {before after : Cursor} {error : Error} (advances : Advances before after)
    (lies : LiesAhead after error) : LiesAhead before error := by
  obtain ⟨ahead, fault, further, present, rfl⟩ := lies
  exact ⟨ahead, fault, advances.trans further, present, rfl⟩

theorem here {first : Char} {following : List Char} (position : Nat) (fault : LexicalFault) :
    LiesAhead ⟨first :: following, position⟩ (.lexical position fault) :=
  ⟨_, fault, .refl _, by simp, rfl⟩

end LiesAhead

theorem fails_fail {α : Type} {allowed : Error → Prop} {position : Nat} {fault : LexicalFault}
    (isAllowed : allowed (.lexical position fault)) :
    FailsWithin allowed (fail position fault : Except Error α) :=
  .error isAllowed

theorem fails_readNumber {first : Char} {following : List Char} (position : Nat) :
    FailsWithin (LiesAhead ⟨first :: following, position⟩)
      (readNumber ⟨first :: following, position⟩).1 := by
  unfold readNumber
  dsimp only
  split
  · split
    · split
      · exact fails_fail (.here _ _)
      · exact .ok _
    · exact .ok _
  · exact fails_fail (.here _ _)

/-- The contents of a string fail at its start or at a backslash in them. -/
def FailsInside (start : Nat) (cursor : Cursor) (error : Error) : Prop :=
  (∃ fault, error = .lexical start fault) ∨ LiesAhead cursor error

theorem fails_readContents (quote : Char) (start position : Nat) (text : List Char) :
    FailsWithin (FailsInside start ⟨text, position⟩)
      (readContents quote start position text).1 := by
  have skip (passed : List Char) {rest : List Char} {position after : Nat} {character : Char}
      {reading : StringReading} (ended : after = position + byteLength passed)
      (fails : FailsWithin (FailsInside start ⟨rest, after⟩) reading.1) :
      FailsWithin (FailsInside start ⟨passed ++ rest, position⟩) (prepend character reading).1 :=
    (fails.map _).mono fun error => Or.imp_right (.of_advances ⟨passed, rfl, ended⟩)
  fun_induction readContents quote start position text with
  | case1 => exact fails_fail (.inl ⟨_, rfl⟩)
  | case2 => exact .ok _
  | case3 position character rest notQuote notBackslash ih =>
      exact skip [character] rfl ih
  | case4 => exact fails_fail (.inr (.here _ _))
  | case5 position backslash notQuote isBackslash first second rest character named ih =>
      obtain rfl := of_not_not isBackslash
      refine skip ['\\', 'x', first, second] ?_ ih
      rw [byteLength_byteEscape named]
  | case6 => exact fails_fail (.inr (.here _ _))
  | case7 => exact fails_fail (.inr (.here _ _))
  | case8 position backslash notQuote isBackslash first second third fourth rest character named
      ih =>
      obtain rfl := of_not_not isBackslash
      refine skip ['\\', 'u', first, second, third, fourth] ?_ ih
      rw [byteLength_unitEscape named]
  | case9 => exact fails_fail (.inr (.here _ _))
  | case10 => exact fails_fail (.inr (.here _ _))
  | case11 position backslash notQuote isBackslash letter rest _ notByte _ notUnit ih =>
      obtain rfl := of_not_not isBackslash
      exact skip ['\\', letter] (Nat.add_assoc _ _ _) ih

theorem fails_readString {quote : Char} {contents : List Char} (position : Nat) :
    FailsWithin (LiesAhead ⟨quote :: contents, position⟩)
      (readString quote position contents).1 := by
  refine ((fails_readContents quote position _ contents).map _).mono ?_
  rintro _ (⟨fault, rfl⟩ | lies)
  · exact .here position fault
  · exact lies.of_advances ⟨[quote], rfl, rfl⟩

theorem fails_readToken {first : Char} {following : List Char} (position : Nat) :
    FailsWithin (LiesAhead ⟨first :: following, position⟩)
      (readToken grammar spellings ⟨first :: following, position⟩ first following).1 := by
  unfold readToken
  dsimp only
  split
  · exact fails_readNumber position
  · split
    · exact .ok _
    · split
      · exact fails_readString position
      · split
        · exact .ok _
        · split
          · exact .ok _
          · exact fails_fail (.here _ _)

theorem fails_next (cursor : Cursor) :
    FailsWithin (LiesAhead cursor) (next grammar spellings cursor).1 := by
  have ahead := advances_skipSpace cursor
  unfold next
  generalize skipSpace cursor = start at ahead
  obtain ⟨rest, position⟩ := start
  cases rest with
  | nil => exact .ok _
  | cons first following =>
      exact ((fails_readToken position).map _).mono fun _ => .of_advances ahead

theorem fails_tokensFrom (grammar : Grammar) (spellings : List String) (limit : Nat)
    (cursor : Cursor) :
    FailsWithin (LiesAhead cursor) (tokensFrom grammar spellings limit cursor) := by
  induction limit generalizing cursor with
  | zero => exact .ok _
  | succ limit ih =>
      have fails := @fails_next grammar spellings cursor
      have advances := @advances_next grammar spellings cursor
      unfold tokensFrom
      split
      · next failed =>
          rw [failed] at fails
          exact .error (fails _ rfl)
      · exact .ok _
      · next reads =>
          rw [reads] at advances
          exact ((ih _).map _).mono fun _ => .of_advances advances

end Lexer

end Formula
