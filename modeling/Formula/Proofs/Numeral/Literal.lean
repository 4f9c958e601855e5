import Formula.Proofs.Numeral.Spelling
import Formula.Proofs.Token.FoldedForm
import Formula.Numeral.Number

/-!
# Number literals

What the lexer reads as a number spells a numeral in the format of literals, also after folding has
put a minus in front of it.  Floats hold a number for every numeral, so such a literal becomes a
float, unless its exponent is beyond 64 bits: then it is refused.
-/

namespace Formula

/-! ## Numbers among the folded tokens -/

namespace Token

variable {grammar : Grammar} {token : Token} {folded tokens : List Token}

/-- Folding puts a number in as it is, or with the sign that it takes up. -/
theorem number_of_mem_foldOnto {next : Token} (member : token ∈ foldOnto grammar folded next)
    (isNumber : token.kind = .number) :
    token ∈ folded ∨ next.kind = .number ∧ ∃ negative, token = next.withSign negative := by
  have pushed {others : List Token} (member : token ∈ next :: others)
      (below : ∀ other ∈ others, other ∈ folded) :
      token ∈ folded ∨ next.kind = .number ∧ ∃ negative, token = next.withSign negative := by
    obtain rfl | member := List.mem_cons.mp member
    · exact .inr ⟨isNumber, false, rfl⟩
    · exact .inl (below token member)
  cases folded with
  | nil => exact pushed member nofun
  | cons last before =>
      cases isSign : last.isSign with
      | false =>
          rw [foldOnto_of_not_sign isSign] at member
          exact pushed member fun _ => id
      | true =>
          cases alsoSign : next.isSign with
          | true =>
              rw [foldOnto_of_sign isSign, if_pos alsoSign] at member
              obtain rfl | member := List.mem_cons.mp member
              · have isOperator := kind_of_isSign (isSign_afterSign isSign alsoSign)
                cases isNumber.symm.trans isOperator
              · exact .inl (.tail _ member)
          | false =>
              rw [foldOnto_onto_sign isSign alsoSign] at member
              split at member
              · next joins =>
                  obtain rfl | member := List.mem_cons.mp member
                  · exact .inr ⟨joins.1, last.isMinus, rfl⟩
                  · exact .inl (.tail _ member)
              · exact pushed member fun _ => id

theorem number_of_mem_foldSigns (member : token ∈ foldSigns grammar tokens)
    (isNumber : token.kind = .number) :
    ∃ number ∈ tokens, number.kind = .number ∧ ∃ negative, token = number.withSign negative := by
  induction tokens using List.reverseRecOn with
  | nil => cases member
  | append_singleton tokens last ih =>
      rw [foldSigns_concat, List.mem_reverse] at member
      obtain before | ⟨lastIsNumber, isLast⟩ := number_of_mem_foldOnto member isNumber
      · obtain ⟨number, isToken, found⟩ := ih (List.mem_reverse.mp before)
        exact ⟨number, List.mem_append_left _ isToken, found⟩
      · exact ⟨last, List.mem_append_right _ (.head _), lastIsNumber, isLast⟩

end Token

/-! ## Numerals of the lexer -/

namespace Numeral

open Lexer (AllDigits IsMantissa IsNumeral)

theorem exists_spellsSign {text : List Char} (isSign : Lexer.IsSign text) :
    ∃ negative, SpellsSign negative text := by
  cases isSign with
  | absent => exact ⟨_, .unsigned⟩
  | plus => exact ⟨_, .plus⟩
  | minus => exact ⟨_, .minus⟩

/-- A mantissa is a whole part and a fraction, of which one has a digit. -/
theorem parts_of_isMantissa {mantissa : List Char} (isMantissa : IsMantissa mantissa)
    (some : mantissa.any Char.isDigit = true) :
    ∃ whole fraction fractionText, SpellsWhole NumberFormat.invariant.groupSeparator whole whole ∧
      SpellsFraction NumberFormat.invariant.decimalSeparator fraction fractionText ∧
        mantissa = whole ++ fractionText ∧ (whole ≠ [] ∨ fraction ≠ []) := by
  cases isMantissa with
  | whole all =>
      refine ⟨mantissa, [], [], spellsWhole_of_allDigits all _, .absent, by simp, .inl ?_⟩
      rintro rfl
      cases some
  | @pointed whole fraction all allAfter =>
      refine ⟨whole, fraction, _, spellsWhole_of_allDigits all _, .present allAfter, rfl, ?_⟩
      by_contra none_
      obtain ⟨rfl, rfl⟩ := not_or.mp none_ |>.imp not_not.mp not_not.mp
      cases some

theorem exists_spells_of_isNumeral {negative : Bool} {sign text : List Char}
    (isSign : SpellsSign negative sign) (isNumeral : IsNumeral text) :
    ∃ numeral, Spells .invariant numeral (sign ++ text) := by
  cases isNumeral with
  | plain isMantissa some =>
      obtain ⟨whole, fraction, fractionText, isWhole, isFraction, rfl, nonempty⟩ :=
        parts_of_isMantissa isMantissa some
      have spelled := Spells.intro isSign isWhole isFraction .absent nonempty
      rw [List.append_nil] at spelled
      exact ⟨_, spelled⟩
  | scaled isMantissa some isExponentSign all present =>
      obtain ⟨whole, fraction, fractionText, isWhole, isFraction, rfl, nonempty⟩ :=
        parts_of_isMantissa isMantissa some
      obtain ⟨_, isExponentSign⟩ := exists_spellsSign isExponentSign
      have isExponent := SpellsExponent.present (.inl rfl) isExponentSign present all
      have spelled := Spells.intro isSign isWhole isFraction isExponent nonempty
      simp only [List.append_assoc, List.cons_append] at spelled ⊢
      exact ⟨_, spelled⟩

theorem lexeme_withSign {number : Token} {lexeme : List Char}
    (isText : number.text = some (String.ofList lexeme)) (negative : Bool) :
    (number.withSign negative).lexeme = String.ofList (Text.sign negative ++ lexeme) := by
  rw [← String.toList_inj]
  cases negative with
  | false => simp [Token.withSign, Token.lexeme, Text.sign, isText]
  | true => simp [Token.withSign, Token.negated, Token.lexeme, Text.sign, isText]

/-- With or without the minus of folding, the lexeme of a number spells a numeral. -/
theorem exists_isSpelledBy_withSign {number : Token} {lexeme : List Char}
    (isNumeral : IsNumeral lexeme) (isText : number.text = some (String.ofList lexeme))
    (negative : Bool) :
    ∃ numeral : Numeral, numeral.IsSpelledBy .invariant (number.withSign negative).lexeme := by
  obtain ⟨numeral, spelled⟩ := exists_spells_of_isNumeral (spellsSign_sign negative) isNumeral
  rw [lexeme_withSign isText]
  exact ⟨numeral, spelled.isSpelledBy spelled.visible⟩

theorem exists_toNumber?_of_isFloat {target : NumericType} (float : target.isFloat = true)
    (numeral : Numeral) :
    ∃ number, numeral.toNumber? target = some number ∧ number.type = target := by
  cases target with
  | float32 => exact ⟨_, rfl, rfl⟩
  | float64 => exact ⟨_, rfl, rfl⟩
  | decimal | int32 | int64 => cases float

end Numeral

/-! ## Literals -/

namespace Conventions

variable {conventions : Conventions} {text : String} {numeral : Numeral}

theorem readLiteral_of_isSpelledBy (spelled : numeral.IsSpelledBy .invariant text) :
    conventions.readLiteral text = Number.orUnrepresentable text conventions.numericType
      (if numeral.ExponentFits then numeral.toNumber? conventions.numericType else none) := by
  rw [readLiteral, Number.read?, Numeral.read?_of_isSpelledBy (by decide) spelled]
  split
  · rfl
  · rfl

/-- Every number of a text spells a numeral.  Among floats it becomes a number exactly if the
exponent of this numeral fits into 64 bits; otherwise it is refused, by its text and the type. -/
theorem readLiteral_of_tokenize {grammar lexing : Grammar} {text : String} {tokens : List Token}
    (tokenized : Lexer.tokenize lexing text = .ok tokens) :
    ∀ token ∈ Token.foldSigns grammar tokens, token.kind = .number →
      ∃ numeral : Numeral, numeral.IsSpelledBy .invariant token.lexeme ∧
        ∀ conventions : Conventions, conventions.numericType.isFloat = true →
          (numeral.ExponentFits → ∃ number, conventions.readLiteral token.lexeme = .ok number ∧
            number.type = conventions.numericType) ∧
          (¬ numeral.ExponentFits → conventions.readLiteral token.lexeme =
            .error (.unrepresentable token.lexeme conventions.numericType)) := by
  intro token member isNumber
  obtain ⟨number, isToken, numberKind, negative, rfl⟩ :=
    Token.number_of_mem_foldSigns member isNumber
  obtain ⟨lexeme, isNumeral, isText⟩ := Lexer.forall_of_tokensFrom
    (fun _ => Lexer.isNumeral_of_next) (.refl _) tokenized number isToken numberKind
  obtain ⟨numeral, spelled⟩ :=
    Numeral.exists_isSpelledBy_withSign isNumeral isText negative
  refine ⟨numeral, spelled, fun conventions float => ⟨fun fits => ?_, fun beyond => ?_⟩⟩
  · obtain ⟨number, isNumber, type⟩ := Numeral.exists_toNumber?_of_isFloat float numeral
    refine ⟨number, ?_, type⟩
    rw [readLiteral_of_isSpelledBy spelled, if_pos fits, isNumber]
    rfl
  · rw [readLiteral_of_isSpelledBy spelled, if_neg beyond]
    rfl

/-- A number without whole digits that takes up a sign. -/
theorem readLiteral_of_tokenize_signed :
    let tokens : List Token :=
      [⟨.number, some "2", 0⟩, ⟨.operator, some "*", 1⟩, ⟨.operator, some "-", 2⟩,
        ⟨.number, some ".5e3", 3⟩]
    let token : Token := ⟨.number, some "-.5e3", 3⟩
    Lexer.tokenize .standard "2*-.5e3" = .ok tokens ∧ token ∈ Token.foldSigns .standard tokens ∧
      token.kind = .number ∧ (Conventions.ofType .float32).numericType.isFloat = true ∧
        ∃ number, (Conventions.ofType .float32).readLiteral "-.5e3" = .ok number ∧
          number.type = .float32 := by
  intro tokens token
  have tokenized : Lexer.tokenize .standard "2*-.5e3" = .ok tokens := by decide +kernel
  have member : token ∈ Token.foldSigns .standard tokens := by decide +kernel
  obtain ⟨numeral, spelled, converts⟩ := readLiteral_of_tokenize tokenized token member rfl
  have read : Numeral.read? .invariant token.lexeme = some ⟨true, [], ['5'], some 3⟩ := by decide
  obtain rfl := Numeral.eq_of_isSpelledBy (by decide) spelled read
  exact ⟨tokenized, member, rfl, rfl, (converts (.ofType .float32) rfl).1 (by decide)⟩

/-- The exponent is one more than the largest integer of 64 bits. -/
theorem not_readLiteral_of_tokenize :
    ¬ ∀ (grammar : Grammar) (text : String) (tokens : List Token),
      Lexer.tokenize grammar text = .ok tokens →
        ∀ token ∈ Token.foldSigns grammar tokens, token.kind = .number →
          ∀ conventions : Conventions, conventions.numericType.isFloat = true →
            ∃ number, conventions.readLiteral token.lexeme = .ok number := by
  intro always
  have tokenized : Lexer.tokenize .standard "1e9223372036854775808" =
      .ok [⟨.number, some "1e9223372036854775808", 0⟩] := by decide +kernel
  obtain ⟨number, isRead⟩ := always _ _ _ tokenized ⟨.number, some "1e9223372036854775808", 0⟩
    (by decide +kernel) rfl (.ofType .float64) rfl
  have refused : (Conventions.ofType .float64).readLiteral "1e9223372036854775808" =
      .error (.unrepresentable "1e9223372036854775808" .float64) := by decide
  cases isRead.symm.trans refused

end Conventions

end Formula
