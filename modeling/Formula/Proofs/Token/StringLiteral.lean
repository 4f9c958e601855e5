import Formula.Proofs.Token.Lexeme

/-!
# Every text as a literal

A literal may spell each of its characters in several ways: as itself, behind a backslash, by the
letter of a control character, or by its code in hexadecimal digits.  The spellings are stated here
by what stands in the text, without the reader.  Every text has one, and whichever is chosen for
each character, the literal is one token that holds the text.
-/

namespace Formula.Lexer

/-! ## Hexadecimal digits -/

/-- A hexadecimal digit with its value, in either case. -/
inductive IsHexDigit (value : Fin 16) : Char → Prop
  | lower : IsHexDigit value (Nat.digitChar value)
  | upper : IsHexDigit value (Nat.digitChar value).toUpper

theorem hexDigit?_of_isHexDigit {value : Fin 16} {digit : Char} (isDigit : IsHexDigit value digit) :
    hexDigit? digit = some value.val := by
  have bothCases : ∀ value : Fin 16, hexDigit? (Nat.digitChar value) = some value.val ∧
      hexDigit? (Nat.digitChar value).toUpper = some value.val := by
    decide
  cases isDigit with
  | lower => exact (bothCases value).1
  | upper => exact (bothCases value).2

theorem hexCharacter_of_hexValue? {digits : List Char} {character : Char}
    (read : hexValue? digits = some character.toNat) : hexCharacter digits = .ok character := by
  have valid : character.toNat.isValidChar := character.valid
  simp only [hexCharacter, read, valid, if_true, Char.ofNat_toNat]

/-! ## Spellings between quotes -/

/-- The letters that have a meaning of their own behind a backslash. -/
def escapeLetters : List Char := ['b', 'f', 'n', 'r', 't', 'x', 'u']

/-- The control characters that have a letter. -/
inductive IsControlLetter : (letter character : Char) → Prop
  | backspace : IsControlLetter 'b' '\x08'
  | formFeed : IsControlLetter 'f' '\x0c'
  | lineFeed : IsControlLetter 'n' '\n'
  | carriageReturn : IsControlLetter 'r' '\r'
  | tab : IsControlLetter 't' '\t'

inductive SpellsCharacter (quote character : Char) : List Char → Prop
  | itself (notQuote : character ≠ quote) (notBackslash : character ≠ '\\') :
      SpellsCharacter quote character [character]
  | behindBackslash (notLetter : character ∉ escapeLetters) :
      SpellsCharacter quote character ['\\', character]
  | control {letter : Char} (isLetter : IsControlLetter letter character) :
      SpellsCharacter quote character ['\\', letter]
  | byte {first second : Fin 16} {firstDigit secondDigit : Char}
      (isFirst : IsHexDigit first firstDigit) (isSecond : IsHexDigit second secondDigit)
      (code : character.toNat = 16 * first + second) :
      SpellsCharacter quote character ['\\', 'x', firstDigit, secondDigit]
  | unit {first second third fourth : Fin 16} {firstDigit secondDigit thirdDigit fourthDigit : Char}
      (isFirst : IsHexDigit first firstDigit) (isSecond : IsHexDigit second secondDigit)
      (isThird : IsHexDigit third thirdDigit) (isFourth : IsHexDigit fourth fourthDigit)
      (code : character.toNat = 16 * (16 * (16 * first + second) + third) + fourth) :
      SpellsCharacter quote character ['\\', 'u', firstDigit, secondDigit, thirdDigit, fourthDigit]

/-- The characters of a content, each in one of its spellings. -/
inductive SpellsText (quote : Char) : (characters spelled : List Char) → Prop
  | nil : SpellsText quote [] []
  | cons {character : Char} {characters spelled following : List Char}
      (first : SpellsCharacter quote character spelled)
      (rest : SpellsText quote characters following) :
      SpellsText quote (character :: characters) (spelled ++ following)

/-! ## Spellings are read back -/

theorem encodes_of_spellsCharacter {quote character : Char} {spelled : List Char}
    (spells : SpellsCharacter quote character spelled) : Encodes quote character spelled := by
  cases spells with
  | itself notQuote notBackslash => exact .itself notQuote notBackslash
  | behindBackslash notLetter =>
      simp only [escapeLetters, List.mem_cons, List.not_mem_nil, or_false, not_or] at notLetter
      obtain ⟨notB, notF, notN, notR, notT, notX, notU⟩ := notLetter
      have meansItself : escaped character = character := by
        unfold escaped
        split <;> trivial
      rw [← meansItself] at notX notU
      have encodes : Encodes quote (escaped (escaped character)) ['\\', escaped character] :=
        .behindBackslash notX notU
      rwa [meansItself, meansItself] at encodes
  | control isLetter =>
      cases isLetter with
      | backspace => exact @Encodes.behindBackslash quote 'b' (by decide) (by decide)
      | formFeed => exact @Encodes.behindBackslash quote 'f' (by decide) (by decide)
      | lineFeed => exact @Encodes.behindBackslash quote 'n' (by decide) (by decide)
      | carriageReturn => exact @Encodes.behindBackslash quote 'r' (by decide) (by decide)
      | tab => exact @Encodes.behindBackslash quote 't' (by decide) (by decide)
  | byte isFirst isSecond code =>
      refine .byte (hexCharacter_of_hexValue? ?_)
      simp [hexValue?, hexDigit?_of_isHexDigit isFirst, hexDigit?_of_isHexDigit isSecond, code]
  | unit isFirst isSecond isThird isFourth code =>
      refine .unit (hexCharacter_of_hexValue? ?_)
      simp [hexValue?, hexDigit?_of_isHexDigit isFirst, hexDigit?_of_isHexDigit isSecond,
        hexDigit?_of_isHexDigit isThird, hexDigit?_of_isHexDigit isFourth, code]

theorem encodesAll_of_spellsText {quote : Char} {characters spelled : List Char}
    (spells : SpellsText quote characters spelled) : EncodesAll quote characters spelled := by
  induction spells with
  | nil => exact .nil
  | cons first _ ih => exact .cons (encodes_of_spellsCharacter first) ih

/-- Only the quote and the backslash need a backslash in front. -/
theorem exists_spellsCharacter {quote : Char} (notLetter : quote ∉ escapeLetters)
    (character : Char) : ∃ spelled, SpellsCharacter quote character spelled := by
  by_cases isQuote : character = quote
  · exact ⟨_, .behindBackslash (isQuote ▸ notLetter)⟩
  · by_cases isBackslash : character = '\\'
    · exact ⟨_, .behindBackslash (isBackslash ▸ by decide)⟩
    · exact ⟨_, .itself isQuote isBackslash⟩

theorem exists_spellsText {quote : Char} (notLetter : quote ∉ escapeLetters)
    (characters : List Char) : ∃ spelled, SpellsText quote characters spelled := by
  induction characters with
  | nil => exact ⟨[], .nil⟩
  | cons character characters ih =>
      obtain ⟨spelled, first⟩ := exists_spellsCharacter notLetter character
      obtain ⟨following, rest⟩ := ih
      exact ⟨spelled ++ following, .cons first rest⟩

/-! ## Literals -/

/-- Every text has a literal in either kind of quotes, and each of its literals is one token. -/
theorem tokenize_literal {grammar : Grammar} {quote : Char}
    (isQuote : quote = '\x22' ∨ quote = '\x27')
    (notIdentifier : grammar.isIdentifierCharacter quote = false) (text : String) :
    (∃ spelled, SpellsText quote text.toList spelled) ∧
      ∀ spelled, SpellsText quote text.toList spelled →
        tokenize grammar (String.ofList (quote :: spelled ++ [quote])) =
          .ok [⟨.stringLiteral, some text, 0⟩] := by
  have notLetter : quote ∉ escapeLetters := by
    rcases isQuote with rfl | rfl <;> decide
  refine ⟨exists_spellsText notLetter text.toList, fun spelled spells => ?_⟩
  have isLexeme := isLexeme_string isQuote notIdentifier (encodesAll_of_spellsText spells) 0
  have reads := tokensFrom_lexeme isLexeme startsWithSpace_nil
    (String.ofList (quote :: spelled ++ [quote])).length 0
  rw [List.append_nil, tokensFrom_nil, String.ofList_toList] at reads
  rw [tokenize, Cursor.ofText, String.toList_ofList]
  exact reads

/-- A quote, a letter outside ASCII and a backslash, each behind a backslash, and a control
character by its code, in digits of both cases. -/
theorem tokenize_literal_of_escapes :
    ('\x27' = '\x22' ∨ '\x27' = '\x27') ∧ Grammar.standard.isIdentifierCharacter '\x27' = false ∧
      SpellsText '\x27' "'é\\\x0b".toList "\\'\\é\\\\\\x0B".toList ∧
        tokenize Grammar.standard
            (String.ofList ('\x27' :: "\\'\\é\\\\\\x0B".toList ++ ['\x27'])) =
          .ok [⟨.stringLiteral, some "'é\\\x0b", 0⟩] := by
  have notIdentifier : Grammar.standard.isIdentifierCharacter '\x27' = false := by decide
  have characters : "'é\\\x0b".toList = ['\x27', 'é', '\\', '\x0b'] := by decide
  have encoding : "\\'\\é\\\\\\x0B".toList =
      ['\\', '\x27', '\\', 'é', '\\', '\\', '\\', 'x', '0', 'B'] := by decide
  have spells : SpellsText '\x27' "'é\\\x0b".toList "\\'\\é\\\\\\x0B".toList := by
    rw [characters, encoding]
    exact .cons (.behindBackslash (by decide)) <| .cons (.behindBackslash (by decide)) <|
      .cons (.behindBackslash (by decide)) <|
        .cons (.byte (.lower : IsHexDigit 0 '0') (.upper : IsHexDigit 11 'B') rfl) .nil
  exact ⟨.inr rfl, notIdentifier, spells, (tokenize_literal (.inr rfl) notIdentifier _).2 _ spells⟩

end Formula.Lexer
