import Formula.Proofs.Outcome
import Formula.Proofs.Position
import Formula.Proofs.Token.Reading
import Mathlib.Data.List.Find

/-!
# Lexemes in front of a gap

A lexeme that a space or the end of the text follows is read as its token whatever stands behind,
so lexemes with a space between them are read one after the other.
-/

namespace Formula.Lexer

open Text (byteLength)

variable {grammar : Grammar}

def StartsWithSpace (rest : List Char) : Prop :=
  ∀ character ∈ rest.head?, isSpace character = true

theorem startsWithSpace_nil : StartsWithSpace [] := by
  simp [StartsWithSpace]

/-- The text is read as the token where a space or nothing follows. -/
def IsLexeme (grammar : Grammar) (lexeme : List Char) (token : Token) : Prop :=
  ∀ ⦃rest⦄ position, StartsWithSpace rest →
    next grammar grammar.spellings ⟨lexeme ++ rest, position⟩ =
      (.ok (some { token with position := position }), ⟨rest, position + byteLength lexeme⟩)

theorem skipSpace_of_not_space {first : Char} (visible : isSpace first = false)
    (following : List Char) (position : Nat) :
    skipSpace ⟨first :: following, position⟩ = ⟨first :: following, position⟩ := by
  simp [skipSpace, visible, Cursor.past, byteLength]

theorem isLexeme_of_readToken {first : Char} {following : List Char} {token : Token}
    (visible : isSpace first = false)
    (read : ∀ rest position, StartsWithSpace rest →
      readToken grammar grammar.spellings ⟨first :: (following ++ rest), position⟩ first
          (following ++ rest) =
        (.ok { token with position := position },
          ⟨rest, position + byteLength (first :: following)⟩)) :
    IsLexeme grammar (first :: following) token := by
  intro rest position spaced
  rw [List.cons_append, next, skipSpace_of_not_space visible]
  simp only [read rest position spaced]
  rfl

theorem tokensFrom_space (limit position : Nat) (text : List Char) (spellings : List String) :
    tokensFrom grammar spellings limit ⟨' ' :: text, position⟩ =
      tokensFrom grammar spellings limit ⟨text, position + 1⟩ := by
  have skipped : skipSpace ⟨' ' :: text, position⟩ = skipSpace ⟨text, position + 1⟩ := by
    have oneByte : ' '.utf8Size = 1 := rfl
    simp [skipSpace, isSpace, Cursor.past, byteLength, oneByte, Nat.add_assoc]
  cases limit with
  | zero => rfl
  | succ limit => simp only [tokensFrom, next, skipped]

theorem tokensFrom_lexeme {lexeme rest : List Char} {token : Token}
    (isLexeme : IsLexeme grammar lexeme token) (spaced : StartsWithSpace rest)
    (limit position : Nat) :
    tokensFrom grammar grammar.spellings (limit + 1) ⟨lexeme ++ rest, position⟩ =
      (tokensFrom grammar grammar.spellings limit ⟨rest, position + byteLength lexeme⟩).map
        ({ token with position := position } :: ·) := by
  rw [tokensFrom, isLexeme position spaced]

theorem tokensFrom_nil (limit position : Nat) (spellings : List String) :
    tokensFrom grammar spellings limit ⟨[], position⟩ = .ok [] := by
  cases limit with
  | zero => rfl
  | succ limit => rfl

theorem tokensFrom_intercalate {written : Token → List Char} {tokens : List Token}
    (each : ∀ token ∈ tokens, IsLexeme grammar (written token) token) {limit : Nat}
    (enough : tokens.length < limit) (position : Nat) :
    ∃ read, tokensFrom grammar grammar.spellings limit
        ⟨[' '].intercalate (tokens.map written), position⟩ = .ok read ∧
      read.map (Token.relocate origin) = tokens.map (Token.relocate origin) := by
  induction tokens generalizing limit position with
  | nil => exact ⟨[], tokensFrom_nil limit position _, rfl⟩
  | cons token tokens ih =>
      obtain ⟨limit, rfl⟩ := Nat.exists_eq_succ_of_ne_zero (Nat.ne_zero_of_lt enough)
      obtain ⟨isLexeme, each⟩ := List.forall_mem_cons.mp each
      cases tokens with
      | nil =>
          have last := tokensFrom_lexeme isLexeme startsWithSpace_nil
          simp only [List.append_nil, tokensFrom_nil] at last
          simp only [List.map_cons, List.map_nil, List.intercalate_singleton, last]
          exact ⟨[{ token with position := position }], rfl, rfl⟩
      | cons second tokens =>
          have spaced : StartsWithSpace
              (' ' :: [' '].intercalate (written second :: tokens.map written)) := by
            simp [StartsWithSpace, isSpace]
          obtain ⟨read, same, sameUpToPositions⟩ :=
            ih each (Nat.lt_of_succ_lt_succ enough) (position + byteLength (written token) + 1)
          simp only [List.map_cons, List.intercalate_cons_cons, List.append_assoc,
            List.singleton_append] at same ⊢
          rw [tokensFrom_lexeme isLexeme spaced, tokensFrom_space, same]
          refine ⟨{ token with position := position } :: read, rfl, ?_⟩
          exact congrArg _ sameUpToPositions

/-! ## The lexemes of each kind -/

theorem isSpace_eq_true_iff {character : Char} :
    isSpace character = true ↔
      character = ' ' ∨ character = '\t' ∨ character = '\r' ∨ character = '\n' ∨
        character = '\x0c' := by
  simp [isSpace, or_assoc]

theorem not_isSpace_of_isDigit {character : Char} (isDigit : character.isDigit = true) :
    isSpace character = false := by
  rw [← Bool.not_eq_true, isSpace_eq_true_iff]
  rintro (rfl | rfl | rfl | rfl | rfl) <;> contradiction

theorem stopsMantissa_of_space {rest : List Char} (spaced : StartsWithSpace rest) :
    StopsMantissa rest := by
  intro character first
  have := isSpace_eq_true_iff.mp (spaced character first)
  rcases this with rfl | rfl | rfl | rfl | rfl <;> decide

theorem IsNumeral.first {text : List Char} (isNumeral : IsNumeral text) :
    ∃ first following, text = first :: following ∧ (first.isDigit = true ∨ first = '.') := by
  have ofMantissa : ∀ {mantissa : List Char}, IsMantissa mantissa →
      mantissa.any Char.isDigit = true → ∃ first following, mantissa = first :: following ∧
        (first.isDigit = true ∨ first = '.') := by
    intro mantissa isMantissa some
    cases isMantissa with
    | whole all =>
        cases mantissa with
        | nil => cases some
        | cons first following => exact ⟨first, following, rfl, .inl (all first (.head _))⟩
    | @pointed whole fraction all allAfter =>
        cases whole with
        | nil => exact ⟨'.', fraction, rfl, .inr rfl⟩
        | cons first following => exact ⟨first, _, rfl, .inl (all first (.head _))⟩
  cases isNumeral with
  | plain isMantissa some => exact ofMantissa isMantissa some
  | scaled isMantissa some _ _ _ =>
      obtain ⟨first, following, rfl, starts⟩ := ofMantissa isMantissa some
      exact ⟨first, _, rfl, starts⟩

theorem isLexeme_numeral {text : List Char} (isNumeral : IsNumeral text) (position : Nat) :
    IsLexeme grammar text ⟨.number, some (String.ofList text), position⟩ := by
  obtain ⟨first, following, rfl, starts⟩ := isNumeral.first
  refine isLexeme_of_readToken ?_ fun rest position spaced => ?_
  · rcases starts with isDigit | rfl
    · exact not_isSpace_of_isDigit isDigit
    · decide
  · have notExponent : rest.head? ≠ some 'e' := by
      intro mark
      have := spaced 'e' mark
      contradiction
    have read := readNumber_append isNumeral (stopsMantissa_of_space spaced) notExponent position
    rw [readToken]
    simp only [Bool.or_eq_true, beq_iff_eq, starts, ↓reduceIte]
    exact read

theorem kind_of_punctuation? {character : Char} {kind : Token.Kind}
    (isPunctuation : punctuation? character = some kind) :
    kind ∈ [Token.Kind.leftParen, .rightParen, .comma] := by
  unfold punctuation? at isPunctuation
  split at isPunctuation <;> cases isPunctuation <;> decide

theorem readNumber_of_readToken {spellings : List String} {cursor after : Cursor} {first : Char}
    {following : List Char} {token : Token}
    (read : readToken grammar spellings cursor first following = (.ok token, after))
    (kind : token.kind = .number) : readNumber cursor = (.ok token, after) := by
  unfold readToken at read
  dsimp only at read
  split at read
  · exact read
  · split at read
    · cases read
      cases kind
    · split at read
      · obtain ⟨isString, -⟩ := Prod.mk.inj read
        obtain ⟨characters, -, rfl⟩ := map_eq_ok_iff.mp isString
        cases kind
      · split at read
        · next mark isPunctuation =>
            cases read
            obtain rfl : mark = .number := kind
            have isMark := kind_of_punctuation? isPunctuation
            simp at isMark
        · split at read
          · cases read
            cases kind
          · cases read

theorem next_eq_some {spellings : List String} {cursor after : Cursor} {token : Token}
    (read : next grammar spellings cursor = (.ok (some token), after)) :
    ∃ first following, (skipSpace cursor).rest = first :: following ∧
      readToken grammar spellings (skipSpace cursor) first following = (.ok token, after) := by
  unfold next at read
  dsimp only at read
  split at read
  · cases read
  · next first following rest =>
      obtain ⟨isToken, rfl⟩ := Prod.mk.inj read
      obtain ⟨token, same, ⟨⟩⟩ := map_eq_ok_iff.mp isToken
      exact ⟨first, following, rest, Prod.ext same rfl⟩

theorem tokensFrom_eq_cons {spellings : List String} {limit : Nat} {cursor : Cursor}
    {token : Token} {tokens : List Token}
    (read : tokensFrom grammar spellings limit cursor = .ok (token :: tokens)) :
    ∃ after, next grammar spellings cursor = (.ok (some token), after) := by
  cases limit with
  | zero => cases read
  | succ limit =>
      unfold tokensFrom at read
      split at read
      · cases read
      · cases read
      · next reading =>
          obtain ⟨tokens, -, ⟨⟩⟩ := map_eq_ok_iff.mp read
          exact ⟨_, reading⟩

theorem isNumeral_of_next {spellings : List String} {cursor after : Cursor} {token : Token}
    (reads : next grammar spellings cursor = (.ok (some token), after))
    (isNumber : token.kind = .number) :
    ∃ lexeme, IsNumeral lexeme ∧ token.text = some (String.ofList lexeme) := by
  obtain ⟨first, following, -, read⟩ := next_eq_some reads
  obtain ⟨lexeme, isNumeral, -, rfl, -⟩ := readNumber_eq_ok (readNumber_of_readToken read isNumber)
  exact ⟨lexeme, isNumeral, rfl⟩

/-- What is read as one number is a numeral. -/
theorem isNumeral_of_tokenize {text : String} {position : Nat}
    (tokenized : tokenize grammar text = .ok [⟨.number, some text, position⟩]) :
    IsNumeral text.toList := by
  obtain ⟨after, reading⟩ := tokensFrom_eq_cons tokenized
  obtain ⟨lexeme, isNumeral, isText⟩ := isNumeral_of_next reading rfl
  obtain rfl := Option.some.inj isText
  rwa [String.toList_ofList]

theorem isLexeme_identifier {name : List Char} (present : name ≠ [])
    (all : ∀ character ∈ name, grammar.isIdentifierCharacter character = true)
    (starts : ∀ character ∈ name.head?, character.isDigit = false ∧ character ≠ '.')
    (separated : ∀ character, isSpace character = true →
      grammar.isIdentifierCharacter character = false) (position : Nat) :
    IsLexeme grammar name ⟨.identifier, some (String.ofList name), position⟩ := by
  cases name with
  | nil => contradiction
  | cons first following =>
      have isIdentifier := all first (.head _)
      refine isLexeme_of_readToken ?_ fun rest position spaced => ?_
      · rw [← Bool.not_eq_true]
        intro space
        rw [separated first space] at isIdentifier
        cases isIdentifier
      · have ⟨taken, left⟩ := run_append all fun character first =>
          separated character (spaced character first)
        have notNumber := starts first rfl
        rw [List.cons_append] at taken left
        simp only [readToken, notNumber, beq_eq_false_iff_ne.mpr notNumber.2, Bool.or_self,
          Bool.false_eq_true, ↓reduceIte, isIdentifier, taken, left]
        rfl

theorem isLexeme_string {quote : Char} {characters written : List Char}
    (isQuote : quote = '\x22' ∨ quote = '\x27')
    (notIdentifier : grammar.isIdentifierCharacter quote = false)
    (encodes : EncodesAll quote characters written) (position : Nat) :
    IsLexeme grammar (quote :: written ++ [quote])
      ⟨.stringLiteral, some (String.ofList characters), position⟩ := by
  have facts : isSpace quote = false ∧ quote.isDigit = false ∧ quote ≠ '.' ∧ quote ≠ '\\' := by
    rcases isQuote with rfl | rfl <;> decide
  obtain ⟨visible, notDigit, notPoint, notBackslash⟩ := facts
  rw [List.cons_append]
  refine isLexeme_of_readToken visible fun rest position _ => ?_
  have read := readString_encodedAll notBackslash encodes position rest
  simp only [readToken, notDigit, beq_eq_false_iff_ne.mpr notPoint, Bool.or_self,
    Bool.false_eq_true, ↓reduceIte, notIdentifier, Bool.or_eq_true, beq_iff_eq, isQuote]
  rw [List.append_assoc]
  exact read

/-- Parentheses and commas are tokens whatever stands behind them. -/
theorem next_punctuation {character : Char} {kind : Token.Kind}
    (isPunctuation : punctuation? character = some kind)
    (notIdentifier : grammar.isIdentifierCharacter character = false) (spellings : List String)
    (rest : List Char) (position : Nat) :
    next grammar spellings ⟨character :: rest, position⟩ =
      (.ok (some ⟨kind, none, position⟩), ⟨rest, position + byteLength [character]⟩) := by
  have facts : isSpace character = false ∧ character.isDigit = false ∧ character ≠ '.' ∧
      character ≠ '\x22' ∧ character ≠ '\x27' := by
    unfold punctuation? at isPunctuation
    split at isPunctuation
    · decide
    · decide
    · decide
    · cases isPunctuation
  obtain ⟨visible, notDigit, notPoint, notDouble, notSingle⟩ := facts
  rw [next, skipSpace_of_not_space visible]
  simp only [readToken, notDigit, beq_eq_false_iff_ne.mpr notPoint, Bool.or_self,
    Bool.false_eq_true, ↓reduceIte, notIdentifier, beq_eq_false_iff_ne.mpr notDouble,
    beq_eq_false_iff_ne.mpr notSingle, isPunctuation]
  rfl

theorem isLexeme_punctuation {character : Char} {kind : Token.Kind}
    (isPunctuation : punctuation? character = some kind)
    (notIdentifier : grammar.isIdentifierCharacter character = false) (position : Nat) :
    IsLexeme grammar [character] ⟨kind, none, position⟩ :=
  fun rest position _ => next_punctuation isPunctuation notIdentifier _ rest position

/-- The first characters that leave only the spellings of operators to try. -/
def startsOperator (grammar : Grammar) (first : Char) : Bool :=
  !isSpace first && !(first.isDigit || first == '.') && !grammar.isIdentifierCharacter first &&
    !(first == '\x22' || first == '\x27') && (punctuation? first).isNone

/-- Text that a candidate has no character of does not make it a prefix. -/
theorem isPrefixOf_append_of_notMem {candidate rest : List Char}
    (absent : ∀ character ∈ rest.head?, character ∉ candidate) (text : List Char) :
    candidate.isPrefixOf (text ++ rest) = candidate.isPrefixOf text := by
  induction candidate generalizing text with
  | nil => rfl
  | cons first candidate ih =>
      cases text with
      | cons character text =>
          have absentLater : ∀ character ∈ rest.head?, character ∉ candidate :=
            fun character isFirst member => absent character isFirst (.tail _ member)
          rw [List.cons_append, List.isPrefixOf, List.isPrefixOf, ih absentLater]
      | nil =>
          cases rest with
          | nil => rfl
          | cons character rest =>
              have differ : first ≠ character := by
                rintro rfl
                exact absent first rfl (.head _)
              simp [List.isPrefixOf, differ]

theorem isLexeme_operator {spelling : String} {first : Char} {following : List Char}
    (written : spelling.toList = first :: following) (starts : startsOperator grammar first = true)
    (noSpace : ∀ candidate ∈ grammar.spellings, ∀ character ∈ candidate.toList,
      isSpace character = false)
    (longest : grammar.spellings.find? (fun candidate =>
      candidate.toList.isPrefixOf spelling.toList) = some spelling) (position : Nat) :
    IsLexeme grammar spelling.toList ⟨.operator, some spelling, position⟩ := by
  simp only [startsOperator, Bool.and_eq_true, Bool.not_eq_true', Option.isNone_iff_eq_none]
    at starts
  obtain ⟨⟨⟨⟨visible, notNumber⟩, notIdentifier⟩, notQuote⟩, notPunctuation⟩ := starts
  rw [written]
  refine isLexeme_of_readToken visible fun rest position spaced => ?_
  have found : grammar.spellings.find? (fun candidate =>
      candidate.toList.isPrefixOf (first :: (following ++ rest))) = some spelling := by
    rw [← longest]
    refine List.find?_congr fun candidate member => ?_
    rw [written]
    refine isPrefixOf_append_of_notMem (fun character isFirst spelled => ?_) (first :: following)
    have space := spaced character isFirst
    rw [noSpace candidate member character spelled] at space
    cases space
  simp only [readToken, notNumber, notIdentifier, notQuote, notPunctuation, found,
    Bool.false_eq_true, ↓reduceIte]
  rw [written]
  simp [Cursor.past]

/-! ## The standard grammar -/

def identifierText : String :=
  "$0123456789ABCDEFGHIJKLMNOPQRSTUVWXYZ_abcdefghijklmnopqrstuvwxyz"

theorem isIdentifierCharacter_standard_iff {character : Char} :
    Grammar.standard.isIdentifierCharacter character = true ↔
      character ∈ identifierText.toList := by
  unfold Grammar.isIdentifierCharacter SortedSet.contains
  rw [List.elem_iff]
  exact SortedSet.mem_toList_ofList

theorem isIdentifierCharacter_standard_eq_false {character : Char}
    (absent : identifierText.toList.elem character = false) :
    Grammar.standard.isIdentifierCharacter character = false := by
  rw [← Bool.not_eq_true, isIdentifierCharacter_standard_iff, ← List.elem_iff, absent]
  exact Bool.false_ne_true

theorem spellings_standard :
    Grammar.standard.spellings =
      ["!=", "&&", "**", "<<", "<=", "<>", "==", ">=", ">>", "||", "!", "%", "&", "*", "+", "-",
        "/", "<", "=", ">", "\\", "^", "|"] := by
  decide

theorem not_isIdentifierCharacter_of_isSpace {character : Char}
    (space : isSpace character = true) :
    Grammar.standard.isIdentifierCharacter character = false := by
  apply isIdentifierCharacter_standard_eq_false
  rcases isSpace_eq_true_iff.mp space with rfl | rfl | rfl | rfl | rfl <;> rfl

theorem isLexeme_spelling {spelling : String} (member : spelling ∈ Grammar.standard.spellings)
    (position : Nat) :
    IsLexeme .standard spelling.toList ⟨.operator, some spelling, position⟩ := by
  have starts : Grammar.standard.spellings.all (fun spelling =>
      spelling.toList.head?.any (startsOperator .standard)) = true := by
    rw [spellings_standard]
    decide
  have noSpace : Grammar.standard.spellings.all (fun candidate =>
      candidate.toList.all fun character => !isSpace character) = true := by
    rw [spellings_standard]
    decide
  have longest : ∀ spelling ∈ Grammar.standard.spellings,
      Grammar.standard.spellings.find? (fun candidate =>
        candidate.toList.isPrefixOf spelling.toList) = some spelling := by
    rw [spellings_standard]
    decide
  obtain ⟨first, isFirst, isStart⟩ :=
    (Option.any_eq_true _ _).mp (List.all_eq_true.mp starts spelling member)
  obtain ⟨following, written⟩ := List.head?_eq_some_iff.mp isFirst
  refine isLexeme_operator written isStart ?_ (longest spelling member) position
  intro candidate isCandidate character isCharacter
  have visible := List.all_eq_true.mp (List.all_eq_true.mp noSpace candidate isCandidate)
  simpa using visible character isCharacter

end Formula.Lexer
