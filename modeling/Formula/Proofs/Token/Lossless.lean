import Formula.Proofs.Token.Spelling

/-!
# Nothing of a text is lost

Each call of the lexer moves its cursor over whole characters, also where it fails.  In a valid
grammar every token takes at least one character, so reading comes to an end.  A text that is read
to its end is its tokens with spaces between them: each token is written by the characters it was
read off, an operator by the longest spelling that stands there.
-/

namespace Formula

theorem Text.utf8ByteSize_ofList (text : List Char) :
    (String.ofList text).utf8ByteSize = byteLength text := by
  induction text with
  | nil => rfl
  | cons character text ih =>
      rw [← List.singleton_append, String.ofList_append, String.utf8ByteSize_append, ih,
        ← String.singleton_eq_ofList, String.utf8ByteSize_singleton]
      rfl

theorem Text.byteLength_pos {text : List Char} (present : text ≠ []) : 0 < byteLength text := by
  cases text with
  | nil => contradiction
  | cons character text => exact Nat.add_pos_left character.utf8Size_pos _

namespace Lexer

open Text (byteLength byteLength_append)

variable {grammar : Grammar} {spellings : List String}

/-! ## Cursors -/

/-- A cursor that stands at the same place of the same text or further behind. -/
def Advances (before after : Cursor) : Prop :=
  ∃ passed, before.rest = passed ++ after.rest ∧
    after.position = before.position + byteLength passed

namespace Advances

theorem refl (cursor : Cursor) : Advances cursor cursor :=
  ⟨[], rfl, rfl⟩

theorem trans {first second third : Cursor} (advances : Advances first second)
    (advances' : Advances second third) : Advances first third := by
  obtain ⟨passed, same, ended⟩ := advances
  obtain ⟨passed', same', ended'⟩ := advances'
  refine ⟨passed ++ passed', ?_, ?_⟩
  · rw [same, same', List.append_assoc]
  · rw [ended', ended, byteLength_append, Nat.add_assoc]

theorem past {cursor : Cursor} {passed rest : List Char} (parts : passed ++ rest = cursor.rest) :
    Advances cursor (cursor.past passed rest) :=
  ⟨passed, parts.symm, rfl⟩

theorem position_le {before after : Cursor} (advances : Advances before after) :
    before.position ≤ after.position := by
  obtain ⟨passed, -, ended⟩ := advances
  omega

end Advances

theorem advances_skipSpace (cursor : Cursor) : Advances cursor (skipSpace cursor) :=
  .past List.takeWhile_append_dropWhile

theorem advances_readNumber (cursor : Cursor) : Advances cursor (readNumber cursor).2 := by
  have whole := splitMantissa_append false cursor.rest
  unfold readNumber
  generalize splitMantissa false cursor.rest = parts at whole ⊢
  obtain ⟨mantissa, rest⟩ := parts
  dsimp only at whole ⊢
  split
  · split
    · next afterMark =>
        have signed := splitSign_append afterMark
        generalize splitSign afterMark = parts at signed ⊢
        obtain ⟨sign, afterSign⟩ := parts
        have parts : mantissa ++ 'e' :: sign ++ afterSign.takeWhile Char.isDigit ++
            afterSign.dropWhile Char.isDigit = cursor.rest := by
          rw [← whole, ← signed]
          simp [List.takeWhile_append_dropWhile]
        split
        · exact .past parts
        · exact .past parts
    · exact .past whole
  · exact .past whole

theorem Advances.prepend (passed : List Char) {rest : List Char} {position after : Nat}
    {reading : StringReading} (advances : Advances ⟨rest, after⟩ reading.2)
    (ended : after = position + byteLength passed) (character : Char) :
    Advances ⟨passed ++ rest, position⟩ (prepend character reading).2 :=
  Advances.trans ⟨passed, rfl, ended⟩ advances

theorem advances_readContents (quote : Char) (start position : Nat) (text : List Char) :
    Advances ⟨text, position⟩ (readContents quote start position text).2 := by
  have oneByte : byteLength ['\\'] = 1 ∧ byteLength ['\\', 'x'] = 2 ∧
      byteLength ['\\', 'u'] = 2 := ⟨rfl, rfl, rfl⟩
  fun_induction readContents quote start position text with
  | case1 position => exact .refl _
  | case2 position rest => exact ⟨[quote], rfl, rfl⟩
  | case3 position character rest notQuote notBackslash ih =>
      exact ih.prepend [character] rfl character
  | case4 position backslash notQuote isBackslash =>
      obtain rfl := of_not_not isBackslash
      exact ⟨['\\'], rfl, rfl⟩
  | case5 position backslash notQuote isBackslash first second rest character named ih =>
      obtain rfl := of_not_not isBackslash
      refine ih.prepend ['\\', 'x', first, second] ?_ character
      rw [byteLength_byteEscape named]
  | case6 position backslash notQuote isBackslash first second rest fault named =>
      obtain rfl := of_not_not isBackslash
      exact ⟨['\\', 'x'], rfl, rfl⟩
  | case7 position backslash notQuote isBackslash rest =>
      obtain rfl := of_not_not isBackslash
      exact ⟨['\\', 'x'], rfl, rfl⟩
  | case8 position backslash notQuote isBackslash first second third fourth rest character named
      ih =>
      obtain rfl := of_not_not isBackslash
      refine ih.prepend ['\\', 'u', first, second, third, fourth] ?_ character
      rw [byteLength_unitEscape named]
  | case9 position backslash notQuote isBackslash first second third fourth rest fault named =>
      obtain rfl := of_not_not isBackslash
      exact ⟨['\\', 'u'], rfl, rfl⟩
  | case10 position backslash notQuote isBackslash rest =>
      obtain rfl := of_not_not isBackslash
      exact ⟨['\\', 'u'], rfl, rfl⟩
  | case11 position backslash notQuote isBackslash letter rest _ notByte _ notUnit ih =>
      obtain rfl := of_not_not isBackslash
      exact ih.prepend ['\\', letter] (Nat.add_assoc _ _ _) (escaped letter)

theorem advances_readString (quote : Char) (start : Nat) (contents : List Char) :
    Advances ⟨quote :: contents, start⟩ (readString quote start contents).2 :=
  Advances.trans ⟨[quote], rfl, rfl⟩ (advances_readContents quote start _ contents)

theorem advances_readToken {first : Char} {following : List Char} (position : Nat) :
    Advances ⟨first :: following, position⟩
      (readToken grammar spellings ⟨first :: following, position⟩ first following).2 := by
  unfold readToken
  dsimp only
  split
  · exact advances_readNumber _
  · split
    · exact .past List.takeWhile_append_dropWhile
    · split
      · exact advances_readString first position following
      · split
        · exact ⟨[first], rfl, rfl⟩
        · split
          · next spelling found =>
              obtain ⟨rest, same⟩ := prefix_of_find? found
              refine .past ?_
              rw [← same, List.drop_left]
          · exact .refl _

theorem advances_next (cursor : Cursor) : Advances cursor (next grammar spellings cursor).2 := by
  refine (advances_skipSpace cursor).trans ?_
  unfold next
  generalize skipSpace cursor = start
  obtain ⟨rest, position⟩ := start
  cases rest with
  | nil => exact .refl _
  | cons first following => exact advances_readToken position

/-- A cursor of a text stands on a boundary between two of its characters, or at one of its ends. -/
theorem isValid_of_advances {text : String} {cursor : Cursor}
    (advances : Advances (.ofText text) cursor) :
    (String.Pos.Raw.mk cursor.position).IsValid text := by
  obtain ⟨passed, same, ended⟩ := advances
  rw [String.Pos.Raw.isValid_iff_exists_append]
  refine ⟨String.ofList passed, String.ofList cursor.rest, ?_, ?_⟩
  · rw [← String.ofList_append, ← same, Cursor.ofText, String.ofList_toList]
  · apply String.Pos.Raw.ext
    rw [String.byteIdx_rawEndPos, Text.utf8ByteSize_ofList]
    exact ended.trans (Nat.zero_add _)

/-- The cursor after a number of calls, whatever they come to. -/
def cursorAfter (grammar : Grammar) (spellings : List String) : (calls : Nat) → Cursor → Cursor
  | 0, cursor => cursor
  | calls + 1, cursor => cursorAfter grammar spellings calls (next grammar spellings cursor).2

theorem cursorAfter_add (calls more : Nat) (cursor : Cursor) :
    cursorAfter grammar spellings (calls + more) cursor =
      cursorAfter grammar spellings more (cursorAfter grammar spellings calls cursor) := by
  induction calls generalizing cursor with
  | zero => rw [Nat.zero_add, cursorAfter]
  | succ calls ih => rw [Nat.succ_add, cursorAfter, cursorAfter, ih]

theorem advances_cursorAfter (calls : Nat) (cursor : Cursor) :
    Advances cursor (cursorAfter grammar spellings calls cursor) := by
  induction calls generalizing cursor with
  | zero => exact .refl cursor
  | succ calls ih => exact (advances_next cursor).trans (ih _)

/-! ## The end of reading -/

/-- Reading token after token from the cursor comes to an end with the outcome. -/
inductive Finishes (grammar : Grammar) : Cursor → Except Error (List Token) → Prop
  | done {cursor after : Cursor}
      (blank : next grammar grammar.spellings cursor = (.ok none, after)) :
      Finishes grammar cursor (.ok [])
  | failed {cursor after : Cursor} {error : Error}
      (fails : next grammar grammar.spellings cursor = (.error error, after)) :
      Finishes grammar cursor (.error error)
  | token {cursor after : Cursor} {token : Token} {outcome : Except Error (List Token)}
      (read : next grammar grammar.spellings cursor = (.ok (some token), after))
      (rest : Finishes grammar after outcome) :
      Finishes grammar cursor (outcome.map (token :: ·))

theorem Finishes.unique {cursor : Cursor} {outcome outcome' : Except Error (List Token)}
    (finishes : Finishes grammar cursor outcome) (finishes' : Finishes grammar cursor outcome') :
    outcome = outcome' := by
  induction finishes generalizing outcome' with
  | done blank => cases finishes' <;> simp_all
  | failed fails => cases finishes' <;> simp_all
  | token read _ ih =>
      cases finishes' with
      | done blank => simp_all
      | failed fails => simp_all
      | token read' rest' =>
          rw [read] at read'
          cases read'
          rw [ih rest']

/-- Every token takes a character at least, so the limit above the number of characters is never
met. -/
theorem finishes_tokensFrom (valid : grammar.validate = .ok ()) {limit : Nat} {cursor : Cursor}
    (enough : cursor.rest.length < limit) :
    Finishes grammar cursor (tokensFrom grammar grammar.spellings limit cursor) := by
  induction limit generalizing cursor with
  | zero => omega
  | succ limit ih =>
      unfold tokensFrom
      split
      · next fails => exact .failed fails
      · next blank => exact .done blank
      · next reading =>
          have shorter := (passes_of_next valid reading).length_lt
          exact .token reading (ih (by omega))

theorem finishes_iff (valid : grammar.validate = .ok ()) (text : String)
    {outcome : Except Error (List Token)} :
    Finishes grammar (.ofText text) outcome ↔ tokenize grammar text = outcome := by
  have finishes : Finishes grammar (.ofText text) (tokenize grammar text) :=
    finishes_tokensFrom valid (by simp only [Cursor.ofText, String.length_toList]; omega)
  constructor
  · exact finishes.unique
  · rintro rfl
    exact finishes

/-! ## Lexemes -/

/-- The characters that may stand in front of a token and at the end. -/
def IsGap (gap : List Char) : Prop :=
  ∀ character ∈ gap, character ∈ [' ', '\t', '\r', '\n', '\x0c']

theorem isGap_of_isSpace {text : List Char}
    (all : ∀ character ∈ text, isSpace character = true) : IsGap text := by
  intro character member
  simpa using isSpace_eq_true_iff.mp (all character member)

/-- The text, which starts at a byte offset, is cut into the lexemes of the tokens, with a gap in
front of each and one at the end.  A lexeme reaches from the position of its token to `stop`. -/
inductive Cut (grammar : Grammar) : (start : Nat) → List Char → List Token → Prop
  | done {start : Nat} {gap : List Char} (blank : IsGap gap) : Cut grammar start gap []
  | token {start stop : Nat} {gap lexeme rest : List Char} {token : Token} {tokens : List Token}
      (blank : IsGap gap) (starts : token.position = start + byteLength gap)
      (ends : stop = token.position + byteLength lexeme) (advances : token.position < stop)
      (spells : Spells grammar token.position lexeme rest token)
      (cut : Cut grammar stop rest tokens) :
      Cut grammar start (gap ++ lexeme ++ rest) (token :: tokens)

theorem Reads.cut (valid : grammar.validate = .ok ()) {cursor : Cursor} {tokens : List Token}
    (reads : Reads grammar cursor tokens) : Cut grammar cursor.position cursor.rest tokens := by
  induction reads with
  | done blank => exact .done (isGap_of_isSpace (isSpace_of_next_eq_none blank))
  | @token cursor after token tokens read _ ih =>
      obtain ⟨first, following, visible, read⟩ := next_eq_some read
      have start : skipSpace cursor = ⟨first :: following, (skipSpace cursor).position⟩ := by
        rw [← visible]
      rw [start] at read
      obtain ⟨lexeme, present, same, ended, spells⟩ := spells_of_readToken valid read
      have whole : cursor.rest = cursor.rest.takeWhile isSpace ++ lexeme ++ after.rest := by
        have left : cursor.rest.dropWhile isSpace = first :: following := visible
        rw [List.append_assoc, ← same, ← left, List.takeWhile_append_dropWhile]
      have starts := spells.position_eq
      have spaces : IsGap (cursor.rest.takeWhile isSpace) :=
        isGap_of_isSpace fun character member => List.mem_takeWhile_imp member
      have positive := Text.byteLength_pos present
      rw [← starts] at ended spells
      rw [whole]
      exact .token spaces starts ended (by omega) spells ih

/-! ## Whole texts -/

/-- Reading a text under a valid grammar always ends, and what is read to the end is cut into the
lexemes of its tokens.  However often the lexer is called, its position lies on a boundary between
characters and never goes back. -/
theorem tokenize_lossless (valid : grammar.validate = .ok ()) (text : String) :
    (∀ outcome, Finishes grammar (.ofText text) outcome ↔ tokenize grammar text = outcome) ∧
    (∀ tokens, tokenize grammar text = .ok tokens → Cut grammar 0 text.toList tokens) ∧
    ∀ calls, let cursor := cursorAfter grammar grammar.spellings calls (.ofText text)
      (∃ passed, text.toList = passed ++ cursor.rest ∧ cursor.position = byteLength passed) ∧
      cursor.position ≤ text.utf8ByteSize ∧ (String.Pos.Raw.mk cursor.position).IsValid text ∧
      ∀ more, cursor.position ≤
        (cursorAfter grammar grammar.spellings (calls + more) (.ofText text)).position := by
  refine ⟨fun outcome => finishes_iff valid text, fun tokens tokenized => ?_, fun calls => ?_⟩
  · exact ((tokenize_eq_ok_iff valid).mp tokenized).cut valid
  · have advances : Advances (.ofText text)
        (cursorAfter grammar grammar.spellings calls (.ofText text)) := advances_cursorAfter _ _
    have onBoundary := isValid_of_advances advances
    obtain ⟨passed, same, ended⟩ := advances
    have start : (Cursor.ofText text).position = 0 := rfl
    rw [start, Nat.zero_add] at ended
    refine ⟨⟨passed, same, ended⟩, onBoundary.le_utf8ByteSize, onBoundary, fun more => ?_⟩
    rw [cursorAfter_add]
    exact (advances_cursorAfter more _).position_le

/-- The longer of two spellings that begin alike, behind a string with a character of two bytes. -/
theorem tokenize_lossless_of_comparison :
    Grammar.standard.validate = .ok () ∧
      Cut .standard 0 "'é' >=x<<2.\t".toList
        [⟨.stringLiteral, some "é", 0⟩, ⟨.operator, some ">=", 5⟩, ⟨.identifier, some "x", 7⟩,
          ⟨.operator, some "<<", 8⟩, ⟨.number, some "2.", 10⟩] :=
  ⟨Grammar.validate_standard,
    (tokenize_lossless Grammar.validate_standard _).2.1 _ (by decide +kernel)⟩

end Lexer

end Formula
