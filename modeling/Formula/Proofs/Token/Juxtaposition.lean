import Formula.Proofs.Grammar.Spellings
import Formula.Proofs.Token.Lexeme

/-!
# One text behind another

A text is read the same way wherever it starts and whatever follows it, as long as what follows
starts with a character that can belong to none of its last tokens.  So the tokens of two texts put
together are the tokens of both.
-/

namespace Formula

namespace Lexer

open Text (byteLength byteLength_append)

variable {grammar : Grammar}

/-! ## What follows a text -/

/-- A character that no number, name or operator in front of it can take in. -/
structure Separates (grammar : Grammar) (character : Char) : Prop where
  notMantissa : character.isDigit = false ∧ character ≠ '.'
  notExponent : character ≠ 'e'
  notName : grammar.isIdentifierCharacter character = false
  notSpelled : ∀ spelling ∈ grammar.spellings, character ∉ spelling.toList

def StartsApart (grammar : Grammar) (tail : List Char) : Prop :=
  ∀ character ∈ tail.head?, Separates grammar character

theorem separates_of_isReserved (valid : grammar.validate = .ok ()) {character : Char}
    (reserved : Grammar.isReserved character = true)
    (notMantissa : character.isDigit = false ∧ character ≠ '.') (notExponent : character ≠ 'e')
    (notName : grammar.isIdentifierCharacter character = false) :
    Separates grammar character where
  notMantissa := notMantissa
  notExponent := notExponent
  notName := notName
  notSpelled spelling member spelled := by
    rw [Grammar.not_isReserved valid member spelled] at reserved
    cases reserved

theorem run_append_apart {wanted : Char → Bool} {tail : List Char}
    (stops : ∀ character ∈ tail.head?, wanted character = false) (text : List Char) :
    (text ++ tail).takeWhile wanted = text.takeWhile wanted ∧
      (text ++ tail).dropWhile wanted = text.dropWhile wanted ++ tail := by
  induction text with
  | nil => exact run_append (by simp) stops
  | cons character text ih =>
      rw [List.cons_append]
      cases isWanted : wanted character with
      | false => simp [isWanted]
      | true => simp [isWanted, ih]

/-! ## Numbers -/

theorem splitMantissa_append_apart {tail : List Char} (stops : StopsMantissa tail)
    (sawPoint : Bool) (text : List Char) :
    splitMantissa sawPoint (text ++ tail) =
      ((splitMantissa sawPoint text).1, (splitMantissa sawPoint text).2 ++ tail) := by
  induction text generalizing sawPoint with
  | nil => exact splitMantissa_of_stops stops sawPoint
  | cons character text ih =>
      rw [List.cons_append]
      unfold splitMantissa
      split
      · rw [ih]
      · rfl

theorem readNumber_append_apart {text tail : List Char} {position : Nat} {token : Token}
    {after : Cursor} (read : readNumber ⟨text, position⟩ = (.ok token, after))
    (apart : StartsApart grammar tail) (shift : Nat) :
    readNumber ⟨text ++ tail, position + shift⟩ =
      (.ok (token.relocate (· + shift)), ⟨after.rest ++ tail, after.position + shift⟩) := by
  have stops : StopsMantissa tail := fun character first => (apart character first).notMantissa
  have digitsStop : ∀ character ∈ tail.head?, character.isDigit = false :=
    fun character first => (apart character first).notMantissa.1
  have moved (lexeme : List Char) : position + shift + byteLength lexeme =
      position + byteLength lexeme + shift := Nat.add_right_comm _ _ _
  simp only [readNumber, splitMantissa_append_apart stops] at read ⊢
  generalize splitMantissa false text = parts at read ⊢
  obtain ⟨mantissa, rest⟩ := parts
  dsimp only at read ⊢
  split at read
  · next some =>
      simp only [some, ↓reduceIte]
      split at read
      · next afterMark =>
          split at read
          · simp [fail] at read
          · next present =>
              -- There are digits behind the mark, so it is not the tail that the sign is read off.
              have signed : splitSign (afterMark ++ tail) =
                  ((splitSign afterMark).1, (splitSign afterMark).2 ++ tail) := by
                cases afterMark with
                | nil => simp [splitSign] at present
                | cons sign digits =>
                    rw [List.cons_append]
                    unfold splitSign
                    split <;> simp_all
              have digits := run_append_apart digitsStop (splitSign afterMark).2
              cases read
              simp [signed, digits, present, Cursor.past, moved, Token.relocate]
      · next notMark =>
          cases read
          have notExponent : ∀ afterMark, rest ++ tail ≠ 'e' :: afterMark := by
            intro afterMark same
            cases rest with
            | cons first rest =>
                cases same
                exact notMark rest rfl
            | nil =>
                rw [List.nil_append] at same
                exact (apart 'e' (by simp [same])).notExponent rfl
          split
          · next same => exact absurd same (notExponent _)
          · simp [Cursor.past, moved, Token.relocate]
  · simp [fail] at read

/-! ## Tokens -/

variable {position : Nat} {token : Token} {after : Cursor} {first : Char} {following : List Char}

theorem prefix_of_find? {spellings : List String} {text : List Char} {spelling : String}
    (found : spellings.find? (fun spelling => spelling.toList.isPrefixOf text) = some spelling) :
    ∃ rest, spelling.toList ++ rest = text := by
  have isPrefix := List.find?_some found
  exact List.isPrefixOf_iff_prefix.mp isPrefix

theorem readToken_append_apart {tail : List Char}
    (read : readToken grammar grammar.spellings ⟨first :: following, position⟩ first following =
      (.ok token, after)) (apart : StartsApart grammar tail) (shift : Nat) :
    readToken grammar grammar.spellings ⟨first :: (following ++ tail), position + shift⟩ first
        (following ++ tail) =
      (.ok (token.relocate (· + shift)), ⟨after.rest ++ tail, after.position + shift⟩) := by
  have moved (lexeme : List Char) : position + shift + byteLength lexeme =
      position + byteLength lexeme + shift := Nat.add_right_comm _ _ _
  unfold readToken at read ⊢
  dsimp only at read ⊢
  split at read
  · next number =>
      rw [if_pos number]
      exact readNumber_append_apart read apart shift
  · next notNumber =>
      rw [if_neg notNumber]
      split at read
      · next isName =>
          have ⟨name, rest⟩ := run_append_apart
            (fun character isFirst => (apart character isFirst).notName) (first :: following)
          rw [List.cons_append] at name rest
          rw [if_pos isName, name, rest]
          cases read
          simp [Cursor.past, moved, Token.relocate]
      · next notName =>
          rw [if_neg notName]
          split at read
          · next isQuote =>
              have notBackslash : first ≠ '\\' := by
                rintro rfl
                simp at isQuote
              obtain ⟨characters, written, encodes, rfl, rfl, ended⟩ := readString_eq_ok read
              rw [if_pos isQuote, List.append_assoc, List.cons_append,
                readString_encodedAll notBackslash encodes, ended, moved]
              rfl
          · next notQuote =>
              rw [if_neg notQuote]
              split at read
              · next kind isPunctuation =>
                  cases read
                  simp [Cursor.past, moved, Token.relocate]
              · next notPunctuation =>
                  have sameFound : grammar.spellings.find? (fun spelling =>
                      spelling.toList.isPrefixOf (first :: (following ++ tail))) =
                        grammar.spellings.find? (fun spelling =>
                          spelling.toList.isPrefixOf (first :: following)) :=
                    List.find?_congr fun spelling member => isPrefixOf_append_of_notMem
                      (fun character isFirst =>
                        (apart character isFirst).notSpelled spelling member)
                      (first :: following)
                  rw [sameFound]
                  split at read
                  · next spelling found =>
                      obtain ⟨rest, same⟩ := prefix_of_find? found
                      rw [← List.cons_append, ← same, List.append_assoc, List.drop_left]
                      rw [← same, List.drop_left] at read
                      cases read
                      simp [Cursor.past, moved, Token.relocate]
                  · cases read

/-- The characters that a token at a position is read off, in front of the rest of the text. -/
inductive Spells (grammar : Grammar) (position : Nat) : (lexeme rest : List Char) → Token → Prop
  | number {lexeme rest : List Char} (isNumeral : IsNumeral lexeme) :
      Spells grammar position lexeme rest ⟨.number, some (String.ofList lexeme), position⟩
  | identifier {lexeme rest : List Char}
      (all : ∀ character ∈ lexeme, grammar.isIdentifierCharacter character = true)
      (stops : ∀ character ∈ rest.head?, grammar.isIdentifierCharacter character = false) :
      Spells grammar position lexeme rest ⟨.identifier, some (String.ofList lexeme), position⟩
  | string {quote : Char} {characters written rest : List Char}
      (isQuote : quote = '\x22' ∨ quote = '\x27') (encodes : EncodesAll quote characters written) :
      Spells grammar position (quote :: written ++ [quote]) rest
        ⟨.stringLiteral, some (String.ofList characters), position⟩
  | punctuation {character : Char} {kind : Token.Kind} {rest : List Char}
      (isPunctuation : punctuation? character = some kind) :
      Spells grammar position [character] rest ⟨kind, none, position⟩
  | operator {spelling : String} {rest : List Char} (member : spelling ∈ grammar.tiers.flatten)
      (longest : ∀ other ∈ grammar.tiers.flatten, other.toList <+: spelling.toList ++ rest →
        other.utf8ByteSize ≤ spelling.utf8ByteSize) :
      Spells grammar position spelling.toList rest ⟨.operator, some spelling, position⟩

theorem Spells.position_eq {position : Nat} {lexeme rest : List Char} {token : Token}
    (spells : Spells grammar position lexeme rest token) : token.position = position := by
  cases spells with
  | number | identifier | string | punctuation | operator => rfl

theorem spells_of_readToken (valid : grammar.validate = .ok ())
    (read : readToken grammar grammar.spellings ⟨first :: following, position⟩ first following =
      (.ok token, after)) :
    ∃ lexeme, lexeme ≠ [] ∧ first :: following = lexeme ++ after.rest ∧
      after.position = position + byteLength lexeme ∧
        Spells grammar position lexeme after.rest token := by
  unfold readToken at read
  dsimp only at read
  split at read
  · obtain ⟨lexeme, isNumeral, same, rfl, ended⟩ := readNumber_eq_ok read
    obtain ⟨_, _, rfl, -⟩ := isNumeral.first
    exact ⟨_, by simp, same, ended, .number isNumeral⟩
  · split at read
    · next isName =>
        cases read
        refine ⟨_, by simp [isName], List.takeWhile_append_dropWhile.symm, rfl, .identifier ?_ ?_⟩
        · exact fun character member => List.mem_takeWhile_imp member
        · intro character isFirst
          have stopped := List.head?_dropWhile_not grammar.isIdentifierCharacter
            (first :: following)
          simp only [Cursor.past, Option.mem_def] at isFirst
          rwa [isFirst] at stopped
    · split at read
      · next isQuote =>
          obtain ⟨characters, written, encodes, rfl, rfl, ended⟩ := readString_eq_ok read
          exact ⟨first :: written ++ [first], by simp, by simp, ended,
            .string (by simpa using isQuote) encodes⟩
      · split at read
        · next isPunctuation =>
            cases read
            exact ⟨[first], by simp, rfl, rfl, .punctuation isPunctuation⟩
        · split at read
          · next spelling found =>
              obtain ⟨rest, same⟩ := prefix_of_find? found
              rw [← same, List.drop_left] at read
              cases read
              have member := List.mem_of_find?_eq_some found
              refine ⟨spelling.toList, Grammar.toList_ne_nil valid member, same.symm, rfl,
                .operator (Grammar.mem_spellings.mp member) fun other isOther starts => ?_⟩
              refine Grammar.utf8ByteSize_le_of_find? found (Grammar.mem_spellings.mpr isOther) ?_
              rw [← same]
              exact List.isPrefixOf_iff_prefix.mpr starts
          · cases read

/-- A cursor that stands behind at least one more character of the same text. -/
def Passes (before after : Cursor) : Prop :=
  ∃ passed, passed ≠ [] ∧ before.rest = passed ++ after.rest ∧
    after.position = before.position + byteLength passed

theorem passes_of_readToken (valid : grammar.validate = .ok ())
    (read : readToken grammar grammar.spellings ⟨first :: following, position⟩ first following =
      (.ok token, after)) : Passes ⟨first :: following, position⟩ after := by
  obtain ⟨lexeme, present, same, ended, -⟩ := spells_of_readToken valid read
  exact ⟨lexeme, present, same, ended⟩

/-! ## The next token -/

/-- A run that stops inside a text does not reach what follows the text. -/
theorem run_append_of_stopped {wanted : Char → Bool} {text : List Char}
    (stopped : text.dropWhile wanted = first :: following) (tail : List Char) :
    (text ++ tail).takeWhile wanted = text.takeWhile wanted ∧
      (text ++ tail).dropWhile wanted = first :: (following ++ tail) := by
  induction text with
  | nil => cases stopped
  | cons character text ih =>
      rw [List.cons_append]
      cases isWanted : wanted character with
      | false =>
          rw [List.dropWhile_cons_of_neg (by simp [isWanted])] at stopped
          cases stopped
          simp [isWanted]
      | true =>
          rw [List.dropWhile_cons_of_pos isWanted] at stopped
          simp [isWanted, ih stopped]

theorem skipSpace_append {text : List Char}
    (visible : (skipSpace ⟨text, position⟩).rest = first :: following) (tail : List Char)
    (shift : Nat) :
    skipSpace ⟨text ++ tail, position + shift⟩ =
      ⟨first :: (following ++ tail), (skipSpace ⟨text, position⟩).position + shift⟩ := by
  have ⟨spaces, rest⟩ := run_append_of_stopped visible tail
  simp only [skipSpace, Cursor.past, spaces, rest, Cursor.mk.injEq, true_and]
  omega

theorem next_append_apart {text tail : List Char}
    (reads : next grammar grammar.spellings ⟨text, position⟩ = (.ok (some token), after))
    (apart : StartsApart grammar tail) (shift : Nat) :
    next grammar grammar.spellings ⟨text ++ tail, position + shift⟩ =
      (.ok (some (token.relocate (· + shift))), ⟨after.rest ++ tail, after.position + shift⟩) := by
  obtain ⟨first, following, visible, read⟩ := next_eq_some reads
  have start : skipSpace ⟨text, position⟩ =
      ⟨first :: following, (skipSpace ⟨text, position⟩).position⟩ := by
    rw [← visible]
  rw [start] at read
  unfold next
  rw [skipSpace_append visible]
  simp only [readToken_append_apart read apart]
  rfl

theorem passes_of_next (valid : grammar.validate = .ok ()) {before : Cursor}
    (reads : next grammar grammar.spellings before = (.ok (some token), after)) :
    Passes before after := by
  obtain ⟨first, following, visible, read⟩ := next_eq_some reads
  have start : skipSpace before = ⟨first :: following, (skipSpace before).position⟩ := by
    rw [← visible]
  rw [start] at read
  obtain ⟨passed, present, same, ended⟩ := passes_of_readToken valid read
  refine ⟨before.rest.takeWhile isSpace ++ passed, by simp [present], ?_, ?_⟩
  · have whole : before.rest.takeWhile isSpace ++ before.rest.dropWhile isSpace = before.rest :=
      List.takeWhile_append_dropWhile
    have left : before.rest.dropWhile isSpace = first :: following := visible
    rw [List.append_assoc, ← same, ← left, whole]
  · rw [ended, byteLength_append, ← Nat.add_assoc]
    rfl

/-- Where there is no further token there are only spaces. -/
theorem isSpace_of_next_eq_none {cursor : Cursor}
    (blank : next grammar grammar.spellings cursor = (.ok none, after)) :
    ∀ character ∈ cursor.rest, isSpace character = true := by
  have allSpaces : cursor.rest.dropWhile isSpace = [] := by
    unfold next at blank
    dsimp only at blank
    split at blank
    · next empty => exact empty
    · obtain ⟨isToken, -⟩ := Prod.mk.inj blank
      obtain ⟨_, -, ⟨⟩⟩ := map_eq_ok_iff.mp isToken
  exact List.dropWhile_eq_nil_iff.mp allSpaces

/-- Spaces at the end of a text are followed by the next token behind it. -/
theorem next_append_of_blank {text tail : List Char} {after : Cursor}
    (blank : next grammar grammar.spellings ⟨text, position⟩ = (.ok none, after)) (shift : Nat) :
    next grammar grammar.spellings ⟨text ++ tail, position + shift⟩ =
      next grammar grammar.spellings ⟨tail, position + byteLength text + shift⟩ := by
  have all : ∀ character ∈ text, isSpace character = true := isSpace_of_next_eq_none blank
  have skipped : skipSpace ⟨text ++ tail, position + shift⟩ =
      skipSpace ⟨tail, position + byteLength text + shift⟩ := by
    simp only [skipSpace, Cursor.past, List.takeWhile_append_of_pos all,
      List.dropWhile_append_of_pos all, byteLength_append, Cursor.mk.injEq, true_and]
    omega
  simp only [next, skipped]

/-! ## All tokens -/

/-- Reading on from the cursor gives the tokens and comes to the end of the text. -/
inductive Reads (grammar : Grammar) : Cursor → List Token → Prop
  | done {cursor after : Cursor}
      (blank : next grammar grammar.spellings cursor = (.ok none, after)) : Reads grammar cursor []
  | token {cursor after : Cursor} {token : Token} {tokens : List Token}
      (read : next grammar grammar.spellings cursor = (.ok (some token), after))
      (rest : Reads grammar after tokens) : Reads grammar cursor (token :: tokens)

theorem Passes.length_lt {before after : Cursor} (passes : Passes before after) :
    after.rest.length < before.rest.length := by
  obtain ⟨passed, present, same, -⟩ := passes
  have := List.length_pos_iff.mpr present
  rw [same, List.length_append]
  omega

theorem Passes.sameEnd {before after : Cursor} (passes : Passes before after) :
    after.position + byteLength after.rest = before.position + byteLength before.rest := by
  obtain ⟨passed, -, same, ended⟩ := passes
  rw [same, byteLength_append, ended, Nat.add_assoc]

/-- A limit above the number of characters is never met. -/
theorem tokensFrom_eq_ok_iff (valid : grammar.validate = .ok ()) {limit : Nat} {cursor : Cursor}
    (enough : cursor.rest.length < limit) {tokens : List Token} :
    tokensFrom grammar grammar.spellings limit cursor = .ok tokens ↔
      Reads grammar cursor tokens := by
  induction limit generalizing cursor tokens with
  | zero => omega
  | succ limit ih =>
      unfold tokensFrom
      constructor
      · intro read
        split at read
        · cases read
        · next blank =>
            cases read
            exact .done blank
        · next reading =>
            obtain ⟨tokens, rest, rfl⟩ := map_eq_ok_iff.mp read
            have shorter := (passes_of_next valid reading).length_lt
            exact .token reading ((ih (by omega)).mp rest)
      · intro reads
        cases reads with
        | done blank => rw [blank]
        | token reading rest =>
            have shorter := (passes_of_next valid reading).length_lt
            rw [reading]
            exact map_eq_ok_iff.mpr ⟨_, (ih (by omega)).mpr rest, rfl⟩

theorem tokenize_eq_ok_iff (valid : grammar.validate = .ok ()) {text : String}
    {tokens : List Token} :
    tokenize grammar text = .ok tokens ↔ Reads grammar ⟨text.toList, 0⟩ tokens :=
  tokensFrom_eq_ok_iff valid (by simp only [Cursor.ofText, String.length_toList]; omega)

theorem Reads.of_next_eq {cursor cursor' : Cursor} {tokens : List Token}
    (reads : Reads grammar cursor tokens)
    (same : next grammar grammar.spellings cursor' = next grammar grammar.spellings cursor) :
    Reads grammar cursor' tokens := by
  cases reads with
  | done blank => exact .done (same.trans blank)
  | token read rest => exact .token (same.trans read) rest

theorem Reads.punctuation {character : Char} {kind : Token.Kind} {rest : List Char}
    {tokens : List Token} (isPunctuation : punctuation? character = some kind)
    (notName : grammar.isIdentifierCharacter character = false)
    (reads : Reads grammar ⟨rest, position + byteLength [character]⟩ tokens) :
    Reads grammar ⟨character :: rest, position⟩ (⟨kind, none, position⟩ :: tokens) :=
  .token (next_punctuation isPunctuation notName _ rest position) reads

theorem Reads.append (valid : grammar.validate = .ok ()) {before : Cursor} {tail : List Char}
    {tokens following : List Token} (reads : Reads grammar before tokens)
    (apart : StartsApart grammar tail) (shift : Nat)
    (readsTail : Reads grammar ⟨tail, before.position + byteLength before.rest + shift⟩ following) :
    Reads grammar ⟨before.rest ++ tail, before.position + shift⟩
      (tokens.map (Token.relocate (· + shift)) ++ following) := by
  induction reads with
  | done blank => exact readsTail.of_next_eq (next_append_of_blank blank shift)
  | token read _ ih =>
      have passes := passes_of_next valid read
      rw [← passes.sameEnd] at readsTail
      exact .token (next_append_apart read apart shift) (ih readsTail)

/-! ## Texts put together -/

section Texts

variable (valid : grammar.validate = .ok ()) {first second : String} {following : List Token}
  (readsSecond : tokenize grammar second = .ok following)
include valid readsSecond

theorem Reads.shifted (shift : Nat) :
    Reads grammar ⟨second.toList, shift⟩ (following.map (Token.relocate (· + shift))) := by
  have reads := (tokenize_eq_ok_iff valid).mp readsSecond
  have nothingApart : StartsApart grammar [] := by
    rintro _ ⟨⟩
  simpa using reads.append valid nothingApart shift (.done rfl)

theorem tokenize_append {tokens : List Token} (readsFirst : tokenize grammar first = .ok tokens)
    (apart : StartsApart grammar second.toList) :
    tokenize grammar (first ++ second) =
      .ok (tokens ++ following.map (Token.relocate (· + byteLength first.toList))) := by
  have reads := (tokenize_eq_ok_iff valid).mp readsFirst
  have shifted := Reads.shifted valid readsSecond (byteLength first.toList)
  rw [tokenize_eq_ok_iff valid, String.toList_append]
  have stays : tokens.map (Token.relocate (· + 0)) = tokens := List.map_id'' (fun _ => rfl) tokens
  rw [← stays]
  exact reads.append valid apart 0 (by simpa using shifted)

theorem tokenize_append_of_blank (blank : tokenize grammar first = .ok []) :
    tokenize grammar (first ++ second) =
      .ok (following.map (Token.relocate (· + byteLength first.toList))) := by
  cases (tokenize_eq_ok_iff valid).mp blank with
  | done blank =>
      have shifted := Reads.shifted valid readsSecond (byteLength first.toList)
      rw [tokenize_eq_ok_iff valid, String.toList_append]
      refine shifted.of_next_eq ?_
      simpa using next_append_of_blank blank 0

end Texts

end Lexer

end Formula
