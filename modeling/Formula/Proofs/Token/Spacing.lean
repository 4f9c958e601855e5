import Formula.Proofs.Expr.Stages
import Formula.Proofs.Token.Lossless

/-!
# Spaces between tokens

Where a token ends depends on what follows it only up to the next space.  So spaces that are put in
between the lexemes of a text change neither the tokens nor, apart from positions, what the text
compiles to.
-/

namespace Formula

namespace Lexer

open Text (byteLength byteLength_append)

variable {grammar : Grammar}

/-! ## What follows a token -/

/-- Up to the next space, one text shows nothing that the other one does not show as well. -/
def ShowsLess (wider rest : List Char) : Prop :=
  ∀ seen, (∀ character ∈ seen, isSpace character = false) → seen <+: wider → seen <+: rest

namespace ShowsLess

variable {wider rest : List Char}

theorem of_spaced (spaced : StartsWithSpace wider) (rest : List Char) : ShowsLess wider rest := by
  intro seen visible starts
  cases seen with
  | nil => exact List.nil_prefix
  | cons first seen =>
      obtain ⟨following, rfl⟩ := starts
      have space := spaced first rfl
      rw [visible first (.head _)] at space
      cases space

theorem append (less : ShowsLess wider rest) (lexeme : List Char) :
    ShowsLess (lexeme ++ wider) (lexeme ++ rest) := by
  rintro seen visible ⟨following, same⟩
  rcases List.append_eq_append_iff.mp same with ⟨unseen, rfl, -⟩ | ⟨further, rfl, shown⟩
  · exact List.append_assoc .. ▸ List.prefix_append seen _
  · refine (List.prefix_append_right_inj lexeme).mpr (less further (fun character member => ?_) ?_)
    · exact visible character (List.mem_append_right _ member)
    · exact ⟨following, shown.symm⟩

/-- The first character behind a token is a space, or it has been there before. -/
theorem head? (less : ShowsLess wider rest) :
    ∀ character ∈ wider.head?, isSpace character = true ∨ rest.head? = some character := by
  intro character first
  cases visible : isSpace character with
  | true => exact .inl rfl
  | false =>
      obtain ⟨following, rfl⟩ := List.head?_eq_some_iff.mp first
      obtain ⟨others, rfl⟩ := less [character] (by simpa using visible) ⟨following, rfl⟩
      exact .inr rfl

/-- A run that ends behind a token, and that no space continues, still ends there. -/
theorem stops (less : ShowsLess wider rest) {wanted : Char → Bool}
    (notSpace : ∀ character, isSpace character = true → wanted character = false)
    (stopped : ∀ character ∈ rest.head?, wanted character = false) :
    ∀ character ∈ wider.head?, wanted character = false := fun character first =>
  (less.head? character first).elim (notSpace character) (stopped character)

end ShowsLess

/-! ## Numbers -/

theorem not_numeric_of_isSpace {character : Char} (space : isSpace character = true) :
    character.isDigit = false ∧ character ≠ '.' ∧ character ≠ 'e' := by
  rcases isSpace_eq_true_iff.mp space with rfl | rfl | rfl | rfl | rfl <;> decide

theorem splitMantissa_of_head? {sawPoint : Bool} {text mantissa rest wider : List Char}
    (parts : splitMantissa sawPoint text = (mantissa, rest))
    (stops : ∀ character ∈ wider.head?,
      (character.isDigit = false ∧ character ≠ '.') ∨ rest.head? = some character) :
    splitMantissa sawPoint (mantissa ++ wider) = (mantissa, wider) := by
  fun_induction splitMantissa sawPoint text generalizing mantissa with
  | case1 sawPoint =>
      obtain ⟨rfl, rfl⟩ := Prod.mk.inj parts
      refine splitMantissa_of_stops (fun character first => ?_) sawPoint
      simpa using stops character first
  | case2 sawPoint character text accepted following others further ih =>
      obtain ⟨rfl, rfl⟩ := Prod.mk.inj parts
      rw [List.cons_append, splitMantissa, if_pos accepted, ih further]
  | case3 sawPoint character text refused =>
      obtain ⟨rfl, rfl⟩ := Prod.mk.inj parts
      cases wider with
      | nil => rfl
      | cons first wider =>
          have alsoRefused : ¬ (first.isDigit || first == '.' && !sawPoint) = true := by
            rcases stops first rfl with neither | same
            · simp [neither]
            · obtain rfl : character = first := Option.some.inj same
              exact refused
          rw [List.nil_append, splitMantissa, if_neg alsoRefused]

theorem readNumber_showsLess {text lexeme wider : List Char} {position : Nat} {token : Token}
    {after : Cursor} (read : readNumber ⟨text, position⟩ = (.ok token, after))
    (written : text = lexeme ++ after.rest) (less : ShowsLess wider after.rest) (place : Nat) :
    readNumber ⟨lexeme ++ wider, place⟩ =
      (.ok { token with position := place }, ⟨wider, place + byteLength lexeme⟩) := by
  have whole := splitMantissa_append false text
  simp only [readNumber] at read
  generalize parts : splitMantissa false text = halves at read whole
  obtain ⟨mantissa, rest⟩ := halves
  dsimp only at read whole
  split at read
  · next hasDigit =>
      split at read
      · next afterMark =>
          have signed := splitSign_append afterMark
          have isSign := isSign_splitSign afterMark
          generalize splitSign afterMark = halves at read signed isSign
          obtain ⟨sign, afterSign⟩ := halves
          dsimp only at read signed isSign
          split at read
          · simp [fail] at read
          · next present =>
              cases read
              obtain rfl :
                  mantissa ++ 'e' :: sign ++ afterSign.takeWhile Char.isDigit = lexeme := by
                refine List.append_cancel_right (Eq.trans ?_ written)
                simp only [Cursor.past, List.append_assoc, List.cons_append,
                  List.takeWhile_append_dropWhile, signed, whole]
              have all : AllDigits (afterSign.takeWhile Char.isDigit) :=
                fun digit member => List.mem_takeWhile_imp member
              have stopped : ∀ character ∈ (afterSign.dropWhile Char.isDigit).head?,
                  character.isDigit = false := by
                intro character first
                have stopped := List.head?_dropWhile_not Char.isDigit afterSign
                rwa [Option.mem_def.mp first] at stopped
              have taken := run_append all
                (less.stops (fun _ space => (not_numeric_of_isSpace space).1) stopped)
              have sameMantissa := @splitMantissa_of_head? false text mantissa _
                ('e' :: (sign ++ (afterSign.takeWhile Char.isDigit ++ wider))) parts
                fun _ first => .inr first
              simp only [readNumber, List.append_assoc, List.cons_append, sameMantissa, hasDigit,
                ↓reduceIte, splitSign_of_isSign isSign all present, taken, present]
              rfl
      · next notMark =>
          cases read
          obtain rfl : mantissa = lexeme := List.append_cancel_right (whole.trans written)
          have stops : ∀ character ∈ wider.head?,
              (character.isDigit = false ∧ character ≠ '.') ∨ rest.head? = some character := by
            intro character first
            refine (less.head? character first).imp_left fun space => ?_
            exact ⟨(not_numeric_of_isSpace space).1, (not_numeric_of_isSpace space).2.1⟩
          simp only [readNumber, splitMantissa_of_head? parts stops, hasDigit, ↓reduceIte]
          split
          · next afterMark =>
              -- What starts an exponent here has stood behind the number before.
              rcases less.head? 'e' rfl with space | mark
              · exact absurd rfl (not_numeric_of_isSpace space).2.2
              · obtain ⟨afterMark, same⟩ := List.head?_eq_some_iff.mp mark
                exact absurd same (notMark afterMark)
          · rfl
  · simp [fail] at read

/-! ## Tokens -/

theorem find?_spelling_showsLess (valid : grammar.validate = .ok ()) {spelling : String}
    {wider rest : List Char}
    (found : grammar.spellings.find? (fun candidate =>
      candidate.toList.isPrefixOf (spelling.toList ++ rest)) = some spelling)
    (less : ShowsLess wider rest) :
    grammar.spellings.find? (fun candidate =>
      candidate.toList.isPrefixOf (spelling.toList ++ wider)) = some spelling := by
  obtain ⟨-, before, after, same, noneBefore⟩ := List.find?_eq_some_iff_append.mp found
  refine List.find?_eq_some_iff_append.mpr ⟨?_, before, after, same, fun candidate earlier => ?_⟩
  · exact List.isPrefixOf_iff_prefix.mpr (List.prefix_append _ _)
  · have notThere := noneBefore candidate earlier
    simp only [Bool.not_eq_true', Bool.eq_false_iff, ne_eq, List.isPrefixOf_iff_prefix]
      at notThere ⊢
    intro starts
    have member : candidate ∈ grammar.spellings := same ▸ List.mem_append_left _ earlier
    exact notThere (less.append spelling.toList candidate.toList
      (fun _ spelled => not_isSpace_of_spelling valid member spelled) starts)

/-- A token is read off its characters again when what follows them shows less. -/
theorem readToken_showsLess (valid : grammar.validate = .ok ())
    (separated : ∀ character, isSpace character = true →
      grammar.isIdentifierCharacter character = false)
    {first : Char} {lexeme following wider : List Char} {position : Nat} {token : Token}
    {after : Cursor}
    (read : readToken grammar grammar.spellings ⟨first :: following, position⟩ first following =
      (.ok token, after))
    (written : first :: following = lexeme ++ after.rest) (less : ShowsLess wider after.rest)
    (place : Nat) :
    ∃ inner, lexeme = first :: inner ∧
      readToken grammar grammar.spellings ⟨lexeme ++ wider, place⟩ first (inner ++ wider) =
        (.ok { token with position := place }, ⟨wider, place + byteLength lexeme⟩) := by
  obtain ⟨lexeme', present, same, -⟩ := spells_of_readToken valid read
  obtain rfl : lexeme' = lexeme := List.append_cancel_right (same.symm.trans written)
  obtain ⟨start, inner, rfl⟩ := List.exists_cons_of_ne_nil present
  obtain rfl : first = start := (List.cons.inj written).1
  refine ⟨inner, rfl, ?_⟩
  unfold readToken at read ⊢
  dsimp only at read ⊢
  split at read
  · next number =>
      rw [if_pos number]
      exact readNumber_showsLess read written less place
  · next notNumber =>
      rw [if_neg notNumber]
      split at read
      · next isName =>
          cases read
          have name : (first :: following).takeWhile grammar.isIdentifierCharacter =
              first :: inner :=
            List.append_cancel_right (List.takeWhile_append_dropWhile.trans written)
          have all : ∀ character ∈ first :: inner, grammar.isIdentifierCharacter character = true :=
            fun character member => List.mem_takeWhile_imp (name ▸ member)
          have stopped : ∀ character ∈
              ((first :: following).dropWhile grammar.isIdentifierCharacter).head?,
              grammar.isIdentifierCharacter character = false := by
            intro character isFirst
            have stopped := List.head?_dropWhile_not grammar.isIdentifierCharacter
              (first :: following)
            rwa [Option.mem_def.mp isFirst] at stopped
          have taken := run_append all (less.stops separated stopped)
          rw [if_pos isName, taken.1, taken.2, name]
          rfl
      · next notName =>
          rw [if_neg notName]
          split at read
          · next isQuote =>
              have notBackslash : first ≠ '\\' := by
                rintro rfl
                simp at isQuote
              obtain ⟨characters, contents, encodes, behind, rfl, -⟩ := readString_eq_ok read
              have whole : contents ++ [first] ++ after.rest = inner ++ after.rest := by
                rw [List.append_assoc]
                exact behind.symm.trans (List.cons.inj written).2
              obtain rfl : contents ++ [first] = inner := List.append_cancel_right whole
              rw [if_pos isQuote, List.append_assoc]
              exact readString_encodedAll notBackslash encodes place wider
          · next notQuote =>
              rw [if_neg notQuote]
              split at read
              · next kind isPunctuation =>
                  cases read
                  obtain rfl : [] = inner := List.append_cancel_right (List.cons.inj written).2
                  rfl
              · next notPunctuation =>
                  split at read
                  · next spelling found =>
                      obtain ⟨rest, behind⟩ := prefix_of_find? found
                      rw [← behind, List.drop_left] at read
                      cases read
                      have spelled : spelling.toList = first :: inner :=
                        List.append_cancel_right (behind.trans written)
                      rw [← behind] at found
                      rw [← spelled, find?_spelling_showsLess valid found less]
                      simp [Cursor.past]
                  · cases read

/-! ## Texts -/

/-- Spaces that are put into the gap in front of each lexeme of a text, or behind the last one.  The
lexemes are what the lexer reads the tokens off. -/
inductive Widens (grammar : Grammar) : Cursor → List Char → Prop
  | done {cursor after : Cursor} {gap : List Char}
      (blank : next grammar grammar.spellings cursor = (.ok none, after))
      (inserted : cursor.rest.Sublist gap) (isGap : IsGap gap) : Widens grammar cursor gap
  | token {cursor after : Cursor} {token : Token} {gap lexeme wider : List Char}
      (read : next grammar grammar.spellings cursor = (.ok (some token), after))
      (inserted : (cursor.rest.takeWhile isSpace).Sublist gap) (isGap : IsGap gap)
      (written : cursor.rest.dropWhile isSpace = lexeme ++ after.rest)
      (rest : Widens grammar after wider) : Widens grammar cursor (gap ++ lexeme ++ wider)

theorem isSpace_of_isGap {gap : List Char} (isGap : IsGap gap) :
    ∀ character ∈ gap, isSpace character = true := by
  intro character member
  have := isGap character member
  exact isSpace_eq_true_iff.mpr (by simpa using this)

theorem startsWithSpace_of_isGap {gap : List Char} (isGap : IsGap gap) (present : gap ≠ [])
    (rest : List Char) : StartsWithSpace (gap ++ rest) := by
  obtain ⟨first, gap, rfl⟩ := List.exists_cons_of_ne_nil present
  rintro character ⟨⟩
  exact isSpace_of_isGap isGap first (.head _)

theorem Widens.showsLess {cursor : Cursor} {wider : List Char}
    (widens : Widens grammar cursor wider) :
    ShowsLess wider cursor.rest := by
  induction widens with
  | @done cursor after gap blank inserted isGap =>
      refine .of_spaced ?_ _
      intro character first
      exact isSpace_of_isGap isGap character (List.mem_of_mem_head? first)
  | @token cursor after token gap lexeme wider read inserted isGap written rest ih =>
      by_cases none : gap = []
      · subst none
        have noGap : cursor.rest.takeWhile isSpace = [] := List.sublist_nil.mp inserted
        have parts := @List.takeWhile_append_dropWhile _ isSpace cursor.rest
        have whole : cursor.rest = lexeme ++ after.rest := by
          rw [← parts, noGap, written, List.nil_append]
        rw [List.nil_append, whole]
        exact ih.append lexeme
      · rw [List.append_assoc]
        exact .of_spaced (startsWithSpace_of_isGap isGap none _) _

theorem next_widened (valid : grammar.validate = .ok ())
    (separated : ∀ character, isSpace character = true →
      grammar.isIdentifierCharacter character = false)
    {cursor after : Cursor} {token : Token} {gap lexeme wider : List Char}
    (reads : next grammar grammar.spellings cursor = (.ok (some token), after))
    (isGap : IsGap gap) (written : cursor.rest.dropWhile isSpace = lexeme ++ after.rest)
    (less : ShowsLess wider after.rest) (place : Nat) :
    next grammar grammar.spellings ⟨gap ++ lexeme ++ wider, place⟩ =
      (.ok (some { token with position := place + byteLength gap }),
        ⟨wider, place + byteLength gap + byteLength lexeme⟩) := by
  obtain ⟨first, following, visible, read⟩ := next_eq_some reads
  have start : skipSpace cursor = ⟨first :: following, (skipSpace cursor).position⟩ := by
    rw [← visible]
  rw [start] at read
  have behind : first :: following = lexeme ++ after.rest := visible.symm.trans written
  obtain ⟨inner, rfl, readAgain⟩ := readToken_showsLess valid separated read behind less
    (place + byteLength gap)
  have notSpace : isSpace first = false := by
    have stopped := List.head?_dropWhile_not isSpace cursor.rest
    rwa [show cursor.rest.dropWhile isSpace = first :: following from visible] at stopped
  have skipped : skipSpace ⟨gap ++ (first :: inner) ++ wider, place⟩ =
      ⟨(first :: inner) ++ wider, place + byteLength gap⟩ := by
    have taken := @run_append isSpace gap (first :: inner ++ wider) (isSpace_of_isGap isGap)
      (by simpa using notSpace)
    rw [List.append_assoc, skipSpace, taken.1, taken.2]
    rfl
  rw [next, skipped]
  simp only [List.cons_append] at readAgain ⊢
  rw [readAgain]
  rfl

theorem Widens.reads (valid : grammar.validate = .ok ())
    (separated : ∀ character, isSpace character = true →
      grammar.isIdentifierCharacter character = false)
    {cursor : Cursor} {wider : List Char} (widens : Widens grammar cursor wider)
    {tokens : List Token} (reads : Reads grammar cursor tokens) (place : Nat) :
    ∃ tokens', Reads grammar ⟨wider, place⟩ tokens' ∧
      tokens'.map (Token.relocate origin) = tokens.map (Token.relocate origin) := by
  induction widens generalizing tokens place with
  | @done cursor after gap blank inserted isGap =>
      cases reads with
      | done =>
          have allSpaces : gap.dropWhile isSpace = [] :=
            List.dropWhile_eq_nil_iff.mpr (isSpace_of_isGap isGap)
          have blank' : next grammar grammar.spellings ⟨gap, place⟩ =
              (.ok none, skipSpace ⟨gap, place⟩) := by
            simp [next, skipSpace, Cursor.past, allSpaces]
          exact ⟨[], .done blank', rfl⟩
      | token read => cases blank.symm.trans read
  | @token cursor after token gap lexeme wider read inserted isGap written rest ih =>
      cases reads with
      | done blank => cases read.symm.trans blank
      | token read' readsRest =>
          obtain ⟨sameToken, rfl⟩ := Prod.mk.inj (read.symm.trans read')
          obtain rfl := Option.some.inj (Except.ok.inj sameToken)
          obtain ⟨tokens', readsWider, same⟩ :=
            ih readsRest (place + byteLength gap + byteLength lexeme)
          have readAgain := next_widened valid separated read isGap written rest.showsLess place
          exact ⟨_, .token readAgain readsWider, congrArg (token.relocate origin :: ·) same⟩

end Lexer

/-! ## Compiled texts -/

/-- Folding, grouping and building look at what the tokens say, not at where they stand. -/
theorem Expr.build_of_sameTokens {grammar : Grammar} {tokens tokens' : List Token}
    (same : tokens'.map (Token.relocate origin) = tokens.map (Token.relocate origin))
    (maxDepth : Nat) :
    relocateOutcome origin (relocate origin)
        (TokenTree.ofTokens maxDepth (Token.foldSigns grammar tokens') >>= build grammar maxDepth) =
      relocateOutcome origin (relocate origin)
        (TokenTree.ofTokens maxDepth (Token.foldSigns grammar tokens) >>=
          build grammar maxDepth) := by
  have relocated (tokens : List Token) :
      relocateOutcome origin (relocate origin)
          (TokenTree.ofTokens maxDepth (Token.foldSigns grammar tokens) >>=
            build grammar maxDepth) =
        TokenTree.ofTokens maxDepth
            (Token.foldSigns grammar (tokens.map (Token.relocate origin))) >>=
          build grammar maxDepth := by
    rw [Token.foldSigns_relocate, TokenTree.ofTokens_relocate]
    exact (relocateOutcome_bind fun trees => build_relocate maxDepth trees).symm
  rw [relocated, relocated, same]

namespace Compiled

variable {σ : Type} {configuration : Configuration σ}

theorem root_of_tokenize {text : String} {tokens : List Token}
    (valid : configuration.grammar.validate = .ok ())
    (tokenized : Lexer.tokenize configuration.grammar text = .ok tokens) :
    (ofText configuration text).map root =
      TokenTree.ofTokens configuration.maxDepth (Token.foldSigns configuration.grammar tokens) >>=
        Expr.build configuration.grammar configuration.maxDepth := by
  rw [← Expr.ofText_of_tokenize valid tokenized]
  unfold ofText
  cases Expr.ofText configuration.grammar configuration.maxDepth text with
  | ok root => rfl
  | error error => rfl

/-- In a valid grammar whose names hold no spaces, spaces that are put in front of the lexemes of a
text and behind the last one change no kind and no text of a token.  The text then compiles to the
same tree or has the same error, apart from positions. -/
theorem ofText_widened {text wider : String} {tokens : List Token}
    (valid : configuration.grammar.validate = .ok ())
    (separated : ∀ character, Lexer.isSpace character = true →
      configuration.grammar.isIdentifierCharacter character = false)
    (tokenized : Lexer.tokenize configuration.grammar text = .ok tokens)
    (widens : Lexer.Widens configuration.grammar (.ofText text) wider.toList) :
    (∃ tokens', Lexer.tokenize configuration.grammar wider = .ok tokens' ∧
      tokens'.map (Token.relocate origin) = tokens.map (Token.relocate origin)) ∧
    relocateOutcome origin (Expr.relocate origin) ((ofText configuration wider).map root) =
      relocateOutcome origin (Expr.relocate origin) ((ofText configuration text).map root) := by
  have reads := (Lexer.tokenize_eq_ok_iff valid).mp tokenized
  obtain ⟨tokens', readsWider, same⟩ := widens.reads valid separated reads 0
  have tokenizedWider : Lexer.tokenize configuration.grammar wider = .ok tokens' :=
    (Lexer.tokenize_eq_ok_iff valid).mpr readsWider
  refine ⟨⟨tokens', tokenizedWider, same⟩, ?_⟩
  rw [root_of_tokenize valid tokenized, root_of_tokenize valid tokenizedWider]
  exact Expr.build_of_sameTokens same configuration.maxDepth

/-- Spaces where there were none: between a number and an operator of two characters, and at the
end. -/
theorem ofText_widened_comparison :
    let configuration : Configuration Unit := .ofType .float64
    (∃ tokens', Lexer.tokenize .standard "2.\t<=x " = .ok tokens' ∧
      tokens'.map (Token.relocate origin) =
        [⟨.number, some "2.", 0⟩, ⟨.operator, some "<=", 0⟩, ⟨.identifier, some "x", 0⟩]) ∧
    relocateOutcome origin (Expr.relocate origin)
        ((ofText configuration "2.\t<=x ").map root) =
      .ok (.operation "<=" 0 (some (.number "2." 0)) (some (.identifier "x" 0))) := by
  intro configuration
  have tokenized : Lexer.tokenize .standard "2.<=x" =
      .ok [⟨.number, some "2.", 0⟩, ⟨.operator, some "<=", 2⟩, ⟨.identifier, some "x", 4⟩] := by
    decide +kernel
  have number : Lexer.next .standard Grammar.standard.spellings (.ofText "2.<=x") =
      (.ok (some ⟨.number, some "2.", 0⟩), ⟨['<', '=', 'x'], 2⟩) := by decide +kernel
  have operator : Lexer.next .standard Grammar.standard.spellings ⟨['<', '=', 'x'], 2⟩ =
      (.ok (some ⟨.operator, some "<=", 2⟩), ⟨['x'], 4⟩) := by decide +kernel
  have name : Lexer.next .standard Grammar.standard.spellings ⟨['x'], 4⟩ =
      (.ok (some ⟨.identifier, some "x", 4⟩), ⟨[], 5⟩) := by decide +kernel
  have written : "2.\t<=x ".toList =
      [] ++ ['2', '.'] ++ (['\t'] ++ ['<', '='] ++ ([] ++ ['x'] ++ [' '])) := by decide +kernel
  have widens : Lexer.Widens .standard (.ofText "2.<=x") "2.\t<=x ".toList := by
    rw [written]
    refine .token number ?_ nofun (by decide +kernel) <|
      .token operator (List.nil_sublist _) ?_ rfl <| .token name (List.nil_sublist _) nofun rfl <|
        .done rfl (List.nil_sublist _) ?_
    · have noGap : (Lexer.Cursor.ofText "2.<=x").rest.takeWhile Lexer.isSpace = [] := by
        decide +kernel
      rw [noGap]
    · simp [Lexer.IsGap]
    · simp [Lexer.IsGap]
  obtain ⟨sameTokens, sameOutcome⟩ := @ofText_widened Unit configuration _ _ _
    Grammar.validate_standard (fun _ => Lexer.not_isIdentifierCharacter_of_isSpace) tokenized widens
  refine ⟨sameTokens, sameOutcome.trans ?_⟩
  rw [root_of_tokenize Grammar.validate_standard tokenized]
  rfl

end Compiled

end Formula
