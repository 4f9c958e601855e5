import Formula.Grammar.Basic
import Formula.Text.Digits
import Formula.Token.Basic

/-!
# Tokens from text

A cursor stands in front of the characters that are still to be read.  `next` reads one token; after
an error the cursor stays where reading stopped, so reading can go on from there.
-/

namespace Formula.Lexer

structure Cursor where
  rest : List Char
  position : Nat
deriving DecidableEq, Repr

namespace Cursor

def ofText (text : String) : Cursor :=
  ⟨text.toList, 0⟩

/-- The cursor behind characters that it stands in front of. -/
def past (cursor : Cursor) (passed rest : List Char) : Cursor :=
  ⟨rest, cursor.position + Text.byteLength passed⟩

end Cursor

def fail {α : Type} (position : Nat) (fault : LexicalFault) : Except Error α :=
  .error (.lexical position fault)

/-- The characters that may stand between tokens. -/
def isSpace (character : Char) : Bool :=
  character == ' ' || character == '\t' || character == '\r' || character == '\n' ||
    character == '\x0c'

def skipSpace (cursor : Cursor) : Cursor :=
  cursor.past (cursor.rest.takeWhile isSpace) (cursor.rest.dropWhile isSpace)

/-! ## Numbers -/

/-- Digits with at most one point among them, and what follows. -/
def splitMantissa (sawPoint : Bool) : List Char → List Char × List Char
  | [] => ([], [])
  | character :: rest =>
      if character.isDigit || (character == '.' && !sawPoint) then
        let (mantissa, rest) := splitMantissa (sawPoint || character == '.') rest
        (character :: mantissa, rest)
      else
        ([], character :: rest)

theorem splitMantissa_append (sawPoint : Bool) (text : List Char) :
    (splitMantissa sawPoint text).1 ++ (splitMantissa sawPoint text).2 = text := by
  fun_induction splitMantissa sawPoint text <;> simp_all

def splitSign : List Char → List Char × List Char
  | '+' :: rest => (['+'], rest)
  | '-' :: rest => (['-'], rest)
  | text => ([], text)

theorem splitSign_append (text : List Char) : (splitSign text).1 ++ (splitSign text).2 = text := by
  unfold splitSign
  split <;> rfl

/-- The lexeme of a number: digits, and an exponent behind a small `e`. -/
def readNumber (cursor : Cursor) : Except Error Token × Cursor :=
  let start := cursor.position
  let (mantissa, rest) := splitMantissa false cursor.rest
  let token (lexeme : List Char) : Except Error Token :=
    .ok ⟨.number, some (String.ofList lexeme), start⟩
  if mantissa.any Char.isDigit then
    match rest with
    | 'e' :: afterMark =>
        let (sign, afterSign) := splitSign afterMark
        let digits := afterSign.takeWhile Char.isDigit
        let lexeme := mantissa ++ 'e' :: sign ++ digits
        let following := cursor.past lexeme (afterSign.dropWhile Char.isDigit)
        if digits = [] then
          (fail start (.malformedExponent (String.ofList lexeme)), following)
        else
          (token lexeme, following)
    | _ => (token mantissa, cursor.past mantissa rest)
  else
    (fail start .numberWithoutDigits, cursor.past mantissa rest)

/-! ## Strings -/

def hexDigit? (character : Char) : Option Nat :=
  if '0' ≤ character ∧ character ≤ '9' then some (character.toNat - '0'.toNat)
  else if 'a' ≤ character ∧ character ≤ 'f' then some (character.toNat - 'a'.toNat + 10)
  else if 'A' ≤ character ∧ character ≤ 'F' then some (character.toNat - 'A'.toNat + 10)
  else none

def hexValue? (digits : List Char) : Option Nat :=
  (digits.mapM hexDigit?).map (List.foldl (fun value digit => 16 * value + digit) 0)

/-- The character that hexadecimal digits name. -/
def hexCharacter (digits : List Char) : Except LexicalFault Char :=
  match hexValue? digits with
  | none => .error .malformedHexEscape
  | some code =>
      if code.isValidChar then .ok (Char.ofNat code) else .error (.invalidCodePoint code)

/-- A character behind a backslash stands for itself, except for five control characters. -/
def escaped : Char → Char
  | 'b' => '\x08'
  | 'f' => '\x0c'
  | 'n' => '\n'
  | 'r' => '\r'
  | 't' => '\t'
  | character => character

abbrev StringReading := Except Error (List Char) × Cursor

def prepend (character : Char) (reading : StringReading) : StringReading :=
  (reading.1.map (character :: ·), reading.2)

/-- Reads the contents of a string up to its closing quote.  Faults of an escape sequence are
reported at its backslash, and leave the cursor behind the letter of the escape. -/
def readContents (quote : Char) (start : Nat) : (position : Nat) → List Char → StringReading
  | position, [] => (fail start .unterminatedString, ⟨[], position⟩)
  | position, character :: rest =>
      if character = quote then
        (.ok [], ⟨rest, position + character.utf8Size⟩)
      else if character ≠ '\\' then
        prepend character (readContents quote start (position + character.utf8Size) rest)
      else
        match rest with
        | [] => (fail position .unfinishedEscape, ⟨[], position + 1⟩)
        | 'x' :: first :: second :: rest =>
            match hexCharacter [first, second] with
            | .ok character => prepend character (readContents quote start (position + 4) rest)
            | .error fault =>
                (fail position fault, ⟨first :: second :: rest, position + 2⟩)
        | 'x' :: rest => (fail position .malformedHexEscape, ⟨rest, position + 2⟩)
        | 'u' :: first :: second :: third :: fourth :: rest =>
            match hexCharacter [first, second, third, fourth] with
            | .ok character => prepend character (readContents quote start (position + 6) rest)
            | .error fault =>
                (fail position fault,
                  ⟨first :: second :: third :: fourth :: rest, position + 2⟩)
        | 'u' :: rest => (fail position .malformedHexEscape, ⟨rest, position + 2⟩)
        | letter :: rest =>
            prepend (escaped letter)
              (readContents quote start (position + 1 + letter.utf8Size) rest)

def readString (quote : Char) (start : Nat) (contents : List Char) : Except Error Token × Cursor :=
  let (characters, cursor) := readContents quote start (start + quote.utf8Size) contents
  (characters.map fun characters => ⟨.stringLiteral, some (String.ofList characters), start⟩,
    cursor)

/-! ## Tokens -/

def punctuation? : Char → Option Token.Kind
  | '(' => some .leftParen
  | ')' => some .rightParen
  | ',' => some .comma
  | _ => none

/-- Reads a token at its first character.  The spellings are tried in the given order. -/
def readToken (grammar : Grammar) (spellings : List String) (cursor : Cursor) (first : Char)
    (following : List Char) : Except Error Token × Cursor :=
  let start := cursor.position
  if first.isDigit || first == '.' then
    readNumber cursor
  else if grammar.isIdentifierCharacter first then
    let name := cursor.rest.takeWhile grammar.isIdentifierCharacter
    (.ok ⟨.identifier, some (String.ofList name), start⟩,
      cursor.past name (cursor.rest.dropWhile grammar.isIdentifierCharacter))
  else if first == '\x22' || first == '\x27' then
    readString first start following
  else
    match punctuation? first with
    | some kind => (.ok ⟨kind, none, start⟩, cursor.past [first] following)
    | none =>
        match spellings.find? (fun spelling => spelling.toList.isPrefixOf cursor.rest) with
        | some spelling =>
            (.ok ⟨.operator, some spelling, start⟩,
              cursor.past spelling.toList (cursor.rest.drop spelling.toList.length))
        | none => (fail start (.unexpectedCharacter first), cursor)

/-- The next token, or none at the end of the text. -/
def next (grammar : Grammar) (spellings : List String) (cursor : Cursor) :
    Except Error (Option Token) × Cursor :=
  let cursor := skipSpace cursor
  match cursor.rest with
  | [] => (.ok none, cursor)
  | first :: following =>
      let (token, cursor) := readToken grammar spellings cursor first following
      (token.map some, cursor)

/-- A text has at most as many tokens as characters. -/
def tokensFrom (grammar : Grammar) (spellings : List String) :
    (limit : Nat) → Cursor → Except Error (List Token)
  | 0, _ => .ok []
  | limit + 1, cursor =>
      match next grammar spellings cursor with
      | (.error error, _) => .error error
      | (.ok none, _) => .ok []
      | (.ok (some token), cursor) =>
          (tokensFrom grammar spellings limit cursor).map (token :: ·)

def tokenize (grammar : Grammar) (text : String) : Except Error (List Token) :=
  tokensFrom grammar grammar.spellings (text.length + 1) (.ofText text)

/-- The results of reading `count` tokens, going on after errors. -/
def readings (grammar : Grammar) (spellings : List String) :
    (count : Nat) → Cursor → List (Except Error (Option Token))
  | 0, _ => []
  | count + 1, cursor =>
      let (reading, cursor) := next grammar spellings cursor
      reading :: readings grammar spellings count cursor

end Formula.Lexer
