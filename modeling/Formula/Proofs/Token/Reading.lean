import Formula.Token.Lexer
import Mathlib.Data.List.TakeWhile

/-!
# What the readers of numbers and strings accept

A numeral is described by its parts.  The reader of numbers accepts numerals only, and all of them;
the reader of strings gets back every character from each way of writing it.
-/

namespace Formula.Lexer

open Text (byteLength)

/-- A maximal run ends where the first character that is not wanted stands. -/
theorem run_append {wanted : Char → Bool} {run rest : List Char}
    (all : ∀ character ∈ run, wanted character = true)
    (stops : ∀ character ∈ rest.head?, wanted character = false) :
    (run ++ rest).takeWhile wanted = run ∧ (run ++ rest).dropWhile wanted = rest := by
  rw [List.takeWhile_append_of_pos all, List.dropWhile_append_of_pos all]
  cases rest with
  | nil => simp
  | cons character rest => simp [stops character rfl]

/-! ## Mantissas -/

def AllDigits (text : List Char) : Prop :=
  ∀ character ∈ text, character.isDigit = true

inductive IsMantissa : List Char → Prop
  | whole {digits : List Char} (all : AllDigits digits) : IsMantissa digits
  | pointed {whole fraction : List Char} (all : AllDigits whole) (allAfter : AllDigits fraction) :
      IsMantissa (whole ++ '.' :: fraction)

theorem IsMantissa.cons {digit : Char} {mantissa : List Char} (isDigit : digit.isDigit = true)
    (rest : IsMantissa mantissa) : IsMantissa (digit :: mantissa) := by
  cases rest with
  | whole all => exact .whole (List.forall_mem_cons.mpr ⟨isDigit, all⟩)
  | pointed all allAfter =>
      rw [← List.cons_append]
      exact .pointed (List.forall_mem_cons.mpr ⟨isDigit, all⟩) allAfter

theorem allDigits_splitMantissa_true (text : List Char) :
    AllDigits (splitMantissa true text).1 := by
  induction text with
  | nil => simp [splitMantissa, AllDigits]
  | cons character text ih =>
      unfold splitMantissa
      split
      · next accepted => exact List.forall_mem_cons.mpr ⟨by simpa using accepted, ih⟩
      · simp [AllDigits]

theorem isMantissa_splitMantissa (text : List Char) : IsMantissa (splitMantissa false text).1 := by
  induction text with
  | nil => exact .whole (by simp [splitMantissa, AllDigits])
  | cons character text ih =>
      unfold splitMantissa
      split
      · next accepted =>
          by_cases point : character = '.'
          · subst point
            exact @IsMantissa.pointed [] _ (by simp [AllDigits]) (allDigits_splitMantissa_true text)
          · have isDigit : character.isDigit = true := by simpa [point] using accepted
            simpa [beq_eq_false_iff_ne.mpr point] using ih.cons isDigit
      · exact .whole (by simp [AllDigits])

/-- Neither a digit nor a point stands first. -/
def StopsMantissa (rest : List Char) : Prop :=
  ∀ character ∈ rest.head?, character.isDigit = false ∧ character ≠ '.'

theorem splitMantissa_of_stops {rest : List Char} (stops : StopsMantissa rest) (sawPoint : Bool) :
    splitMantissa sawPoint rest = ([], rest) := by
  cases rest with
  | nil => rfl
  | cons character rest =>
      have := stops character rfl
      simp [splitMantissa, this]

theorem splitMantissa_digits_append {digits : List Char} (all : AllDigits digits)
    (sawPoint : Bool) (text : List Char) :
    splitMantissa sawPoint (digits ++ text) =
      (digits ++ (splitMantissa sawPoint text).1, (splitMantissa sawPoint text).2) := by
  induction digits with
  | nil => rfl
  | cons digit digits ih =>
      obtain ⟨isDigit, all⟩ := List.forall_mem_cons.mp all
      have notPoint : digit ≠ '.' := by
        rintro rfl
        contradiction
      simp [splitMantissa, isDigit, beq_eq_false_iff_ne.mpr notPoint, ih all]

theorem splitMantissa_append_of_stops {mantissa rest : List Char} (isMantissa : IsMantissa mantissa)
    (stops : StopsMantissa rest) : splitMantissa false (mantissa ++ rest) = (mantissa, rest) := by
  cases isMantissa with
  | whole all =>
      rw [splitMantissa_digits_append all, splitMantissa_of_stops stops, List.append_nil]
  | @pointed whole fraction all allAfter =>
      have afterPoint :
          splitMantissa false ('.' :: fraction ++ rest) = ('.' :: fraction, rest) := by
        have digits := splitMantissa_digits_append allAfter true rest
        rw [splitMantissa_of_stops stops, List.append_nil] at digits
        simp [splitMantissa, digits]
      rw [List.append_assoc, splitMantissa_digits_append all, afterPoint]

/-! ## Numerals -/

inductive IsSign : List Char → Prop
  | absent : IsSign []
  | plus : IsSign ['+']
  | minus : IsSign ['-']

inductive IsNumeral : List Char → Prop
  | plain {mantissa : List Char} (isMantissa : IsMantissa mantissa)
      (some : mantissa.any Char.isDigit = true) : IsNumeral mantissa
  | scaled {mantissa sign digits : List Char} (isMantissa : IsMantissa mantissa)
      (some : mantissa.any Char.isDigit = true) (isSign : IsSign sign) (all : AllDigits digits)
      (present : digits ≠ []) : IsNumeral (mantissa ++ 'e' :: sign ++ digits)

theorem isSign_splitSign (text : List Char) : IsSign (splitSign text).1 := by
  unfold splitSign
  split
  · exact .plus
  · exact .minus
  · exact .absent

theorem splitSign_of_isSign {sign digits : List Char} (isSign : IsSign sign)
    (all : AllDigits digits) (present : digits ≠ []) (rest : List Char) :
    splitSign (sign ++ (digits ++ rest)) = (sign, digits ++ rest) := by
  cases isSign with
  | plus => rfl
  | minus => rfl
  | absent =>
      cases digits with
      | nil => contradiction
      | cons digit digits =>
          have isDigit := all digit (.head _)
          simp only [List.nil_append, List.cons_append]
          unfold splitSign
          split
          · next same => cases same; contradiction
          · next same => cases same; contradiction
          · rfl

/-- What the reader of numbers accepts is a numeral. -/
theorem readNumber_eq_ok {text : List Char} {position : Nat} {token : Token} {cursor : Cursor}
    (read : readNumber ⟨text, position⟩ = (.ok token, cursor)) :
    ∃ lexeme, IsNumeral lexeme ∧ text = lexeme ++ cursor.rest ∧
      token = ⟨.number, some (String.ofList lexeme), position⟩ ∧
        cursor.position = position + byteLength lexeme := by
  have isMantissa := isMantissa_splitMantissa text
  have whole := splitMantissa_append false text
  simp only [readNumber] at read
  generalize splitMantissa false text = parts at read isMantissa whole
  obtain ⟨mantissa, rest⟩ := parts
  dsimp only at read isMantissa whole
  split at read
  · next some =>
      split at read
      · next afterMark =>
          have signed := splitSign_append afterMark
          have isSign := isSign_splitSign afterMark
          generalize splitSign afterMark = parts at read signed isSign
          obtain ⟨sign, afterSign⟩ := parts
          dsimp only at read signed isSign
          split at read
          · simp [fail] at read
          · next present =>
              cases read
              refine ⟨_, .scaled isMantissa some isSign ?_ present, ?_, rfl, rfl⟩
              · exact fun digit member => List.mem_takeWhile_imp member
              · simp only [Cursor.past, List.append_assoc, List.takeWhile_append_dropWhile,
                  List.cons_append, signed, whole]
      · cases read
        exact ⟨mantissa, .plain isMantissa some, whole.symm, rfl, rfl⟩
  · simp [fail] at read

theorem readNumber_append {lexeme rest : List Char} (isNumeral : IsNumeral lexeme)
    (stops : StopsMantissa rest) (notExponent : rest.head? ≠ some 'e') (position : Nat) :
    readNumber ⟨lexeme ++ rest, position⟩ =
      (.ok ⟨.number, some (String.ofList lexeme), position⟩,
        ⟨rest, position + byteLength lexeme⟩) := by
  cases isNumeral with
  | plain isMantissa some =>
      simp only [readNumber, splitMantissa_append_of_stops isMantissa stops, some, ↓reduceIte]
      split
      · simp at notExponent
      · rfl
  | @scaled mantissa sign digits isMantissa some isSign all present =>
      have stopsAtMark : StopsMantissa ('e' :: (sign ++ (digits ++ rest))) := by
        simp [StopsMantissa]
      have taken := run_append all fun character first => (stops character first).1
      simp only [readNumber, List.append_assoc, List.cons_append,
        splitMantissa_append_of_stops isMantissa stopsAtMark, some, ↓reduceIte,
        splitSign_of_isSign isSign all present, taken, present]
      rfl

/-! ## Contents of strings -/

/-- The ways to write a character between quotes. -/
inductive Encodes (quote : Char) : Char → List Char → Prop
  | itself {character : Char} (notQuote : character ≠ quote) (notBackslash : character ≠ '\\') :
      Encodes quote character [character]
  | behindBackslash {letter : Char} (notByte : letter ≠ 'x') (notUnit : letter ≠ 'u') :
      Encodes quote (escaped letter) ['\\', letter]
  | byte {first second character : Char}
      (named : hexCharacter [first, second] = .ok character) :
      Encodes quote character ['\\', 'x', first, second]
  | unit {first second third fourth character : Char}
      (named : hexCharacter [first, second, third, fourth] = .ok character) :
      Encodes quote character ['\\', 'u', first, second, third, fourth]

theorem utf8Size_of_hexDigit? {character : Char} {value : Nat}
    (isDigit : hexDigit? character = some value) : character.utf8Size = 1 := by
  have ascii : character ≤ 'f' := by
    unfold hexDigit? at isDigit
    split at isDigit
    · next range => exact Char.le_trans range.2 (by decide)
    · split at isDigit
      · next range => exact range.2
      · split at isDigit
        · next range => exact Char.le_trans range.2 (by decide)
        · cases isDigit
  have bound : character.val ≤ 'f'.val := ascii
  exact Char.utf8Size_eq_one_iff.mpr (UInt32.le_trans bound (by decide))

theorem byteLength_of_mapM_hexDigit? {digits : List Char} {values : List Nat}
    (read : digits.mapM hexDigit? = some values) : byteLength digits = digits.length := by
  induction digits generalizing values with
  | nil => rfl
  | cons digit digits ih =>
      rw [List.mapM_cons] at read
      obtain ⟨value, isDigit, rest⟩ := Option.bind_eq_some_iff.mp read
      obtain ⟨values, others, -⟩ := Option.bind_eq_some_iff.mp rest
      rw [byteLength, utf8Size_of_hexDigit? isDigit, ih others, List.length_cons, Nat.add_comm]

theorem byteLength_of_hexCharacter {digits : List Char} {character : Char}
    (named : hexCharacter digits = .ok character) : byteLength digits = digits.length := by
  cases read : digits.mapM hexDigit? with
  | none => simp [hexCharacter, hexValue?, read] at named
  | some values => exact byteLength_of_mapM_hexDigit? read

theorem byteLength_byteEscape {first second character : Char}
    (named : hexCharacter [first, second] = .ok character) :
    byteLength ['\\', 'x', first, second] = 4 := by
  rw [byteLength, byteLength, byteLength_of_hexCharacter named]
  rfl

theorem byteLength_unitEscape {first second third fourth character : Char}
    (named : hexCharacter [first, second, third, fourth] = .ok character) :
    byteLength ['\\', 'u', first, second, third, fourth] = 6 := by
  rw [byteLength, byteLength, byteLength_of_hexCharacter named]
  rfl

theorem readContents_encoded {quote character : Char} {written : List Char}
    (notBackslash : quote ≠ '\\') (encodes : Encodes quote character written)
    (start position : Nat) (rest : List Char) :
    readContents quote start position (written ++ rest) =
      prepend character (readContents quote start (position + byteLength written) rest) := by
  cases encodes with
  | itself notQuote plain =>
      rw [List.singleton_append, readContents.eq_def]
      simp [notQuote, plain, byteLength]
  | @behindBackslash letter notByte notUnit =>
      simp only [List.cons_append, List.nil_append]
      rw [readContents] <;> simp [notBackslash.symm, notByte, notUnit, byteLength, Nat.add_assoc]
      rfl
  | @byte first second _ named =>
      simp only [List.cons_append, List.nil_append, byteLength_byteEscape named]
      rw [readContents]
      simp [notBackslash.symm, named]
  | @unit first second third fourth _ named =>
      simp only [List.cons_append, List.nil_append, byteLength_unitEscape named]
      rw [readContents]
      simp [notBackslash.symm, named]

/-- The ways to write a whole content. -/
inductive EncodesAll (quote : Char) : List Char → List Char → Prop
  | nil : EncodesAll quote [] []
  | cons {character : Char} {characters written following : List Char}
      (first : Encodes quote character written) (rest : EncodesAll quote characters following) :
      EncodesAll quote (character :: characters) (written ++ following)

theorem readContents_encodedAll {quote : Char} {characters written : List Char}
    (notBackslash : quote ≠ '\\') (encodes : EncodesAll quote characters written)
    (start position : Nat) (rest : List Char) :
    readContents quote start position (written ++ quote :: rest) =
      (.ok characters, ⟨rest, position + byteLength written + quote.utf8Size⟩) := by
  induction encodes generalizing position with
  | nil =>
      rw [List.nil_append, readContents.eq_def]
      simp [byteLength]
  | cons first _ ih =>
      rw [List.append_assoc, readContents_encoded notBackslash first, ih, Text.byteLength_append,
        ← Nat.add_assoc]
      rfl

/-! ## What the reader of strings accepts -/

theorem prepend_eq_ok {character : Char} {reading : StringReading} {characters : List Char}
    {after : Cursor} (read : prepend character reading = (.ok characters, after)) :
    ∃ rest, reading = (.ok rest, after) ∧ characters = character :: rest := by
  obtain ⟨outcome, cursor⟩ := reading
  obtain ⟨isContent, rfl⟩ := Prod.mk.inj read
  cases outcome with
  | error error => cases isContent
  | ok rest => exact ⟨rest, rfl, (Except.ok.inj isContent).symm⟩

/-- The text is one way of writing the content, up to a closing quote and what follows it. -/
def IsContent (quote : Char) (position : Nat) (text characters : List Char) (after : Cursor) :
    Prop :=
  ∃ written, EncodesAll quote characters written ∧ text = written ++ quote :: after.rest ∧
    after.position = position + byteLength written + quote.utf8Size

theorem IsContent.cons {quote character : Char} {position : Nat}
    {written rest characters : List Char} {after : Cursor}
    (first : Encodes quote character written)
    (content : IsContent quote (position + byteLength written) rest characters after) :
    IsContent quote position (written ++ rest) (character :: characters) after := by
  obtain ⟨following, encodes, rfl, ended⟩ := content
  refine ⟨written ++ following, .cons first encodes, by simp, ?_⟩
  rw [ended, Text.byteLength_append, Nat.add_assoc position]

theorem readContents_eq_ok {quote : Char} {start position : Nat} {text characters : List Char}
    {after : Cursor} (read : readContents quote start position text = (.ok characters, after)) :
    IsContent quote position text characters after := by
  fun_induction readContents quote start position text generalizing characters with
  | case2 position rest =>
      cases read
      exact ⟨[], .nil, rfl, rfl⟩
  | case3 position character rest notQuote notBackslash ih =>
      obtain ⟨characters, readRest, rfl⟩ := prepend_eq_ok read
      exact (ih readRest).cons (.itself notQuote notBackslash)
  | case5 position backslash notQuote isBackslash first second rest character named ih =>
      obtain rfl := of_not_not isBackslash
      obtain ⟨characters, readRest, rfl⟩ := prepend_eq_ok read
      have content := ih readRest
      rw [← byteLength_byteEscape named] at content
      exact content.cons (.byte named)
  | case8 position backslash notQuote isBackslash first second third fourth rest character named
      ih =>
      obtain rfl := of_not_not isBackslash
      obtain ⟨characters, readRest, rfl⟩ := prepend_eq_ok read
      have content := ih readRest
      rw [← byteLength_unitEscape named] at content
      exact content.cons (.unit named)
  | case11 position backslash notQuote isBackslash letter rest _ notByte _ notUnit ih =>
      obtain rfl := of_not_not isBackslash
      obtain ⟨characters, readRest, rfl⟩ := prepend_eq_ok read
      have sameLength : position + 1 + letter.utf8Size =
          position + byteLength ['\\', letter] := by
        rw [byteLength, byteLength, byteLength, Nat.add_zero, Nat.add_assoc]
        rfl
      have content := ih readRest
      rw [sameLength] at content
      exact content.cons (.behindBackslash notByte notUnit)
  | case1 => cases read
  | case4 => cases read
  | case6 => cases read
  | case7 => cases read
  | case9 => cases read
  | case10 => cases read

theorem readString_encodedAll {quote : Char} {characters written : List Char}
    (notBackslash : quote ≠ '\\') (encodes : EncodesAll quote characters written)
    (start : Nat) (rest : List Char) :
    readString quote start (written ++ quote :: rest) =
      (.ok ⟨.stringLiteral, some (String.ofList characters), start⟩,
        ⟨rest, start + byteLength (quote :: written ++ [quote])⟩) := by
  have sameEnd : start + quote.utf8Size + byteLength written + quote.utf8Size =
      start + byteLength (quote :: written ++ [quote]) := by
    simp only [List.cons_append, byteLength, Text.byteLength_append]
    omega
  rw [← sameEnd, readString, readContents_encodedAll notBackslash encodes]
  rfl

theorem readString_eq_ok {quote : Char} {start : Nat} {contents : List Char} {token : Token}
    {after : Cursor} (read : readString quote start contents = (.ok token, after)) :
    ∃ characters written, EncodesAll quote characters written ∧
      contents = written ++ quote :: after.rest ∧
        token = ⟨.stringLiteral, some (String.ofList characters), start⟩ ∧
          after.position = start + byteLength (quote :: written ++ [quote]) := by
  unfold readString at read
  generalize reading : readContents quote start _ contents = parts at read
  obtain ⟨outcome, cursor⟩ := parts
  obtain ⟨isString, rfl⟩ := Prod.mk.inj read
  cases outcome with
  | error error => cases isString
  | ok characters =>
      obtain ⟨written, encodes, same, ended⟩ := readContents_eq_ok reading
      refine ⟨characters, written, encodes, same, (Except.ok.inj isString).symm, ?_⟩
      rw [ended]
      simp only [List.cons_append, byteLength, Text.byteLength_append]
      omega

end Formula.Lexer
