import Formula.Proofs.Numeral.Strings
import Formula.Proofs.Token.Places

/-!
# Mirrored marks

Commas and periods change their parts between the two habits of writing numbers.  A text in which
they are exchanged is read in the exchanged format as the same numeral.  The guessed format is the
exchanged one too, except for a lone mark that may group thousands: that is where the guess favours
the period, unless it is told to take such a mark for a group separator.
-/

namespace Formula

open Lexer (AllDigits)

namespace Text

/-! ## Exchanging commas and periods -/

def isMark (character : Char) : Bool :=
  character == ',' || character == '.'

def mirrored (character : Char) : Char :=
  if character = ',' then '.' else if character = '.' then ',' else character

def mirror (text : String) : String :=
  String.ofList (text.toList.map mirrored)

theorem mirrored_of_not_isMark {character : Char} (notMark : isMark character = false) :
    mirrored character = character := by
  simp only [isMark, Bool.or_eq_false_iff, beq_eq_false_iff_ne] at notMark
  rw [mirrored, if_neg notMark.1, if_neg notMark.2]

theorem mirrored_cases (character : Char) :
    mirrored character = character ∨ character = ',' ∧ mirrored character = '.' ∨
      character = '.' ∧ mirrored character = ',' := by
  cases isMark_ : isMark character with
  | false => exact .inl (mirrored_of_not_isMark isMark_)
  | true =>
      rcases (by simpa [isMark] using isMark_ : character = ',' ∨ character = '.') with rfl | rfl
      · exact .inr (.inl ⟨rfl, rfl⟩)
      · exact .inr (.inr ⟨rfl, rfl⟩)

theorem mirrored_mirrored (character : Char) : mirrored (mirrored character) = character := by
  rcases mirrored_cases character with same | ⟨rfl, -⟩ | ⟨rfl, -⟩
  · rw [same, same]
  · rfl
  · rfl

theorem mirrored_eq_iff {character other : Char} :
    mirrored character = other ↔ character = mirrored other :=
  ⟨fun same => same ▸ (mirrored_mirrored character).symm,
    fun same => same ▸ mirrored_mirrored other⟩

theorem mirrored_injective : Function.Injective mirrored :=
  Function.LeftInverse.injective mirrored_mirrored

/-- What tells neither of the two from the other is kept. -/
theorem congr_mirrored {α : Sort*} (read : Char → α) (same : read ',' = read '.')
    (character : Char) : read (mirrored character) = read character := by
  rcases mirrored_cases character with kept | ⟨rfl, -⟩ | ⟨rfl, -⟩
  · rw [kept]
  · exact same.symm
  · exact same

theorem byteLength_mirrored (text : List Char) :
    byteLength (text.map mirrored) = byteLength text := by
  induction text with
  | nil => rfl
  | cons character text ih =>
      rw [List.map_cons, byteLength, byteLength, ih, congr_mirrored Char.utf8Size rfl]

theorem isDigit_mirrored (character : Char) :
    (mirrored character).isDigit = character.isDigit :=
  congr_mirrored Char.isDigit rfl character

theorem map_mirrored_of_unmarked {text : List Char} (noComma : ',' ∉ text)
    (noPeriod : '.' ∉ text) : text.map mirrored = text := by
  have kept : ∀ character ∈ text, mirrored character = character := by
    intro character member
    rcases mirrored_cases character with same | ⟨rfl, -⟩ | ⟨rfl, -⟩
    · exact same
    · exact absurd member noComma
    · exact absurd member noPeriod
  exact (List.map_congr_left kept).trans (List.map_id text)

theorem map_mirrored_of_allDigits {digits : List Char} (all : AllDigits digits) :
    digits.map mirrored = digits :=
  map_mirrored_of_unmarked (fun member => nomatch all ',' member)
    (fun member => nomatch all '.' member)

theorem allDigits_map_mirrored_iff {text : List Char} :
    AllDigits (text.map mirrored) ↔ AllDigits text := by
  simp only [AllDigits, List.forall_mem_map, isDigit_mirrored]

end Text

open Text (mirrored mirrored_injective isDigit_mirrored)

/-! ## Reading in the exchanged format -/

def NumberFormat.mirrored (format : NumberFormat) : NumberFormat :=
  ⟨Text.mirrored format.decimalSeparator, Text.mirrored format.groupSeparator⟩

namespace Numeral

theorem readSign_cons (first : Char) (rest : List Char) :
    readSign (first :: rest) =
      if first = '-' then (true, rest)
      else if first = '+' then (false, rest)
      else (false, first :: rest) := by
  unfold readSign
  grind

theorem readSign_mirrored (text : List Char) :
    readSign (text.map mirrored) = ((readSign text).1, (readSign text).2.map mirrored) := by
  cases text with
  | nil => rfl
  | cons first rest =>
      have minus : mirrored first = '-' ↔ first = '-' := Text.mirrored_eq_iff
      have plus : mirrored first = '+' ↔ first = '+' := Text.mirrored_eq_iff
      simp only [List.map_cons, readSign_cons, minus, plus]
      split_ifs
      · rfl
      · rfl
      · rfl

theorem readWhole_mirrored (group : Char) (started : Bool) (text : List Char) :
    readWhole (mirrored group) started (text.map mirrored) =
      ((readWhole group started text).1, (readWhole group started text).2.map mirrored) := by
  induction text generalizing started with
  | nil => rfl
  | cons character text ih =>
      simp only [List.map_cons, readWhole, isDigit_mirrored, mirrored_injective.eq_iff, ih]
      split_ifs with isDigit
      · have kept := Text.map_mirrored_of_allDigits (List.forall_mem_singleton.mpr isDigit)
        rw [List.map_singleton, List.singleton_inj] at kept
        rw [kept]
      · rfl
      · rfl

theorem readFraction_mirrored (decimal : Char) (text : List Char) :
    readFraction (mirrored decimal) (text.map mirrored) =
      ((readFraction decimal text).1, (readFraction decimal text).2.map mirrored) := by
  cases text with
  | nil => rfl
  | cons character text =>
      have sameDigits : Char.isDigit ∘ mirrored = Char.isDigit := funext isDigit_mirrored
      simp only [List.map_cons, readFraction, mirrored_injective.eq_iff]
      split_ifs
      · rw [List.takeWhile_map, List.dropWhile_map, sameDigits, Text.map_mirrored_of_allDigits]
        exact fun digit member => List.mem_takeWhile_imp member
      · rfl

theorem readExponent?_mirrored (text : List Char) :
    readExponent? (text.map mirrored) = readExponent? text := by
  cases text with
  | nil => rfl
  | cons mark rest =>
      have small : mirrored mark = 'e' ↔ mark = 'e' := Text.mirrored_eq_iff
      have large : mirrored mark = 'E' ↔ mark = 'E' := Text.mirrored_eq_iff
      refine Option.ext fun exponent => ?_
      rw [List.map_cons, readExponent?_cons_eq_some_iff, readExponent?_cons_eq_some_iff,
        readSign_mirrored, small, large, Text.allDigits_map_mirrored_iff]
      refine and_congr_right fun _ => ?_
      by_cases all : AllDigits (readSign rest).2
      · rw [Text.map_mirrored_of_allDigits all]
      · simp only [all, false_and, and_false]

theorem readTrimmed?_mirrored (format : NumberFormat) (text : List Char) :
    readTrimmed? format.mirrored (text.map mirrored) = readTrimmed? format text := by
  simp only [readTrimmed?, NumberFormat.mirrored, readSign_mirrored, readWhole_mirrored,
    readFraction_mirrored, readExponent?_mirrored]

end Numeral

/-! ## Guessing -/

namespace DecimalMark

variable {text : List Char} {target other : Char} {offset : Nat}

theorem lastOffset?_eq_none_iff : lastOffset? target text = none ↔ target ∉ text := by
  induction text with
  | nil => simp [lastOffset?]
  | cons character text ih =>
      unfold lastOffset?
      grind

theorem lastOffset?_eq_some (found : lastOffset? target text = some offset) :
    ∃ before after, text = before ++ target :: after ∧ target ∉ after ∧
      offset = Text.byteLength before := by
  induction text generalizing offset with
  | nil => cases found
  | cons character text ih =>
      unfold lastOffset? at found
      split at found
      · next later isLater =>
          cases found
          obtain ⟨before, after, rfl, last, rfl⟩ := ih isLater
          exact ⟨character :: before, after, rfl, last, Nat.add_comm _ _⟩
      · next none_ =>
          split at found
          · next same =>
              cases found
              subst same
              exact ⟨[], text, rfl, lastOffset?_eq_none_iff.mp none_, rfl⟩
          · cases found

/-- One character stands at each offset. -/
theorem eq_of_lastOffset? (found : lastOffset? target text = some offset)
    (found' : lastOffset? other text = some offset) : target = other := by
  obtain ⟨before, after, same, -, isOffset⟩ := lastOffset?_eq_some found
  obtain ⟨before', after', same', -, isOffset'⟩ := lastOffset?_eq_some found'
  rw [same] at same'
  obtain rfl := Text.eq_of_byteLength_eq same' (isOffset.symm.trans isOffset')
  exact (List.cons.inj (List.append_cancel_left same')).1

theorem lastOffset?_mirrored (target : Char) (text : List Char) :
    lastOffset? (mirrored target) (text.map mirrored) = lastOffset? target text := by
  induction text with
  | nil => rfl
  | cons character text ih =>
      simp only [List.map_cons, lastOffset?, ih, mirrored_injective.eq_iff,
        Text.congr_mirrored Char.utf8Size rfl]

theorem unsignedLength_eq (text : List Char) :
    unsignedLength text = Text.byteLength (Numeral.readSign text).2 := by
  fun_cases Numeral.readSign text with
  | case1 rest => rfl
  | case2 rest => rfl
  | case3 unsigned notMinus notPlus =>
      unfold unsignedLength
      split
      · cases notMinus _ rfl
      · cases notPlus _ rfl
      · rfl

theorem mayGroup_mirrored (text : List Char) (offset : Nat) :
    mayGroup (text.map mirrored) offset = mayGroup text offset := by
  simp only [mayGroup, groupingPlausible, unsignedLength_eq, Numeral.readSign_mirrored,
    Text.byteLength_mirrored]

/-- The text has one comma or period in all, four bytes in front of its end, and may be a number of
four to six digits with its thousands grouped. -/
structure IsAmbiguous (text : List Char) : Prop where
  lone : ∃ before mark after, text = before ++ mark :: after ∧ Text.isMark mark = true ∧
    (∀ character ∈ before ++ after, Text.isMark character = false) ∧
      Text.byteLength (mark :: after) = 4
  atLeast : 5 ≤ unsignedLength text
  atMost : unsignedLength text ≤ 7

theorem isAmbiguous_of_mayGroup {mark other : Char}
    (marks : ∀ character, Text.isMark character = true ↔ character = mark ∨ character = other)
    (found : lastOffset? mark text = some offset) (absent : lastOffset? other text = none)
    (single : text.count mark ≤ 1) (grouping : mayGroup text offset = true) :
    IsAmbiguous text := by
  obtain ⟨before, after, rfl, last, rfl⟩ := lastOffset?_eq_some found
  have noOther := lastOffset?_eq_none_iff.mp absent
  simp only [mayGroup, groupingPlausible, Bool.and_eq_true, decide_eq_true_eq, beq_iff_eq,
    Text.byteLength_append] at grouping
  obtain ⟨⟨atLeast, atMost⟩, fromEnd⟩ := grouping
  have noneBefore : mark ∉ before := by
    intro member
    have := List.count_pos_iff.mpr member
    rw [List.count_append, List.count_cons_self] at single
    omega
  refine ⟨⟨before, mark, after, rfl, (marks mark).mpr (.inl rfl), ?_, by omega⟩, atLeast, atMost⟩
  intro character member
  rw [← Bool.not_eq_true, marks]
  grind

section

variable {ambiguousAsThousands : Bool}
  (decided : ambiguousAsThousands = true ∨ ¬ IsAmbiguous text)
include decided

/-- Where only one of the marks occurs and it does so once, the request does not matter. -/
theorem count_or_mayGroup {mark other : Char}
    (marks : ∀ character, Text.isMark character = true ↔ character = mark ∨ character = other)
    (found : lastOffset? mark text = some offset) (absent : lastOffset? other text = none) :
    1 < text.count mark ∨
      (mayGroup text offset && ambiguousAsThousands) = mayGroup text offset := by
  rcases Nat.lt_or_ge 1 (text.count mark) with several | single
  · exact .inl several
  · right
    rcases decided with rfl | notAmbiguous
    · exact Bool.and_true _
    · have notGrouping : mayGroup text offset = false := by
        rw [← Bool.not_eq_true]
        exact fun grouping =>
          notAmbiguous (isAmbiguous_of_mayGroup marks found absent single grouping)
      rw [notGrouping, Bool.false_and]

/-- The guesses for a text and for its mirror image are mirror images. -/
theorem format_guessTrimmed_mirrored (marked : ',' ∈ text ∨ '.' ∈ text) :
    (guessTrimmed (text.map mirrored) ambiguousAsThousands).format =
      (guessTrimmed text ambiguousAsThousands).format.mirrored := by
  have comma : lastOffset? ',' (text.map mirrored) = lastOffset? '.' text :=
    lastOffset?_mirrored '.' text
  have period : lastOffset? '.' (text.map mirrored) = lastOffset? ',' text :=
    lastOffset?_mirrored ',' text
  have commas : (text.map mirrored).count ',' = text.count '.' :=
    List.count_map_of_injective text mirrored mirrored_injective '.'
  have periods : (text.map mirrored).count '.' = text.count ',' :=
    List.count_map_of_injective text mirrored mirrored_injective ','
  unfold guessTrimmed
  rw [comma, period, commas, periods]
  simp only [mayGroup_mirrored]
  cases commaFound : lastOffset? ',' text with
  | none =>
      cases periodFound : lastOffset? '.' text with
      | none =>
          rw [lastOffset?_eq_none_iff] at commaFound periodFound
          exact absurd marked (not_or.mpr ⟨commaFound, periodFound⟩)
      | some periodAt =>
          dsimp only
          rcases count_or_mayGroup decided (by simp [Text.isMark, or_comm]) periodFound commaFound
            with several | same
          · rw [if_pos several, if_pos several]
            rfl
          · rw [same]
            split_ifs
            · rfl
            · rfl
            · rfl
  | some commaAt =>
      cases periodFound : lastOffset? '.' text with
      | none =>
          dsimp only
          rcases count_or_mayGroup decided (by simp [Text.isMark]) commaFound periodFound
            with several | same
          · rw [if_pos several, if_pos several]
            rfl
          · rw [same]
            split_ifs
            · rfl
            · rfl
            · rfl
      | some periodAt =>
          have different : commaAt ≠ periodAt := by
            rintro rfl
            cases eq_of_lastOffset? commaFound periodFound
          dsimp only
          split_ifs
          · omega
          · rfl
          · rfl
          · omega

end

end DecimalMark

/-! ## Conversion -/

namespace Conventions

section

variable {conventions : Conventions} {text : String}
  (guessed : conventions.numberFormat = none)
  (decided : conventions.ambiguousAsThousands = true ∨
    ¬ DecimalMark.IsAmbiguous (Text.trim text.toList))
include guessed decided

theorem read?_mirror (target : NumericType) :
    Number.read? target (conventions.formatOf (Text.mirror text)) (Text.mirror text) =
      Number.read? target (conventions.formatOf text) text := by
  have trimmed : Text.trim (Text.mirror text).toList = (Text.trim text.toList).map mirrored := by
    rw [Text.mirror, String.toList_ofList,
      Text.trim_map (Text.congr_mirrored Text.isBlank (by decide))]
  simp only [Number.read?, Numeral.read?, formatOf, guessed, Option.getD_none, DecimalMark.guess,
    trimmed]
  generalize Text.trim text.toList = text at *
  by_cases marked : ',' ∈ text ∨ '.' ∈ text
  · rw [DecimalMark.format_guessTrimmed_mirrored decided marked, Numeral.readTrimmed?_mirrored]
  · obtain ⟨noComma, noPeriod⟩ := not_or.mp marked
    rw [Text.map_mirrored_of_unmarked noComma noPeriod]

theorem readString?_mirror :
    conventions.readString? (Text.mirror text) = conventions.readString? text := by
  simp only [readString?, read?_mirror guessed decided]

/-- A string and its mirror image become the same number, or both stay strings. -/
theorem convert_mirror (parses : conventions.parsesStrings = true) (number : Number) :
    conventions.convert (.string text) = .number number ↔
      conventions.convert (.string (Text.mirror text)) = .number number := by
  rw [convert_eq_number_iff parses, convert_eq_number_iff parses,
    readString?_mirror guessed decided]

end

/-- The mark of `12,5` is too near to its end to group thousands. -/
theorem convert_mirror_of_fraction :
    (Conventions.ofType .float64).numberFormat = none ∧
      ((Conventions.ofType .float64).ambiguousAsThousands = true ∨
        ¬ DecimalMark.IsAmbiguous (Text.trim "12,5".toList)) ∧
        (Conventions.ofType .float64).parsesStrings = true ∧ Text.mirror "12,5" = "12.5" ∧
          ∃ number, (Conventions.ofType .float64).convert (.string "12,5") = .number number ∧
            (Conventions.ofType .float64).convert (.string "12.5") = .number number := by
  have short : ¬ DecimalMark.IsAmbiguous (Text.trim "12,5".toList) :=
    fun ambiguous => absurd ambiguous.atLeast (by decide)
  have mirrored : Text.mirror "12,5" = "12.5" := by decide
  obtain ⟨number, converted⟩ : ∃ number,
      (Conventions.ofType .float64).convert (.string "12,5") = .number number :=
    ⟨.float64 (Numeral.toBinary ⟨false, "12".toList, "5".toList, none⟩),
      (convert_eq_number_iff rfl).mpr (by decide)⟩
  have same := (convert_mirror rfl (.inr short) rfl number).mp converted
  rw [mirrored] at same
  exact ⟨rfl, .inr short, rfl, mirrored, number, converted, same⟩

/-- Without the request a lone comma groups thousands where a lone period does not. -/
example : (ofType .int32).readString? "1,234" = some (.int32 1234) ∧
    (ofType .int32).readString? (Text.mirror "1,234") ≠ some (.int32 1234) := by
  decide

end Conventions

end Formula
