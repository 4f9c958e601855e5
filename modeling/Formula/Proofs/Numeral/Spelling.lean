import Formula.Numeral.Basic
import Formula.Proofs.Text.Trim
import Formula.Proofs.Token.Reading
import Formula.Rounding

/-!
# Numeric text

The texts that spell a numeral, stated by their parts and without the reader: a sign, digits with
group separators among them, a decimal separator with digits, and an exponent.  Where the separators
are different and can be taken for nothing else, the reader finds the numeral that a text spells,
unless its exponent is beyond 64 bits.
-/

namespace Formula

open Lexer (AllDigits run_append)

namespace NumberFormat

/-- The character is neither a digit, a sign nor an exponent mark. -/
def Separates (character : Char) : Prop :=
  character.isDigit = false ∧ character ∉ ['+', '-', 'e', 'E']

instance (character : Char) : Decidable (Separates character) :=
  inferInstanceAs (Decidable (_ ∧ _))

/-- The separators are different and can be taken for nothing else. -/
def Unambiguous (format : NumberFormat) : Prop :=
  format.decimalSeparator ≠ format.groupSeparator ∧
    Separates format.decimalSeparator ∧ Separates format.groupSeparator

instance (format : NumberFormat) : Decidable format.Unambiguous :=
  inferInstanceAs (Decidable (_ ∧ _))

theorem unambiguous_of_mark (mark : DecimalMark) : mark.format.Unambiguous := by
  cases mark <;> decide

end NumberFormat

namespace Numeral

/-! ## Parts of numeric text -/

inductive SpellsSign : (negative : Bool) → (text : List Char) → Prop
  | minus : SpellsSign true ['-']
  | plus : SpellsSign false ['+']
  | unsigned : SpellsSign false []

theorem spellsSign_sign (negative : Bool) : SpellsSign negative (Text.sign negative) := by
  cases negative with
  | false => exact .unsigned
  | true => exact .minus

/-- Digits that begin with one, and group separators, which do not count. -/
structure SpellsWhole (group : Char) (digits text : List Char) : Prop where
  filtered : text.filter Char.isDigit = digits
  allowed : ∀ character ∈ text, character.isDigit = true ∨ character = group
  starts : ∀ character ∈ text.head?, character.isDigit = true

theorem spellsWhole_of_allDigits {digits : List Char} (all : AllDigits digits) (group : Char) :
    SpellsWhole group digits digits where
  filtered := List.filter_eq_self.mpr all
  allowed character member := .inl (all character member)
  starts character first := all character (List.mem_of_mem_head? first)

/-- A decimal separator may stand without digits. -/
inductive SpellsFraction (decimal : Char) : (digits text : List Char) → Prop
  | absent : SpellsFraction decimal [] []
  | present {digits : List Char} (all : AllDigits digits) :
      SpellsFraction decimal digits (decimal :: digits)

inductive SpellsExponent : Option Int → (text : List Char) → Prop
  | absent : SpellsExponent none []
  | present {mark : Char} {negative : Bool} {sign digits : List Char}
      (isMark : mark = 'e' ∨ mark = 'E') (isSign : SpellsSign negative sign)
      (nonempty : digits ≠ []) (all : AllDigits digits) :
      SpellsExponent (some (signed negative (Text.ofDigits digits))) (mark :: (sign ++ digits))

/-- The text has at least one digit before the exponent. -/
inductive Spells (format : NumberFormat) : Numeral → (text : List Char) → Prop
  | intro {negative : Bool} {whole fraction : List Char} {exponent : Option Int}
      {signText wholeText fractionText exponentText : List Char}
      (isSign : SpellsSign negative signText)
      (isWhole : SpellsWhole format.groupSeparator whole wholeText)
      (isFraction : SpellsFraction format.decimalSeparator fraction fractionText)
      (isExponent : SpellsExponent exponent exponentText)
      (nonempty : whole ≠ [] ∨ fraction ≠ []) :
      Spells format ⟨negative, whole, fraction, exponent⟩
        (signText ++ (wholeText ++ (fractionText ++ exponentText)))

/-- The text between its blanks spells the numeral. -/
def IsSpelledBy (numeral : Numeral) (format : NumberFormat) (text : String) : Prop :=
  Spells format numeral (Text.trim text.toList)

/-- The exponent, if there is one, fits into 64 bits. -/
def ExponentFits (numeral : Numeral) : Prop :=
  ∀ exponent ∈ numeral.exponent, exponentInRange exponent = true

instance (numeral : Numeral) : Decidable numeral.ExponentFits :=
  inferInstanceAs (Decidable (∀ _ ∈ _, _))

/-! ## The characters of numeric text -/

theorem SpellsSign.mem {negative : Bool} {text : List Char} (isSign : SpellsSign negative text) :
    ∀ character ∈ text, character ∈ ['+', '-'] := by
  cases isSign with
  | minus => simp
  | plus => simp
  | unsigned => exact nofun

theorem SpellsFraction.mem {decimal : Char} {digits text : List Char}
    (isFraction : SpellsFraction decimal digits text) :
    ∀ character ∈ text, character = decimal ∨ character.isDigit = true := by
  cases isFraction with
  | absent => exact nofun
  | present all =>
      exact List.forall_mem_cons.mpr ⟨.inl rfl, fun digit member => .inr (all digit member)⟩

theorem SpellsExponent.mem {exponent : Option Int} {text : List Char}
    (isExponent : SpellsExponent exponent text) :
    ∀ character ∈ text, character ∈ ['+', '-', 'e', 'E'] ∨ character.isDigit = true := by
  cases isExponent with
  | absent => exact nofun
  | present isMark isSign nonempty all =>
      refine List.forall_mem_cons.mpr ⟨.inl ?_, List.forall_mem_append.mpr ⟨?_, ?_⟩⟩
      · rcases isMark with rfl | rfl <;> simp
      · intro character member
        have := isSign.mem character member
        grind
      · exact fun digit member => .inr (all digit member)

theorem Spells.mem {format : NumberFormat} {numeral : Numeral} {text : List Char}
    (spelled : Spells format numeral text) :
    ∀ character ∈ text, character.isDigit = true ∨
      character ∈ ['+', '-', 'e', 'E', format.decimalSeparator, format.groupSeparator] := by
  cases spelled with
  | intro isSign isWhole isFraction isExponent =>
      simp only [List.forall_mem_append]
      refine ⟨?_, ?_, ?_, ?_⟩
      · intro character member
        have := isSign.mem character member
        grind
      · intro character member
        have := isWhole.allowed character member
        grind
      · intro character member
        have := isFraction.mem character member
        grind
      · intro character member
        have := isExponent.mem character member
        grind

theorem not_isBlank_of_isDigit {character : Char} (isDigit : character.isDigit = true) :
    Text.isBlank character = false := by
  obtain ⟨lower, upper⟩ := Char.isDigit_iff_toNat.mp isDigit
  change 48 ≤ character.toNat at lower
  change character.toNat ≤ 57 at upper
  simp only [Text.isBlank, Bool.or_eq_false_iff, Bool.and_eq_false_iff, decide_eq_false_iff_not,
    beq_eq_false_iff_ne]
  omega

theorem Spells.visible {numeral : Numeral} {text : List Char}
    (spelled : Spells .invariant numeral text) :
    ∀ character ∈ text, Text.isBlank character = false := by
  intro character member
  rcases spelled.mem character member with isDigit | isMark
  · exact not_isBlank_of_isDigit isDigit
  · have visibleMarks : ∀ mark ∈ ['+', '-', 'e', 'E', '.', ','], Text.isBlank mark = false := by
      simp [Text.isBlank]
    exact visibleMarks character isMark

/-- Text without blanks stands for itself. -/
theorem Spells.isSpelledBy {format : NumberFormat} {numeral : Numeral} {text : List Char}
    (spelled : Spells format numeral text)
    (visible : ∀ character ∈ text, Text.isBlank character = false) :
    numeral.IsSpelledBy format (String.ofList text) := by
  rwa [IsSpelledBy, String.toList_ofList, Text.trim_of_visible visible]

/-! ## What the readers accept -/

theorem spellsSign_readSign (text : List Char) :
    ∃ sign, SpellsSign (readSign text).1 sign ∧ text = sign ++ (readSign text).2 := by
  unfold readSign
  split
  · exact ⟨_, .minus, rfl⟩
  · exact ⟨_, .plus, rfl⟩
  · exact ⟨_, .unsigned, rfl⟩

theorem spellsWhole_readWhole (group : Char) (started : Bool) (text : List Char) :
    ∃ wholeText, text = wholeText ++ (readWhole group started text).2 ∧
      wholeText.filter Char.isDigit = (readWhole group started text).1 ∧
      (∀ character ∈ wholeText, character.isDigit = true ∨ character = group) ∧
        (started = false → ∀ character ∈ wholeText.head?, character.isDigit = true) := by
  fun_induction readWhole group started text with
  | case1 => exact ⟨[], rfl, rfl, nofun, nofun⟩
  | case2 started character text isDigit digits rest read ih =>
      obtain ⟨wholeText, same, filtered, allowed, -⟩ := ih
      rw [read] at same filtered
      refine ⟨character :: wholeText, by rw [same]; rfl, by simp [isDigit, filtered], ?_, ?_⟩
      · exact List.forall_mem_cons.mpr ⟨.inl isDigit, allowed⟩
      · rintro - _ ⟨⟩
        exact isDigit
  | case3 started character text notDigit isGroup ih =>
      obtain ⟨wholeText, same, filtered, allowed, -⟩ := ih
      refine ⟨character :: wholeText, congrArg _ same, by simp [notDigit, filtered], ?_, ?_⟩
      · exact List.forall_mem_cons.mpr ⟨.inr isGroup.1, allowed⟩
      · intro notStarted
        rw [notStarted] at isGroup
        cases isGroup.2
  | case4 => exact ⟨[], rfl, rfl, nofun, nofun⟩

theorem spellsFraction_readFraction (decimal : Char) (text : List Char) :
    ∃ fractionText, SpellsFraction decimal (readFraction decimal text).1 fractionText ∧
      text = fractionText ++ (readFraction decimal text).2 := by
  fun_cases readFraction decimal text with
  | case1 => exact ⟨[], .absent, rfl⟩
  | case2 rest =>
      refine ⟨_, .present fun digit member => List.mem_takeWhile_imp member, ?_⟩
      rw [List.cons_append, List.takeWhile_append_dropWhile]
  | case3 => exact ⟨[], .absent, rfl⟩

/-- A mark is followed by a sign and digits whose value fits. -/
theorem readExponent?_cons_eq_some_iff {mark : Char} {rest : List Char} {exponent : Option Int} :
    readExponent? (mark :: rest) = some exponent ↔
      (mark = 'e' ∨ mark = 'E') ∧ (readSign rest).2 ≠ [] ∧ AllDigits (readSign rest).2 ∧
        exponentInRange (signed (readSign rest).1 (Text.ofDigits (readSign rest).2)) = true ∧
          exponent = some (signed (readSign rest).1 (Text.ofDigits (readSign rest).2)) := by
  unfold readExponent?
  dsimp only
  obtain ⟨negative, digits⟩ := readSign rest
  have all_iff : digits.all Char.isDigit = true ↔ AllDigits digits := List.all_eq_true
  rw [← all_iff]
  grind [signed]

theorem spellsExponent_of_readExponent? {text : List Char} {exponent : Option Int}
    (read : readExponent? text = some exponent) :
    SpellsExponent exponent text ∧ ∀ value ∈ exponent, exponentInRange value = true := by
  cases text with
  | nil =>
      cases read
      exact ⟨.absent, nofun⟩
  | cons mark rest =>
      obtain ⟨isMark, nonempty, all, fits, rfl⟩ := readExponent?_cons_eq_some_iff.mp read
      obtain ⟨sign, isSign, same⟩ := spellsSign_readSign rest
      generalize readSign rest = parts at *
      subst same
      refine ⟨.present isMark isSign nonempty all, ?_⟩
      rintro _ ⟨⟩
      exact fits

theorem isSpelledBy_of_read? {format : NumberFormat} {text : String} {numeral : Numeral}
    (read : read? format text = some numeral) :
    numeral.IsSpelledBy format text ∧ numeral.ExponentFits := by
  unfold read? readTrimmed? at read
  unfold IsSpelledBy
  generalize Text.trim text.toList = trimmed at *
  obtain ⟨signText, isSign, sameSign⟩ := spellsSign_readSign trimmed
  generalize readSign trimmed = parts at *
  obtain ⟨negative, afterSign⟩ := parts
  dsimp only at *
  obtain ⟨wholeText, sameWhole, filtered, allowed, starts⟩ :=
    spellsWhole_readWhole format.groupSeparator false afterSign
  generalize readWhole format.groupSeparator false afterSign = parts at *
  obtain ⟨whole, afterWhole⟩ := parts
  dsimp only at *
  obtain ⟨fractionText, isFraction, sameFraction⟩ :=
    spellsFraction_readFraction format.decimalSeparator afterWhole
  generalize readFraction format.decimalSeparator afterWhole = parts at *
  obtain ⟨fraction, afterFraction⟩ := parts
  dsimp only at *
  split at read
  · cases read
  · next nonempty =>
      obtain ⟨exponent, readExponent, rfl⟩ := Option.map_eq_some_iff.mp read
      obtain ⟨isExponent, fits⟩ := spellsExponent_of_readExponent? readExponent
      subst sameFraction sameWhole sameSign
      exact ⟨.intro isSign ⟨filtered, allowed, starts rfl⟩ isFraction isExponent
        (not_and_or.mp nonempty), fits⟩

/-! ## What the readers find -/

theorem notMem_signs_of_isDigit {character : Char} (isDigit : character.isDigit = true) :
    character ∉ ['-', '+'] := by
  intro isSign
  have : character = '-' ∨ character = '+' := by simpa using isSign
  rcases this with rfl | rfl <;> contradiction

theorem readSign_append {negative : Bool} {sign rest : List Char}
    (isSign : SpellsSign negative sign)
    (unsigned : ∀ character ∈ rest.head?, character ∉ ['-', '+']) :
    readSign (sign ++ rest) = (negative, rest) := by
  cases isSign with
  | minus => rfl
  | plus => rfl
  | unsigned =>
      cases rest with
      | nil => rfl
      | cons character rest =>
          have notSign := unsigned character rfl
          unfold readSign
          grind

theorem readWhole_append {group : Char} {digits text rest : List Char}
    (isWhole : SpellsWhole group digits text)
    (stops : ∀ character ∈ rest.head?, character.isDigit = false ∧ character ≠ group) :
    readWhole group false (text ++ rest) = (digits, rest) := by
  have stopped (started : Bool) : readWhole group started rest = ([], rest) := by
    cases rest with
    | nil => rfl
    | cons character rest =>
        obtain ⟨notDigit, notGroup⟩ := stops character rfl
        simp [readWhole, notDigit, notGroup]
  -- After the first digit a separator may come at any place.
  have continued {text : List Char}
      (allowed : ∀ character ∈ text, character.isDigit = true ∨ character = group) :
      readWhole group true (text ++ rest) = (text.filter Char.isDigit, rest) := by
    induction text with
    | nil => exact stopped true
    | cons character text ih =>
        obtain ⟨isAllowed, allowed⟩ := List.forall_mem_cons.mp allowed
        cases isDigit : character.isDigit with
        | true => simp [readWhole, isDigit, ih allowed]
        | false =>
            obtain rfl : character = group := isAllowed.resolve_left (by simp [isDigit])
            simp [readWhole, isDigit, ih allowed]
  obtain ⟨rfl, allowed, starts⟩ := isWhole
  cases text with
  | nil => exact stopped false
  | cons character text =>
      have isDigit := starts character rfl
      simp [readWhole, isDigit, continued (List.forall_mem_cons.mp allowed).2]

theorem readFraction_append {decimal : Char} {digits text rest : List Char}
    (isFraction : SpellsFraction decimal digits text)
    (stops : ∀ character ∈ rest.head?, character.isDigit = false ∧ character ≠ decimal) :
    readFraction decimal (text ++ rest) = (digits, rest) := by
  cases isFraction with
  | absent =>
      cases rest with
      | nil => rfl
      | cons character rest => simp [readFraction, (stops character rfl).2]
  | present all =>
      obtain ⟨taken, dropped⟩ := run_append all fun character first => (stops character first).1
      simp [readFraction, taken, dropped]

theorem readExponent?_of_spells {text : List Char} {exponent : Option Int}
    (isExponent : SpellsExponent exponent text) :
    readExponent? text =
      if ∀ value ∈ exponent, exponentInRange value = true then some exponent else none := by
  cases isExponent with
  | absent => simp [readExponent?]
  | @present mark negative sign digits isMark isSign nonempty all =>
      have unsigned : ∀ character ∈ digits.head?, character ∉ ['-', '+'] := fun _ first =>
        notMem_signs_of_isDigit (all _ (List.mem_of_mem_head? first))
      have parts := readSign_append isSign unsigned
      split
      · next fits =>
          rw [readExponent?_cons_eq_some_iff, parts]
          exact ⟨isMark, nonempty, all, fits _ rfl, rfl⟩
      · next beyond =>
          rw [Option.eq_none_iff_forall_ne_some]
          intro exponent read
          rw [readExponent?_cons_eq_some_iff, parts] at read
          exact beyond fun value member => (Option.mem_some.mp member) ▸ read.2.2.2.1

/-! ## Where one part ends -/

variable {decimal group : Char} {text rest : List Char}

theorem SpellsExponent.stops {exponent : Option Int} (isExponent : SpellsExponent exponent text)
    {separator : Char} (separates : NumberFormat.Separates separator) :
    ∀ character ∈ text.head?, character.isDigit = false ∧ character ≠ separator := by
  cases isExponent with
  | absent => exact nofun
  | present isMark =>
      rintro _ ⟨⟩
      constructor
      · rcases isMark with rfl | rfl <;> rfl
      · rintro rfl
        apply separates.2
        rcases isMark with rfl | rfl <;> simp

theorem SpellsFraction.stops {digits : List Char} (isFraction : SpellsFraction decimal digits text)
    (separates : NumberFormat.Separates decimal) (different : decimal ≠ group)
    (stops : ∀ character ∈ rest.head?, character.isDigit = false ∧ character ≠ group) :
    ∀ character ∈ (text ++ rest).head?, character.isDigit = false ∧ character ≠ group := by
  cases isFraction with
  | absent => exact stops
  | present =>
      rintro _ ⟨⟩
      exact ⟨separates.1, different⟩

/-- What follows the sign begins with a digit or the decimal separator. -/
theorem notMem_signs_of_spells {whole fraction wholeText fractionText : List Char}
    (isWhole : SpellsWhole group whole wholeText)
    (isFraction : SpellsFraction decimal fraction fractionText)
    (nonempty : whole ≠ [] ∨ fraction ≠ []) (separates : NumberFormat.Separates decimal)
    (rest : List Char) :
    ∀ character ∈ (wholeText ++ (fractionText ++ rest)).head?, character ∉ ['-', '+'] := by
  cases wholeText with
  | nil =>
      cases isFraction with
      | absent => cases nonempty.resolve_left (· isWhole.filtered.symm) rfl
      | present =>
          rintro _ ⟨⟩ isSign
          apply separates.2
          simp only [List.mem_cons, List.not_mem_nil, or_false] at isSign ⊢
          exact isSign.elim (fun minus => .inr (.inl minus)) .inl
  | cons digit wholeText =>
      rintro _ ⟨⟩
      exact notMem_signs_of_isDigit (isWhole.starts digit rfl)

/-! ## Texts -/

/-- Where the separators are unambiguous, each part is read to its end. -/
theorem readTrimmed?_of_spells {format : NumberFormat} (unambiguous : format.Unambiguous)
    {numeral : Numeral} (spelled : Spells format numeral text) :
    readTrimmed? format text = if numeral.ExponentFits then some numeral else none := by
  obtain ⟨different, decimal, group⟩ := unambiguous
  cases spelled with
  | @intro negative whole fraction exponent signText wholeText fractionText exponentText
      isSign isWhole isFraction isExponent nonempty =>
      have afterSign := notMem_signs_of_spells isWhole isFraction nonempty decimal exponentText
      have afterWhole := isFraction.stops decimal different (isExponent.stops group)
      have afterFraction := isExponent.stops decimal
      have nonempty : ¬ (whole = [] ∧ fraction = []) := not_and_or.mpr nonempty
      unfold readTrimmed?
      simp only [readSign_append isSign afterSign, readWhole_append isWhole afterWhole,
        readFraction_append isFraction afterFraction, if_neg nonempty,
        readExponent?_of_spells isExponent, ExponentFits]
      rw [apply_ite (Option.map _)]
      rfl

theorem read?_of_isSpelledBy {format : NumberFormat} (unambiguous : format.Unambiguous)
    {numeral : Numeral} {text : String} (spelled : numeral.IsSpelledBy format text) :
    read? format text = if numeral.ExponentFits then some numeral else none :=
  readTrimmed?_of_spells unambiguous spelled

theorem read?_eq_some_iff {format : NumberFormat} (unambiguous : format.Unambiguous)
    {numeral : Numeral} {text : String} :
    read? format text = some numeral ↔ numeral.IsSpelledBy format text ∧ numeral.ExponentFits := by
  constructor
  · exact isSpelledBy_of_read?
  · rintro ⟨spelled, fits⟩
    rw [read?_of_isSpelledBy unambiguous spelled, if_pos fits]

/-- No two numerals within range are spelled alike. -/
theorem eq_of_isSpelledBy {format : NumberFormat} (unambiguous : format.Unambiguous)
    {numeral other : Numeral} {text : String} (spelled : numeral.IsSpelledBy format text)
    (read : read? format text = some other) : other = numeral := by
  rw [read?_of_isSpelledBy unambiguous spelled] at read
  split at read
  · exact (Option.some.inj read).symm
  · cases read

end Numeral

end Formula
