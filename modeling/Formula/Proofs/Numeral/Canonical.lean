import Formula.Proofs.Numeral.Integer

/-!
# Canonical text

Which texts are read as a numeral, and what its canonical text spells.  The canonical text does not
group digits and has a period as decimal mark, and it spells the same number with the same sign,
digits and exponent.  A text without fraction and exponent becomes the integer that it spells, where
the type has it.
-/

namespace Formula

open Lexer (AllDigits)

/-! ## The integers of a type -/

/-- The type is an integer type and has the integer. -/
def NumericType.HasInteger (target : NumericType) (whole : ℤ) : Prop :=
  match target with
  | .int32 => -2 ^ 31 ≤ whole ∧ whole < 2 ^ 31
  | .int64 => -2 ^ 63 ≤ whole ∧ whole < 2 ^ 63
  | _ => False

namespace Number

variable {target : NumericType} {number : Number} {whole : ℤ}

theorem hasInteger_of_value? (integer : number.type.isInteger = true)
    (isWhole : number.value? = some (whole : ℚ)) : number.type.HasInteger whole := by
  cases number with
  | int32 value =>
      obtain rfl : value.toInt = whole := by simpa [value?] using isWhole
      exact ⟨value.le_toInt, value.toInt_lt⟩
  | int64 value =>
      obtain rfl : value.toInt = whole := by simpa [value?] using isWhole
      exact ⟨value.le_toInt, value.toInt_lt⟩
  | float32 | float64 | decimal => cases integer

theorem exists_of_hasInteger (has : target.HasInteger whole) :
    ∃ number : Number, number.type = target ∧ number.value? = some (whole : ℚ) := by
  cases target with
  | int32 =>
      refine ⟨.int32 (Int32.ofInt whole), rfl, ?_⟩
      rw [value?, Int32.toInt_ofInt_of_le has.1 has.2]
  | int64 =>
      refine ⟨.int64 (Int64.ofInt whole), rfl, ?_⟩
      rw [value?, Int64.toInt_ofInt_of_le has.1 has.2]
  | float32 | float64 | decimal => cases has

end Number

namespace Numeral

variable {numeral : Numeral} {format : NumberFormat}

/-! ## Canonical text -/

/-- The numeral with at least one whole digit, as canonical text has it. -/
def padded (numeral : Numeral) : Numeral :=
  { numeral with whole := if numeral.whole = [] then ['0'] else numeral.whole }

theorem digits_padded : numeral.padded.digits = numeral.digits := by
  unfold padded digits
  split
  · next none_ =>
      rw [none_]
      exact Text.ofDigits_zeros_append 1 numeral.fraction
  · rfl

theorem value_padded : numeral.padded.value = numeral.value := by
  rw [value, value, digits_padded]
  rfl

theorem spellsExponent_exponentText (exponent : Option ℤ) :
    SpellsExponent exponent (exponentText exponent) := by
  cases exponent with
  | none => exact .absent
  | some value =>
      have allDigits : AllDigits (Text.toDigits value.natAbs) :=
        fun _ member => Text.isDigit_of_mem_toDigits member
      have spelled := SpellsExponent.present (.inl rfl) (spellsSign_sign (decide (value < 0)))
        Nat.toDigits_ne_nil allDigits
      rw [← Text.toDigits, Text.ofDigits_toDigits, signed_natAbs] at spelled
      rwa [exponentText, Text.ofInt, String.toList_ofList]

/-- The digits of a numeral are digits, as those of every numeral that is spelled are. -/
structure HasDigits (numeral : Numeral) : Prop where
  whole : AllDigits numeral.whole
  fraction : AllDigits numeral.fraction

theorem Spells.hasDigits {text : List Char} (spelled : Spells format numeral text) :
    numeral.HasDigits := by
  refine ⟨?_, spelled.allDigits_fraction⟩
  cases spelled with
  | intro isSign isWhole =>
      obtain ⟨rfl, -, -⟩ := isWhole
      exact fun digit member => (List.mem_filter.mp member).2

theorem HasDigits.padded (hasDigits : numeral.HasDigits) : numeral.padded.HasDigits := by
  refine ⟨?_, hasDigits.fraction⟩
  unfold Numeral.padded
  dsimp only
  split
  · exact List.forall_mem_singleton.mpr rfl
  · exact hasDigits.whole

/-- The decimal mark and the digits behind it. -/
def fractionText (numeral : Numeral) : List Char :=
  if numeral.fraction = [] then [] else '.' :: numeral.fraction

theorem toList_canonical : numeral.canonical.toList =
    Text.sign numeral.negative ++
      (numeral.padded.whole ++ (numeral.fractionText ++ exponentText numeral.exponent)) := by
  simp only [canonical, String.toList_ofList, List.append_assoc, padded, fractionText]

theorem spellsFraction_fractionText (all : AllDigits numeral.fraction) :
    SpellsFraction '.' numeral.fraction numeral.fractionText := by
  unfold fractionText
  split
  · next none_ =>
      rw [none_]
      exact .absent
  · exact .present all

theorem padded_whole_ne_nil : numeral.padded.whole ≠ [] := by
  unfold padded
  dsimp only
  split
  · exact List.cons_ne_nil _ _
  · assumption

/-- Since it has no group separators, any character can be taken for one. -/
theorem spells_canonical (hasDigits : numeral.HasDigits) (group : Char) :
    Spells ⟨'.', group⟩ numeral.padded numeral.canonical.toList := by
  rw [toList_canonical]
  exact @Spells.intro ⟨'.', group⟩ _ _ _ _ _ _ _ _ (spellsSign_sign numeral.negative)
    (spellsWhole_of_allDigits hasDigits.padded.whole group)
    (spellsFraction_fractionText hasDigits.fraction) (spellsExponent_exponentText numeral.exponent)
    (.inl padded_whole_ne_nil)

theorem notMem_canonical (hasDigits : numeral.HasDigits) {group : Char}
    (unambiguous : (⟨'.', group⟩ : NumberFormat).Unambiguous) :
    group ∉ numeral.canonical.toList := by
  intro member
  obtain ⟨different, -, notDigit, notMark⟩ := unambiguous
  have allowed := (spells_canonical hasDigits 'e').mem group member
  grind

theorem isSpelledBy_canonical (hasDigits : numeral.HasDigits) (group : Char) :
    numeral.padded.IsSpelledBy ⟨'.', group⟩ numeral.canonical := by
  have spelled := (spells_canonical hasDigits group).isSpelledBy
    (spells_canonical hasDigits ',').visible
  rwa [String.ofList_toList] at spelled

/-- A period stands in canonical text only as decimal mark. -/
theorem count_canonical (hasDigits : numeral.HasDigits) :
    numeral.canonical.toList.count '.' = if numeral.fraction = [] then 0 else 1 := by
  have digits {text : List Char} (all : AllDigits text) : text.count '.' = 0 :=
    List.count_eq_zero.mpr fun member => absurd (all '.' member) (by decide)
  have sign : (Text.sign numeral.negative).count '.' = 0 :=
    List.count_eq_zero.mpr fun member =>
      absurd ((spellsSign_sign numeral.negative).mem '.' member) (by decide)
  have exponent : (exponentText numeral.exponent).count '.' = 0 :=
    List.count_eq_zero.mpr fun member =>
      absurd ((spellsExponent_exponentText numeral.exponent).mem '.' member) (by decide)
  rw [toList_canonical, List.count_append, List.count_append, List.count_append, sign, exponent,
    digits hasDigits.padded.whole, fractionText]
  split
  · rfl
  · rw [List.count_cons_self, digits hasDigits.fraction]

/-- Where a format groups digits with periods, its group separator is the decimal mark of canonical
text. -/
theorem groupSeparator_mem_canonical_iff (unambiguous : format.Unambiguous)
    (hasDigits : numeral.HasDigits) :
    format.groupSeparator ∈ numeral.canonical.toList ↔
      format.groupSeparator = '.' ∧ numeral.fraction ≠ [] := by
  by_cases period : format.groupSeparator = '.'
  · rw [period, ← List.count_pos_iff, count_canonical hasDigits]
    split
    · next none_ => simp [none_]
    · next present => simp [present]
  · have mark : NumberFormat.Separates '.' := by decide
    have apart : (⟨'.', format.groupSeparator⟩ : NumberFormat).Unambiguous :=
      ⟨Ne.symm period, mark, unambiguous.2.2⟩
    exact ⟨fun member => absurd member (notMem_canonical hasDigits apart),
      fun mark => absurd mark.1 period⟩

/-! ## Integers without fraction and exponent -/

theorem value_of_isPlain (plain : numeral.IsPlain) :
    numeral.value = (signed numeral.negative (Text.ofDigits numeral.whole) : ℤ) := by
  obtain ⟨noFraction, noExponent⟩ := plain
  simp [value, digits, power, noFraction, noExponent]

theorem toNumber?_of_isPlain (plain : numeral.IsPlain) {target : NumericType}
    (integer : target.isInteger = true) {number : Number} :
    numeral.toNumber? target = some number ↔
      number.type = target ∧ number.value? = some numeral.value := by
  rw [toNumber?_eq_some_iff_toInt? integer, toInt?_of_isPlain plain, value_of_isPlain plain]
  simp only [Option.some.injEq, exists_eq_left']

/-! ## Texts -/

/-- A text is read as the numeral that it spells, if the exponent fits into 64 bits.  Its canonical
text has none of the characters that may group digits, except that the decimal mark in front of a
fraction is always a period, and spells the same number.  Where there is neither a fraction nor an
exponent, the text becomes the integer that it spells, if the type has it. -/
theorem read?_by_grammar (unambiguous : format.Unambiguous) (text : String) :
    (∀ numeral, read? format text = some numeral ↔
      numeral.IsSpelledBy format text ∧ numeral.ExponentFits) ∧
    ∀ numeral, read? format text = some numeral →
      (∀ group, (⟨'.', group⟩ : NumberFormat).Unambiguous → group ∉ numeral.canonical.toList) ∧
      (format.groupSeparator ∈ numeral.canonical.toList ↔
        format.groupSeparator = '.' ∧ numeral.fraction ≠ []) ∧
      (numeral.canonical.toList.count '.' = if numeral.fraction = [] then 0 else 1) ∧
      (∃ other : Numeral, read? .invariant numeral.canonical = some other ∧
        other.negative = numeral.negative ∧ other.digits = numeral.digits ∧
          other.power = numeral.power ∧ other.exponent = numeral.exponent ∧
            other.value = numeral.value) ∧
      (numeral.IsPlain → ∃ whole : ℤ, numeral.value = whole ∧
        ∀ target : NumericType, target.isInteger = true →
          (target.HasInteger whole → ∃ number, Number.read? target format text = some number ∧
            number.type = target ∧ number.value? = some (whole : ℚ)) ∧
          (¬ target.HasInteger whole → Number.read? target format text = none)) := by
  refine ⟨fun _ => read?_eq_some_iff unambiguous, fun numeral isRead => ?_⟩
  obtain ⟨spelled, fits⟩ := isSpelledBy_of_read? isRead
  have hasDigits := spelled.hasDigits
  refine ⟨fun _ => notMem_canonical hasDigits,
    groupSeparator_mem_canonical_iff unambiguous hasDigits, count_canonical hasDigits,
    ⟨numeral.padded, ?_, rfl, digits_padded, rfl, rfl, value_padded⟩, fun plain => ?_⟩
  · exact (read?_eq_some_iff (by decide)).mpr ⟨isSpelledBy_canonical hasDigits ',', fits⟩
  · refine ⟨_, value_of_isPlain plain, fun target integer => ?_⟩
    have becomes : Number.read? target format text = numeral.toNumber? target := by
      rw [Number.read?, isRead]
      rfl
    rw [becomes, ← value_of_isPlain plain]
    refine ⟨fun has => ?_, fun lacks => ?_⟩
    · obtain ⟨number, type, value⟩ := Number.exists_of_hasInteger has
      rw [← value_of_isPlain plain] at value
      exact ⟨number, (toNumber?_of_isPlain plain integer).mpr ⟨type, value⟩, type, value⟩
    · rw [Option.eq_none_iff_forall_ne_some]
      intro number isNumber
      obtain ⟨rfl, value⟩ := (toNumber?_of_isPlain plain integer).mp isNumber
      rw [value_of_isPlain plain] at value
      exact lacks (Number.hasInteger_of_value? integer value)

theorem read?_by_grammar_of_commaDecimal :
    NumberFormat.commaDecimal.Unambiguous ∧
      ∃ numeral : Numeral, read? .commaDecimal " -1.234.567,50E+3 " = some numeral ∧
        numeral.IsSpelledBy .commaDecimal " -1.234.567,50E+3 " ∧
          numeral.canonical = "-1234567.50e3" ∧ ',' ∉ numeral.canonical.toList ∧
            numeral.canonical.toList.count '.' = 1 := by
  have isRead : read? .commaDecimal " -1.234.567,50E+3 " =
      some ⟨true, "1234567".toList, "50".toList, some 3⟩ := by decide
  have ⟨grammar, canonical⟩ :=
    @read?_by_grammar .commaDecimal (by decide) " -1.234.567,50E+3 "
  obtain ⟨ungrouped, -, period, -⟩ := canonical _ isRead
  exact ⟨by decide, _, isRead, ((grammar _).mp isRead).1, by decide, ungrouped ',' (by decide),
    period⟩

/-- The canonical text of `1,5` is `1.5`, whose period groups digits where a comma is the decimal
mark. -/
theorem not_canonical_ungrouped :
    ¬ ∀ (format : NumberFormat) (text : String) (numeral : Numeral), format.Unambiguous →
      read? format text = some numeral →
        format.groupSeparator ∉ numeral.canonical.toList := by
  intro always
  have isRead : read? .commaDecimal "1,5" = some ⟨false, ['1'], ['5'], none⟩ := by decide
  exact always .commaDecimal "1,5" _ (by decide) isRead (by decide)

end Numeral

end Formula
