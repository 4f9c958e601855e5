import Formula.Proofs.Decimal.Exactness
import Formula.Proofs.Token.Reading

/-!
# Decimals read from digits

How many digits of a fraction a decimal has room for, and what becomes of the others: the first of
them rounds the digits in front of it half up, and the rest leave no trace.
-/

namespace Formula

open Lexer (AllDigits)

/-! ## Digits -/

namespace Text

theorem ofDigits_append (digits more : List Char) :
    ofDigits (digits ++ more) = 10 ^ more.length * ofDigits digits + ofDigits more := by
  rw [ofDigits, Nat.ofDigitChars_append, Nat.ofDigitChars_eq_ofDigitChars_zero]
  rfl

theorem ofDigits_concat (digits : List Char) (digit : Char) :
    ofDigits (digits ++ [digit]) = 10 * ofDigits digits + digitValue digit := by
  rw [ofDigits_append]
  simp [ofDigits, Nat.ofDigitChars, digitValue]

theorem ofDigits_zeros_append (count : ℕ) (digits : List Char) :
    ofDigits (List.replicate count '0' ++ digits) = ofDigits digits := by
  rw [ofDigits, Nat.ofDigitChars_append, Nat.ofDigitChars_replicate_zero, Nat.mul_zero]
  rfl

theorem digitValue_lt {digit : Char} (isDigit : digit.isDigit = true) : digitValue digit < 10 := by
  obtain ⟨-, upper⟩ := Char.isDigit_iff_toNat.mp isDigit
  change digit.toNat ≤ 57 at upper
  change digit.toNat - 48 < 10
  omega

theorem digitValue_eq_zero_iff {digit : Char} (isDigit : digit.isDigit = true) :
    digitValue digit = 0 ↔ digit = '0' := by
  obtain ⟨lower, -⟩ := Char.isDigit_iff_toNat.mp isDigit
  rw [← Char.toNat_inj, digitValue]
  omega

theorem ofDigits_lt {digits : List Char} (all : AllDigits digits) :
    ofDigits digits < 10 ^ digits.length := by
  induction digits using List.reverseRecOn with
  | nil => decide
  | append_singleton digits digit ih =>
      obtain ⟨all, isDigit⟩ := List.forall_mem_append.mp all
      have digit_lt := digitValue_lt (isDigit digit (List.mem_singleton_self digit))
      have digits_lt := ih all
      rw [ofDigits_concat, List.length_append, List.length_singleton, Nat.pow_succ]
      omega

theorem ofDigits_eq_zero_iff {digits : List Char} (all : AllDigits digits) :
    ofDigits digits = 0 ↔ ∀ digit ∈ digits, digit = '0' := by
  induction digits using List.reverseRecOn with
  | nil => simp [ofDigits, Nat.ofDigitChars]
  | append_singleton digits digit ih =>
      obtain ⟨all, isDigit⟩ := List.forall_mem_append.mp all
      have digit_iff := digitValue_eq_zero_iff (isDigit digit (List.mem_singleton_self digit))
      rw [ofDigits_concat, List.forall_mem_append, ← ih all, List.forall_mem_singleton, ← digit_iff]
      omega

end Text

namespace Decimal

/-! ## Room for digits -/

/-- The number that the whole digits write together with some digits of the fraction. -/
def mantissaAt (whole fraction : List Char) (places : ℕ) : ℕ :=
  Text.ofDigits (whole ++ fraction.take places)

/-- The most digits of the fraction, up to the largest scale, that leave a mantissa of 96 bits. -/
def keptPlaces (whole fraction : List Char) : ℕ :=
  Nat.findGreatest (fun places => mantissaAt whole fraction places < 2 ^ 96)
    (min maxScale fraction.length)

theorem keptPlaces_le (whole fraction : List Char) :
    keptPlaces whole fraction ≤ min maxScale fraction.length :=
  Nat.findGreatest_le _

variable {whole fraction : List Char} {places : ℕ}

theorem mantissaAt_zero : mantissaAt whole fraction 0 = Text.ofDigits whole := by
  rw [mantissaAt, List.take_zero, List.append_nil]

theorem mantissaAt_succ (within : places < fraction.length) :
    mantissaAt whole fraction (places + 1) =
      10 * mantissaAt whole fraction places + Text.digitValue fraction[places] := by
  rw [mantissaAt, mantissaAt, List.take_succ_eq_append_getElem within, ← List.append_assoc,
    Text.ofDigits_concat]

theorem mantissaAt_mono {more : ℕ} (le : places ≤ more) :
    mantissaAt whole fraction places ≤ mantissaAt whole fraction more := by
  induction more, le using Nat.le_induction with
  | base => exact le_rfl
  | succ more le ih =>
      rcases Nat.lt_or_ge more fraction.length with within | all
      · rw [mantissaAt_succ within]
        omega
      · rw [mantissaAt, mantissaAt, List.take_of_length_le (Nat.le_succ_of_le all)]
        rwa [mantissaAt, mantissaAt, List.take_of_length_le all] at ih

theorem mantissaAt_lt (fits : Text.ofDigits whole < 2 ^ 96)
    (le : places ≤ keptPlaces whole fraction) : mantissaAt whole fraction places < 2 ^ 96 := by
  have kept : mantissaAt whole fraction (keptPlaces whole fraction) < 2 ^ 96 :=
    Nat.findGreatest_spec (P := fun places => mantissaAt whole fraction places < 2 ^ 96)
      (Nat.zero_le _) (mantissaAt_zero ▸ fits)
  exact lt_of_le_of_lt (mantissaAt_mono le) kept

/-- Digits are dropped only where the scale or the mantissa has no room. -/
theorem room_of_keptPlaces_lt (fewer : keptPlaces whole fraction < fraction.length) :
    keptPlaces whole fraction = maxScale ∨
      2 ^ 96 ≤ mantissaAt whole fraction (keptPlaces whole fraction + 1) := by
  rcases Nat.lt_or_ge (keptPlaces whole fraction) maxScale with below | atLeast
  · right
    have next : keptPlaces whole fraction + 1 ≤ min maxScale fraction.length := le_min below fewer
    exact Nat.not_lt.mp (Nat.findGreatest_is_greatest
      (P := fun places => mantissaAt whole fraction places < 2 ^ 96) (Nat.lt_succ_self _) next)
  · exact .inl (le_antisymm (le_trans (keptPlaces_le _ _) (min_le_left _ _)) atLeast)

theorem readFraction?_drop (negative : Bool) (fits : Text.ofDigits whole < 2 ^ 96)
    (le : places ≤ keptPlaces whole fraction) :
    readFraction? negative (fraction.drop places) (mantissaAt whole fraction places) places =
      readFraction? negative (fraction.drop (keptPlaces whole fraction))
        (mantissaAt whole fraction (keptPlaces whole fraction)) (keptPlaces whole fraction) := by
  induction le using Nat.decreasingInduction with
  | self => rfl
  | of_succ places below ih =>
      have bounds := le_min_iff.mp (keptPlaces_le whole fraction)
      have within : places < fraction.length := by omega
      have next := mantissaAt_lt fits (Nat.succ_le_of_lt below)
      rw [mantissaAt_succ within] at next ih
      rw [List.drop_eq_getElem_cons within, readFraction?, if_neg (by omega)]
      exact ih

/-! ## Rounding by the first digit without room -/

/-- The first digit is five or more. -/
def RoundsUp (dropped : List Char) : Prop :=
  ∃ digit ∈ dropped.head?, 5 ≤ Text.digitValue digit

instance (dropped : List Char) : Decidable (RoundsUp dropped) :=
  inferInstanceAs (Decidable (∃ _ ∈ _, _))

theorem roundsUp_cons {digit : Char} {rest : List Char} :
    RoundsUp (digit :: rest) ↔ 5 ≤ Text.digitValue digit := by
  simp only [RoundsUp, List.head?_cons, Option.mem_def, Option.some.injEq, exists_eq_left']

def roundedMantissa (whole fraction : List Char) : ℕ :=
  mantissaAt whole fraction (keptPlaces whole fraction) +
    if RoundsUp (fraction.drop (keptPlaces whole fraction)) then 1 else 0

theorem readFraction?_kept (negative : Bool) (fits : Text.ofDigits whole < 2 ^ 96) :
    readFraction? negative fraction (Text.ofDigits whole) 0 =
      if roundedMantissa whole fraction < 2 ^ 96 then
        make? negative (roundedMantissa whole fraction) (keptPlaces whole fraction)
      else
        match keptPlaces whole fraction with
        | 0 => none
        | places + 1 => make? negative ((2 ^ 96 + 4) / 10) places := by
  have drop := readFraction?_drop negative fits (Nat.zero_le (keptPlaces whole fraction))
  have small := mantissaAt_lt fits (le_refl (keptPlaces whole fraction))
  have room := @room_of_keptPlaces_lt whole fraction
  have bounds := le_min_iff.mp (keptPlaces_le whole fraction)
  rw [mantissaAt_zero, List.drop_zero] at drop
  rw [drop]
  unfold roundedMantissa
  generalize keptPlaces whole fraction = kept at *
  rcases Nat.lt_or_ge kept fraction.length with fewer | all
  · have room := room fewer
    rw [mantissaAt_succ fewer] at room
    rw [List.drop_eq_getElem_cons fewer, readFraction?, if_pos room]
    simp only [roundsUp_cons]
    unfold roundedBy?
    split
    · next below => rw [if_neg (Nat.not_le.mpr below), Nat.add_zero, if_pos small]
    · next atLeast =>
        rw [if_pos (Nat.not_lt.mp atLeast)]
        split
        · rfl
        · have carried : (mantissaAt whole fraction kept + 5) / 10 = (2 ^ 96 + 4) / 10 := by
            omega
          cases kept with
          | zero => rfl
          | succ places => exact congrArg (make? negative · places) carried
  · have none_ : ¬ RoundsUp (fraction.drop kept) := by
      rw [List.drop_eq_nil_of_le all]
      simp [RoundsUp]
    rw [if_neg none_, Nat.add_zero, if_pos small, List.drop_eq_nil_of_le all, readFraction?]

variable {negative : Bool} {value : Decimal}

theorem fits_of_ofDigits? (some_ : ofDigits? negative whole fraction = some value) :
    Text.ofDigits whole < 2 ^ 96 := by
  unfold ofDigits? at some_
  dsimp only at some_
  split at some_
  · assumption
  · cases some_

theorem ofDigits?_of_lt (negative : Bool) (fits : Text.ofDigits whole < 2 ^ 96)
    (small : roundedMantissa whole fraction < 2 ^ 96) :
    ∃ value, ofDigits? negative whole fraction = some value ∧
      value.scale = keptPlaces whole fraction ∧
        value.value = signed negative (roundedMantissa whole fraction) /
          (10 ^ keptPlaces whole fraction : ℕ) := by
  have scale_le := le_trans (keptPlaces_le whole fraction) (min_le_left _ _)
  unfold ofDigits?
  dsimp only
  rw [if_pos fits, readFraction?_kept false fits, if_pos small, make?_of_lt false small scale_le]
  exact ⟨_, rfl, rfl, value_dropSignOfZero ⟨negative, _, _, small, scale_le⟩⟩

/-- A mantissa that has become too long by rounding gives up a digit and is not a multiple of ten
afterwards. -/
theorem mantissa_of_ofDigits? (large : 2 ^ 96 ≤ roundedMantissa whole fraction)
    (some_ : ofDigits? negative whole fraction = some value) :
    value.mantissa = (2 ^ 96 + 4) / 10 := by
  have fits := fits_of_ofDigits? some_
  unfold ofDigits? at some_
  dsimp only at some_
  rw [if_pos fits, readFraction?_kept false fits, if_neg (Nat.not_lt.mpr large)] at some_
  obtain ⟨read, isRead, rfl⟩ := Option.map_eq_some_iff.mp some_
  split at isRead
  · cases isRead
  · exact (make?_eq_some isRead).2.1

end Decimal

end Formula
