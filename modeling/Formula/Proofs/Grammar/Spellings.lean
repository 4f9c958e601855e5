import Formula.Grammar.Basic

/-!
# Spellings of a grammar

What validity says of a spelling, and the order in which a text is compared with the spellings: of
those that a text starts with the longest comes first.
-/

namespace Formula.Grammar

/-! ## Valid grammars -/

theorem validate_standard : Grammar.standard.validate = .ok () := by rfl

theorem validate_eq_error {grammar : Grammar} {error : Error}
    (invalid : grammar.validate = .error error) : ∃ fault, error = .invalidGrammar fault := by
  unfold validate at invalid
  split at invalid <;> cases invalid
  exact ⟨_, rfl⟩

theorem spellingFault?_eq_none {grammar : Grammar} (valid : grammar.validate = .ok ())
    {spelling : String} (member : spelling ∈ grammar.spellings) :
    spellingFault? spelling = none := by
  unfold validate at valid
  split at valid
  · cases valid
  · next none => exact List.findSome?_eq_none_iff.mp none spelling (mem_spellings.mp member)

theorem toList_ne_nil {grammar : Grammar} (valid : grammar.validate = .ok ())
    {spelling : String} (member : spelling ∈ grammar.spellings) : spelling.toList ≠ [] := by
  intro empty
  have faultless := spellingFault?_eq_none valid member
  simp [spellingFault?, empty] at faultless

theorem not_isReserved {grammar : Grammar} (valid : grammar.validate = .ok ())
    {spelling : String} (member : spelling ∈ grammar.spellings) {character : Char}
    (spelled : character ∈ spelling.toList) : isReserved character = false := by
  have faultless := spellingFault?_eq_none valid member
  unfold spellingFault? at faultless
  split at faultless
  · cases faultless
  · next first rest same =>
      rw [same] at spelled
      rw [← Bool.not_eq_true]
      intro reserved
      have blamed : (first :: rest).any isReserved = true :=
        List.any_eq_true.mpr ⟨character, spelled, reserved⟩
      simp only [blamed, if_true] at faultless
      split at faultless <;> cases faultless

theorem not_startsLikeNumber {grammar : Grammar} (valid : grammar.validate = .ok ())
    {spelling : String} (member : spelling ∈ grammar.spellings) {first : Char}
    {following : List Char} (written : spelling.toList = first :: following) :
    (first.isDigit || first == '.') = false := by
  have faultless := spellingFault?_eq_none valid member
  simp only [spellingFault?, written] at faultless
  split at faultless
  · cases faultless
  · next notNumber => exact Bool.eq_false_iff.mpr notNumber

/-! ## Longest first -/

/-- The order in which a text is compared with spellings. -/
def LongestFirst (spellings : List String) : Prop :=
  spellings.Pairwise fun earlier later => later.utf8ByteSize ≤ earlier.utf8ByteSize

theorem utf8ByteSize_le_of_comesBefore {left right : String}
    (before : comesBefore left right = true) : right.utf8ByteSize ≤ left.utf8ByteSize := by
  simp only [comesBefore, Bool.or_eq_true, decide_eq_true_eq, Bool.and_eq_true, beq_iff_eq]
    at before
  omega

theorem utf8ByteSize_le_of_not_comesBefore {left right : String}
    (notBefore : ¬ comesBefore left right = true) : left.utf8ByteSize ≤ right.utf8ByteSize := by
  simp only [comesBefore, Bool.or_eq_true, decide_eq_true_eq, not_or] at notBefore
  omega

theorem LongestFirst.insertSpelling {spellings : List String}
    (longestFirst : LongestFirst spellings) (new : String) :
    LongestFirst (insertSpelling new spellings) := by
  induction spellings with
  | nil => exact List.pairwise_singleton _ _
  | cons first rest ih =>
      obtain ⟨firstLongest, restSorted⟩ := List.pairwise_cons.mp longestFirst
      unfold Grammar.insertSpelling
      split
      · next before =>
          have longer := utf8ByteSize_le_of_comesBefore before
          refine List.pairwise_cons.mpr ⟨fun spelling member => ?_, longestFirst⟩
          rcases List.mem_cons.mp member with rfl | later
          · exact longer
          · exact Nat.le_trans (firstLongest spelling later) longer
      · next notBefore =>
          split
          · exact longestFirst
          · refine List.pairwise_cons.mpr ⟨fun spelling member => ?_, ih restSorted⟩
            rcases mem_insertSpelling.mp member with rfl | later
            · exact utf8ByteSize_le_of_not_comesBefore notBefore
            · exact firstLongest spelling later

theorem longestFirst_spellings (grammar : Grammar) : LongestFirst grammar.spellings := by
  unfold spellings
  induction grammar.tiers.flatten with
  | nil => exact List.Pairwise.nil
  | cons spelling rest ih => exact ih.insertSpelling spelling

/-- The spelling that is found in front of a text is the longest one that stands there. -/
theorem utf8ByteSize_le_of_find? {grammar : Grammar} {text : List Char} {found spelling : String}
    (finds : grammar.spellings.find? (fun candidate => candidate.toList.isPrefixOf text) =
      some found) (member : spelling ∈ grammar.spellings)
    (starts : spelling.toList.isPrefixOf text = true) :
    spelling.utf8ByteSize ≤ found.utf8ByteSize := by
  obtain ⟨-, before, after, same, noneBefore⟩ := List.find?_eq_some_iff_append.mp finds
  have sorted := grammar.longestFirst_spellings
  rw [same] at sorted member
  have foundLongest := (List.pairwise_cons.mp (List.pairwise_append.mp sorted).2.1).1
  rcases List.mem_append.mp member with earlier | foundOrLater
  · have absent := noneBefore spelling earlier
    simp [starts] at absent
  · rcases List.mem_cons.mp foundOrLater with rfl | later
    · exact Nat.le_refl _
    · exact foundLongest spelling later

end Formula.Grammar
