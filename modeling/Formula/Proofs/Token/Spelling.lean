import Formula.Proofs.Token.Juxtaposition

/-!
# Spellings of their own

Longer spellings are tried first, so of the spellings that a text starts with the longest is read,
and a spelling that stands alone is read as itself unless another kind of token takes its first
character.  A valid grammar leaves only names to do so: a spelling that starts with an identifier
character is never read as an operator.
-/

namespace Formula

namespace Grammar

theorem find?_spelling {grammar : Grammar} {spelling : String}
    (member : spelling ∈ grammar.spellings) :
    grammar.spellings.find? (fun candidate => candidate.toList.isPrefixOf spelling.toList) =
      some spelling := by
  have itself : spelling.toList.isPrefixOf spelling.toList = true :=
    List.isPrefixOf_iff_prefix.mpr (List.prefix_refl _)
  cases finds : grammar.spellings.find? (fun candidate =>
      candidate.toList.isPrefixOf spelling.toList) with
  | none => exact absurd itself (by simpa using List.find?_eq_none.mp finds spelling member)
  | some found =>
      have longest := utf8ByteSize_le_of_find? finds member itself
      obtain ⟨rest, same⟩ := Lexer.prefix_of_find? finds
      have whole : spelling = found ++ String.ofList rest := by
        rw [← String.toList_inj, String.toList_append, String.toList_ofList, same]
      have nothing : String.ofList rest = "" := by
        rw [whole, String.utf8ByteSize_append] at longest
        exact String.utf8ByteSize_eq_zero_iff.mp (by omega)
      rw [whole, nothing, String.append_empty]

/-! ## First characters -/

/-- Of the tokens other than operators only a name can begin as a valid spelling does. -/
theorem startsOperator_iff {grammar : Grammar} (valid : grammar.validate = .ok ())
    {spelling : String} (member : spelling ∈ grammar.spellings) {first : Char}
    {following : List Char} (written : spelling.toList = first :: following) :
    Lexer.startsOperator grammar first = true ↔
      grammar.isIdentifierCharacter first = false := by
  have notNumber := not_startsLikeNumber valid member written
  have spelled : first ∈ spelling.toList := by simp [written]
  have notReserved := not_isReserved valid member spelled
  simp only [isReserved, Bool.or_eq_false_iff, beq_eq_false_iff_ne] at notReserved
  obtain ⟨⟨⟨⟨⟨notBlank, notOpening⟩, notClosing⟩, notComma⟩, notDouble⟩, notSingle⟩ := notReserved
  have visible : Lexer.isSpace first = false := by
    rw [← Bool.not_eq_true, Lexer.isSpace_eq_true_iff]
    rintro (rfl | rfl | rfl | rfl | rfl) <;> cases notBlank
  have notPunctuation : Lexer.punctuation? first = none := by
    unfold Lexer.punctuation?
    split
    · contradiction
    · contradiction
    · contradiction
    · rfl
  simp [Lexer.startsOperator, visible, notNumber, notDouble, notSingle, notPunctuation]

end Grammar

/-! ## Spellings that stand alone -/

namespace Lexer

theorem not_isSpace_of_spelling {grammar : Grammar} (valid : grammar.validate = .ok ())
    {spelling : String} (member : spelling ∈ grammar.spellings) {character : Char}
    (spelled : character ∈ spelling.toList) : isSpace character = false := by
  have notReserved := Grammar.not_isReserved valid member spelled
  rw [← Bool.not_eq_true, isSpace_eq_true_iff]
  rintro (rfl | rfl | rfl | rfl | rfl) <;> cases notReserved

/-- A token that starts with an identifier character is no operator. -/
theorem kind_ne_operator_of_isIdentifierCharacter {grammar : Grammar} {cursor after : Cursor}
    {first : Char} {following : List Char} {token : Token}
    (starts : (skipSpace cursor).rest = first :: following)
    (isName : grammar.isIdentifierCharacter first = true)
    (reads : next grammar grammar.spellings cursor = (.ok (some token), after)) :
    token.kind ≠ .operator := by
  obtain ⟨first', following', starts', read⟩ := next_eq_some reads
  obtain ⟨rfl, rfl⟩ := List.cons_eq_cons.mp (starts.symm.trans starts')
  unfold readToken at read
  dsimp only at read
  split at read
  · obtain ⟨lexeme, -, -, rfl, -⟩ := readNumber_eq_ok read
    simp
  · cases read
    simp

/-- In a valid grammar a spelling that stands alone is one operator token, unless its first
character is an identifier character. -/
theorem tokenize_spelling_iff {grammar : Grammar} (valid : grammar.validate = .ok ())
    {spelling : String} (member : spelling ∈ grammar.tiers.flatten) :
    tokenize grammar spelling = .ok [⟨.operator, some spelling, 0⟩] ↔
      ∀ first ∈ spelling.toList.head?, grammar.isIdentifierCharacter first = false := by
  have listed : spelling ∈ grammar.spellings := Grammar.mem_spellings.mpr member
  obtain ⟨first, following, written⟩ :=
    List.exists_cons_of_ne_nil (Grammar.toList_ne_nil valid listed)
  have visible : isSpace first = false := not_isSpace_of_spelling valid listed (by simp [written])
  rw [tokenize_eq_ok_iff valid, written, List.head?_cons]
  constructor
  · rintro (_ | ⟨reads, -⟩) _ ⟨⟩
    rw [← Bool.not_eq_true]
    intro isName
    have starts : (skipSpace ⟨first :: following, 0⟩).rest = first :: following := by
      rw [skipSpace_of_not_space visible]
    exact kind_ne_operator_of_isIdentifierCharacter starts isName reads rfl
  · intro notName
    have starts := (Grammar.startsOperator_iff valid listed written).mpr (notName first rfl)
    have reads := isLexeme_operator written starts
      (fun candidate isCandidate character => not_isSpace_of_spelling valid isCandidate)
      (Grammar.find?_spelling listed) 0 0 startsWithSpace_nil
    rw [List.append_nil, written] at reads
    exact .token reads (.done rfl)

/-- A grammar with two operators of which one begins the other. -/
def arrows : Grammar :=
  { Grammar.standard with tiers := [["<"], ["<=>", "<="]] }

theorem tokenize_spelling_of_arrows :
    arrows.validate = .ok () ∧ "<=>" ∈ arrows.tiers.flatten ∧
      (∀ first ∈ "<=>".toList.head?, arrows.isIdentifierCharacter first = false) ∧
        tokenize arrows "<=>" = .ok [⟨.operator, some "<=>", 0⟩] := by
  have valid : arrows.validate = .ok () := by rfl
  have member : "<=>" ∈ arrows.tiers.flatten := by decide
  have notName : ∀ first ∈ "<=>".toList.head?, arrows.isIdentifierCharacter first = false := by
    rintro _ ⟨⟩
    rfl
  exact ⟨valid, member, notName, (tokenize_spelling_iff valid member).mpr notName⟩

/-- A grammar whose operator is a word. -/
def wordy : Grammar :=
  { Grammar.standard with tiers := [["and"]] }

/-- The grammar is valid, but its only spelling is read as a name. -/
theorem not_tokenize_every_spelling :
    ¬ ∀ (grammar : Grammar) (spelling : String), grammar.validate = .ok () →
      spelling ∈ grammar.tiers.flatten →
        tokenize grammar spelling = .ok [⟨.operator, some spelling, 0⟩] := by
  intro always
  have named : tokenize wordy "and" = .ok [⟨.identifier, some "and", 0⟩] := by rfl
  have spelled := always wordy "and" (by rfl) (by decide)
  rw [named] at spelled
  simp at spelled

end Lexer

end Formula
