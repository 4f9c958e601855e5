import Formula.Proofs.Token.Folding
import Formula.Proofs.Token.Lossless

/-!
# Where tokens stand

Every token of a text stands on one of its characters, and this character tells numbers from all
other tokens.  So no other token stands where a number does.  In a valid grammar every token stands
behind the one before it.  Folding signs drops tokens and moves none.
-/

namespace Formula

theorem Text.eq_of_byteLength_eq {first second rest rest' : List Char}
    (same : first ++ rest = second ++ rest') (sameLength : byteLength first = byteLength second) :
    first = second := by
  induction first generalizing second with
  | nil =>
      cases second with
      | nil => rfl
      | cons character second =>
          have positive := character.utf8Size_pos
          simp only [byteLength] at sameLength
          omega
  | cons character first ih =>
      cases second with
      | nil =>
          have positive := character.utf8Size_pos
          simp only [byteLength] at sameLength
          omega
      | cons character' second =>
          rw [List.cons_append, List.cons_append] at same
          obtain ⟨rfl, sameLater⟩ := List.cons_eq_cons.mp same
          rw [ih sameLater (by simpa [byteLength] using sameLength)]

namespace Lexer

open Text (byteLength)

variable {grammar : Grammar} {spellings : List String}

/-! ## The character that a token stands on -/

def startsNumber (first : Char) : Bool :=
  first.isDigit || first == '.'

/-- The token stands on a character of the text, and is a number if this one starts a number. -/
def StandsIn (text : List Char) (token : Token) : Prop :=
  ∃ passed first following, text = passed ++ first :: following ∧
    token.position = byteLength passed ∧ (token.kind = .number ↔ startsNumber first = true)

theorem StandsIn.kind_iff {text : List Char} {token other : Token} (stands : StandsIn text token)
    (stands' : StandsIn text other) (samePosition : token.position = other.position) :
    token.kind = .number ↔ other.kind = .number := by
  obtain ⟨passed, first, following, rfl, position, isNumber⟩ := stands
  obtain ⟨passed', first', following', same, position', isNumber'⟩ := stands'
  have samePassed : passed = passed' :=
    Text.eq_of_byteLength_eq same (by rw [← position, samePosition, position'])
  subst samePassed
  obtain ⟨rfl, -⟩ := List.cons_eq_cons.mp (List.append_cancel_left same)
  rw [isNumber, isNumber']

theorem place_of_readToken {cursor after : Cursor} {first : Char} {following : List Char}
    {token : Token}
    (read : readToken grammar spellings cursor first following = (.ok token, after)) :
    token.position = cursor.position ∧ (token.kind = .number ↔ startsNumber first = true) := by
  obtain ⟨rest, position⟩ := cursor
  unfold readToken at read
  dsimp only at read
  split at read
  · next isNumber =>
      obtain ⟨lexeme, -, -, rfl, -⟩ := readNumber_eq_ok read
      simp [startsNumber, isNumber]
  · next notNumber =>
      have notNumber : startsNumber first = false := Bool.eq_false_iff.mpr notNumber
      split at read
      · cases read
        simp [notNumber]
      · split at read
        · obtain ⟨characters, written, -, -, rfl, -⟩ := readString_eq_ok read
          simp [notNumber]
        · split at read
          · next kind isPunctuation =>
              cases read
              have isMark := kind_of_punctuation? isPunctuation
              simp only [notNumber, Bool.false_eq_true, iff_false, true_and]
              rintro rfl
              simp at isMark
          · split at read
            · cases read
              simp [notNumber]
            · cases read

theorem standsIn_of_next {text : String} {cursor after : Cursor} {token : Token}
    (advances : Advances (.ofText text) cursor)
    (reads : next grammar spellings cursor = (.ok (some token), after)) :
    StandsIn text.toList token := by
  obtain ⟨first, following, visible, read⟩ := next_eq_some reads
  obtain ⟨position, isNumber⟩ := place_of_readToken read
  obtain ⟨passed, same, ended⟩ := advances.trans (advances_skipSpace cursor)
  refine ⟨passed, first, following, by rw [← visible]; exact same, ?_, isNumber⟩
  rw [position, ended]
  exact Nat.zero_add _

/-- What holds of each token that is read somewhere behind the cursor holds of all that are read
from there on. -/
theorem forall_of_tokensFrom {good : Token → Prop} {start cursor : Cursor}
    (each : ∀ {cursor after : Cursor} {token : Token}, Advances start cursor →
      next grammar spellings cursor = (.ok (some token), after) → good token)
    (advances : Advances start cursor) {limit : Nat} {tokens : List Token}
    (read : tokensFrom grammar spellings limit cursor = .ok tokens) :
    ∀ token ∈ tokens, good token := by
  induction limit generalizing cursor tokens with
  | zero =>
      cases read
      simp
  | succ limit ih =>
      unfold tokensFrom at read
      split at read
      · cases read
      · cases read
        simp
      · next first after reads =>
          obtain ⟨tokens, rest, rfl⟩ := map_eq_ok_iff.mp read
          have further : Advances cursor after := by
            have advances := @advances_next grammar spellings cursor
            rwa [reads] at advances
          exact List.forall_mem_cons.mpr
            ⟨each advances reads, ih (advances.trans further) rest⟩

theorem standsIn_of_tokenize {text : String} {tokens : List Token}
    (tokenized : tokenize grammar text = .ok tokens) :
    ∀ token ∈ tokens, StandsIn text.toList token :=
  forall_of_tokensFrom standsIn_of_next (.refl _) tokenized

/-! ## The order of the tokens -/

theorem Cut.ordered {start : Nat} {text : List Char} {tokens : List Token}
    (cut : Cut grammar start text tokens) :
    (∀ token ∈ tokens, start ≤ token.position) ∧
      (tokens.map Token.position).Pairwise (· < ·) := by
  induction cut with
  | done => simp
  | token blank starts ends advances spells cut ih =>
      obtain ⟨behind, ordered⟩ := ih
      refine ⟨List.forall_mem_cons.mpr ⟨by omega, fun token member => ?_⟩, ?_⟩
      · have := behind token member
        omega
      · refine List.pairwise_cons.mpr ⟨List.forall_mem_map.mpr fun token member => ?_, ordered⟩
        have := behind token member
        omega

theorem ordered_of_tokenize (valid : grammar.validate = .ok ()) {text : String}
    {tokens : List Token} (tokenized : tokenize grammar text = .ok tokens) :
    (tokens.map Token.position).Pairwise (· < ·) :=
  (((tokenize_eq_ok_iff valid).mp tokenized).cut valid).ordered.2

end Lexer

/-! ## Folded tokens -/

namespace Token

variable {grammar : Grammar}

/-- What folding keeps of a token. -/
def place (token : Token) : Token.Kind × Nat :=
  (token.kind, token.position)

theorem place_afterSign (previous sign : Token) : (previous.afterSign sign).place = sign.place := by
  unfold afterSign
  split
  · rfl
  · rfl

/-- A token that folding adds is put in front of the others, or in the place of a sign. -/
theorem foldOnto_cases (folded : List Token) (token : Token) :
    foldOnto grammar folded token = token :: folded ∨
      ∃ sign before merged, folded = sign :: before ∧
        foldOnto grammar folded token = merged :: before ∧ merged.place = token.place ∧
          sign.kind = .operator ∧ (token.kind = .operator ∨ token.kind = .number) := by
  cases folded with
  | nil => exact .inl rfl
  | cons last before =>
      cases isSign : last.isSign with
      | false => exact .inl (foldOnto_of_not_sign isSign)
      | true =>
          have lastKind := kind_of_isSign isSign
          rw [foldOnto_of_sign isSign]
          split
          · next tokenIsSign =>
              exact .inr ⟨last, before, _, rfl, rfl, place_afterSign last token, lastKind,
                .inl (kind_of_isSign tokenIsSign)⟩
          · split
            · next isNumber =>
                refine .inr ⟨last, before, _, rfl, rfl, ?_, lastKind, .inr isNumber.1⟩
                split <;> rfl
            · exact .inl rfl

theorem places_foldOnto (folded : List Token) (token : Token) :
    ((foldOnto grammar folded token).map place).Sublist ((token :: folded).map place) := by
  obtain pushed | ⟨sign, before, merged, rfl, merges, samePlace, -⟩ :=
    @foldOnto_cases grammar folded token
  · rw [pushed]
  · rw [merges, List.map_cons, List.map_cons, List.map_cons, samePlace]
    exact ((List.Sublist.refl _).cons _).cons_cons _

/-- Folding drops some of the tokens and leaves the others in their places. -/
theorem places_foldSigns (tokens : List Token) :
    ((foldSigns grammar tokens).map place).Sublist (tokens.map place) := by
  suffices general : ∀ folded : List Token,
      ((tokens.foldl (foldOnto grammar) folded).map place).Sublist
        ((tokens.reverse ++ folded).map place) by
    rw [foldSigns, List.map_reverse, ← List.reverse_reverse (tokens.map place),
      List.reverse_sublist, ← List.map_reverse]
    simpa using general []
  induction tokens with
  | nil => exact fun _ => .refl _
  | cons token tokens ih =>
      intro folded
      refine (ih (foldOnto grammar folded token)).trans ?_
      rw [List.reverse_cons, List.append_assoc, List.map_append, List.map_append]
      exact (List.Sublist.refl _).append (places_foldOnto folded token)

theorem foldSigns_eq_nil_iff {tokens : List Token} :
    foldSigns grammar tokens = [] ↔ tokens = [] := by
  constructor
  · intro empty
    rcases List.eq_nil_or_concat tokens with rfl | ⟨front, last, rfl⟩
    · rfl
    · rw [List.concat_eq_append, foldSigns_concat, List.reverse_eq_nil_iff] at empty
      obtain pushed | ⟨_, _, _, -, merges, -⟩ :=
        @foldOnto_cases grammar (foldSigns grammar front).reverse last
      · simp [pushed] at empty
      · simp [merges] at empty
  · rintro rfl
    rfl

/-- An operator or a number with a text, as folding writes them. -/
def IsRewritten (token : Token) : Prop :=
  (token.kind = .operator ∨ token.kind = .number) ∧ token.text ≠ none

theorem mem_foldOnto {folded : List Token} {token other : Token}
    (member : other ∈ foldOnto grammar folded token) :
    other = token ∨ other ∈ folded ∨ other.IsRewritten := by
  cases folded with
  | nil => exact .inl (List.mem_singleton.mp member)
  | cons last before =>
      have pushed (member : other ∈ token :: last :: before) :
          other = token ∨ other ∈ last :: before ∨ other.IsRewritten :=
        (List.mem_cons.mp member).imp_right .inl
      cases isSign : last.isSign with
      | false =>
          rw [foldOnto_of_not_sign isSign] at member
          exact pushed member
      | true =>
          rw [foldOnto_of_sign isSign] at member
          split at member
          · next alsoSign =>
              obtain rfl | below := List.mem_cons.mp member
              · have merged := afterSign_eq_signAt isSign alsoSign
                rw [merged]
                exact .inr (.inr ⟨.inl rfl, by simp [signAt]⟩)
              · exact .inr (.inl (.tail _ below))
          · split at member
            · next joins =>
                obtain rfl | below := List.mem_cons.mp member
                · split
                  · exact .inr (.inr ⟨.inr joins.1, by simp [negated]⟩)
                  · exact .inl rfl
                · exact .inr (.inl (.tail _ below))
            · exact pushed member

theorem mem_foldSigns {tokens : List Token} {token : Token}
    (member : token ∈ foldSigns grammar tokens) :
    token ∈ tokens ∨ token.IsRewritten := by
  suffices general : ∀ folded : List Token, token ∈ tokens.foldl (foldOnto grammar) folded →
      token ∈ tokens ∨ token ∈ folded ∨ token.IsRewritten by
    simpa using general [] (List.mem_reverse.mp member)
  clear member
  induction tokens with
  | nil => exact fun _ member => .inr (.inl member)
  | cons first tokens ih =>
      intro folded member
      obtain later | onto | rewritten := ih _ member
      · exact .inl (.tail _ later)
      · obtain rfl | below := mem_foldOnto onto
        · exact .inl (.head _)
        · exact .inr below
      · exact .inr (.inr rewritten)

theorem standsIn_foldSigns {text : List Char} {tokens : List Token}
    (stand : ∀ token ∈ tokens, Lexer.StandsIn text token) :
    ∀ token ∈ foldSigns grammar tokens, Lexer.StandsIn text token := by
  intro token member
  obtain ⟨other, isOther, same⟩ := List.mem_map.mp
    ((places_foldSigns tokens).subset (List.mem_map_of_mem member))
  obtain ⟨sameKind, samePosition⟩ := Prod.mk.inj same
  obtain ⟨passed, first, following, whole, position, isNumber⟩ := stand other isOther
  exact ⟨passed, first, following, whole, samePosition ▸ position, sameKind ▸ isNumber⟩

theorem ordered_foldSigns {tokens : List Token}
    (ordered : (tokens.map position).Pairwise (· < ·)) :
    ((foldSigns grammar tokens).map position).Pairwise (· < ·) := by
  have sublist := (@places_foldSigns grammar tokens).map Prod.snd
  simp only [List.map_map] at sublist
  exact ordered.sublist sublist

end Token

end Formula
