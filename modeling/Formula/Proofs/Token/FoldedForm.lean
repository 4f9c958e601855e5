import Formula.Proofs.Token.Places
import Mathlib.Data.List.Induction

/-!
# The folded form of signs

Folding reaches a form that it leaves alone: no two signs stand next to each other, and a sign
stands in front of a number only behind something that a binary operator can follow.  Apart from
signs and the minuses of numbers all tokens stay as they are.  A run of signs leaves one sign, which
is their product.
-/

namespace Formula

namespace Token

variable {grammar : Grammar} {token : Token} {folded tokens : List Token}

/-! ## Signs in front of numbers -/

/-- The number that a sign in front of it makes. -/
def withSign (negative : Bool) (number : Token) : Token :=
  if negative then number.negated else number

theorem kind_withSign (negative : Bool) (number : Token) :
    (number.withSign negative).kind = number.kind := by
  cases negative <;> rfl

theorem foldOnto_onto_sign {sign : Token} {before : List Token} (isSign : sign.isSign = true)
    (notSign : token.isSign = false) :
    foldOnto grammar (sign :: before) token =
      if token.kind = .number ∧ before.head?.all (expectsOperand grammar) then
        token.withSign sign.isMinus :: before
      else token :: sign :: before := by
  rw [foldOnto_of_sign isSign, if_neg (by simp [notSign])]
  rfl

/-! ## The folded form -/

/-- Behind the tokens a sign can be a binary operator. -/
def EndInOperand (grammar : Grammar) (before : List Token) : Prop :=
  ∃ last ∈ before.getLast?, last.kind = .operator → grammar.isSuffixOperator last.lexeme = true

/-- Tokens in which no sign is left to fold. -/
structure IsFolded (grammar : Grammar) (tokens : List Token) : Prop where
  apart : ∀ before sign next after, tokens = before ++ sign :: next :: after →
    sign.isSign = true → next.isSign = false
  detached : ∀ before sign number after, tokens = before ++ sign :: number :: after →
    sign.isSign = true → number.kind = .number → EndInOperand grammar before

/-- A token that does not fold with the folded ones in front of it, which are given last first. -/
def StaysApart (grammar : Grammar) (folded : List Token) (token : Token) : Prop :=
  ∀ sign before, folded = sign :: before → sign.isSign = true →
    token.isSign = false ∧ (token.kind = .number → EndInOperand grammar before.reverse)

theorem all_expectsOperand_eq_false_iff {before : List Token} :
    before.head?.all (expectsOperand grammar) = false ↔ EndInOperand grammar before.reverse := by
  cases before with
  | nil => simp [EndInOperand]
  | cons last before => simp [EndInOperand, expectsOperand]

theorem StaysApart.foldOnto (apart : StaysApart grammar folded token) :
    Token.foldOnto grammar folded token = token :: folded := by
  cases folded with
  | nil => rfl
  | cons last before =>
      cases isSign : last.isSign with
      | false => exact foldOnto_of_not_sign isSign
      | true =>
          obtain ⟨notSign, detached⟩ := apart last before rfl isSign
          rw [foldOnto_onto_sign isSign notSign, if_neg]
          rintro ⟨isNumber, expects⟩
          rw [all_expectsOperand_eq_false_iff.mpr (detached isNumber)] at expects
          cases expects

theorem staysApart_of_not_sign {last : Token} {before : List Token}
    (notSign : last.isSign = false) : StaysApart grammar (last :: before) token := by
  rintro _ _ ⟨⟩ isSign
  rw [notSign] at isSign
  cases isSign

/-- Two neighbours in a list are its last two items or stand in front of the last one. -/
theorem neighbours_of_concat {α : Type} {items before after : List α} {last first second : α}
    (same : items ++ [last] = before ++ first :: second :: after) :
    items = before ++ [first] ∧ last = second ∨
      ∃ following, items = before ++ first :: second :: following := by
  rcases List.eq_nil_or_concat after with rfl | ⟨following, final, rfl⟩
  · have same : items ++ [last] = (before ++ [first]) ++ [second] := by simpa using same
    obtain ⟨front, back⟩ := List.append_inj' same rfl
    exact .inl ⟨front, List.singleton_inj.mp back⟩
  · have same : items ++ [last] = (before ++ first :: second :: following) ++ [final] := by
      simpa using same
    exact .inr ⟨following, (List.append_inj' same rfl).1⟩

theorem isFolded_reverse_cons_iff :
    IsFolded grammar (token :: folded).reverse ↔
      IsFolded grammar folded.reverse ∧ StaysApart grammar folded token := by
  rw [List.reverse_cons]
  constructor
  · intro isFolded
    refine ⟨⟨?_, ?_⟩, ?_⟩
    · intro before sign next after same
      exact isFolded.apart before sign next (after ++ [token]) (by simp [same])
    · intro before sign number after same
      exact isFolded.detached before sign number (after ++ [token]) (by simp [same])
    · rintro sign before rfl isSign
      have same : (sign :: before).reverse ++ [token] = before.reverse ++ sign :: token :: [] := by
        simp
      exact ⟨isFolded.apart _ _ _ _ same isSign, isFolded.detached _ _ _ _ same isSign⟩
  · rintro ⟨isFolded, apart⟩
    constructor
    · intro before sign next after same isSign
      obtain ⟨front, rfl⟩ | ⟨following, same⟩ := neighbours_of_concat same
      · exact (apart sign before.reverse (by simpa [List.reverse_eq_iff] using front) isSign).1
      · exact isFolded.apart before sign next following same isSign
    · intro before sign number after same isSign isNumber
      obtain ⟨front, rfl⟩ | ⟨following, same⟩ := neighbours_of_concat same
      · have detached := apart sign before.reverse (by simpa [List.reverse_eq_iff] using front)
          isSign
        simpa using detached.2 isNumber
      · exact isFolded.detached before sign number following same isSign isNumber

theorem isFolded_foldOnto (isFolded : IsFolded grammar folded.reverse) (token : Token) :
    IsFolded grammar (foldOnto grammar folded token).reverse := by
  cases folded with
  | nil => exact isFolded_reverse_cons_iff.mpr ⟨isFolded, nofun⟩
  | cons last before =>
      cases isSign : last.isSign with
      | false =>
          have apart : StaysApart grammar (last :: before) token := staysApart_of_not_sign isSign
          rw [apart.foldOnto]
          exact isFolded_reverse_cons_iff.mpr ⟨isFolded, apart⟩
      | true =>
          -- No sign stands below the last one, so what takes its place is apart again.
          obtain ⟨isFoldedBefore, apart⟩ := isFolded_reverse_cons_iff.mp isFolded
          have replaced (merged : Token) : IsFolded grammar (merged :: before).reverse := by
            refine isFolded_reverse_cons_iff.mpr ⟨isFoldedBefore, ?_⟩
            intro sign earlier same alsoSign
            have notSign := (apart sign earlier same alsoSign).1
            rw [isSign] at notSign
            cases notSign
          cases alsoSign : token.isSign with
          | true =>
              rw [foldOnto_of_sign isSign, if_pos alsoSign]
              exact replaced _
          | false =>
              rw [foldOnto_onto_sign isSign alsoSign]
              split
              · exact replaced _
              · next notJoined =>
                  refine isFolded_reverse_cons_iff.mpr ⟨isFolded, ?_⟩
                  rintro _ _ ⟨⟩ -
                  refine ⟨alsoSign, fun isNumber => ?_⟩
                  apply all_expectsOperand_eq_false_iff.mp
                  rw [← Bool.not_eq_true]
                  exact fun expects => notJoined ⟨isNumber, expects⟩

theorem isFolded_foldSigns (grammar : Grammar) (tokens : List Token) :
    IsFolded grammar (foldSigns grammar tokens) := by
  induction tokens using List.reverseRecOn with
  | nil => exact ⟨by simp [foldSigns], by simp [foldSigns]⟩
  | append_singleton tokens last ih =>
      rw [foldSigns_concat]
      exact isFolded_foldOnto (by rwa [List.reverse_reverse]) last

theorem foldSigns_of_isFolded (isFolded : IsFolded grammar tokens) :
    foldSigns grammar tokens = tokens := by
  induction tokens using List.reverseRecOn with
  | nil => rfl
  | append_singleton tokens last ih =>
      have split : IsFolded grammar (last :: tokens.reverse).reverse := by simpa using isFolded
      obtain ⟨isFolded, apart⟩ := isFolded_reverse_cons_iff.mp split
      rw [List.reverse_reverse] at isFolded
      rw [foldSigns_concat, ih isFolded, apart.foldOnto]
      simp

/-! ## What folding keeps -/

def withoutMinus (text : String) : String :=
  match text.toList with
  | '-' :: rest => String.ofList rest
  | _ => text

/-- What a token is apart from its sign; nothing is left of a sign. -/
def core? (token : Token) : Option Token :=
  if token.isSign then none
  else if token.kind = .number then some { token with text := token.text.map withoutMinus }
  else some token

def cores (tokens : List Token) : List Token :=
  tokens.filterMap core?

/-- The text of a number has no minus of its own. -/
def IsUnsigned (token : Token) : Prop :=
  token.kind = .number → ∃ text, token.text = some text ∧ text.toList.head? ≠ some '-'

theorem core?_of_isUnsigned (unsigned : token.IsUnsigned) (notSign : token.isSign = false) :
    token.core? = some token := by
  rw [core?, if_neg (by simp [notSign])]
  split
  · next isNumber =>
      obtain ⟨text, isText, noMinus⟩ := unsigned isNumber
      have kept : withoutMinus text = text := by
        unfold withoutMinus
        split
        · next starts => simp [starts] at noMinus
        · rfl
      rw [isText, Option.map_some, kept, ← isText]
  · rfl

theorem withoutMinus_minus (text : String) : withoutMinus ("-" ++ text) = text := by
  simp [withoutMinus]

theorem core?_withSign (unsigned : token.IsUnsigned) (isNumber : token.kind = .number)
    (negative : Bool) : (token.withSign negative).core? = some token := by
  have staysNumber : (token.withSign negative).kind = .number :=
    (kind_withSign negative token).trans isNumber
  have notSign : (token.withSign negative).isSign = false :=
    isSign_of_kind (by simp [staysNumber])
  cases negative with
  | false => exact core?_of_isUnsigned unsigned notSign
  | true =>
      rw [core?, if_neg (by simp [notSign]), if_pos staysNumber]
      obtain ⟨kind, text, position⟩ := token
      obtain ⟨text, rfl, -⟩ := unsigned isNumber
      simp [withSign, negated, lexeme, withoutMinus_minus]

theorem core?_of_isSign (isSign : token.isSign = true) : token.core? = none := by
  rw [core?, if_pos isSign]

theorem cores_append (before after : List Token) :
    cores (before ++ after) = cores before ++ cores after :=
  List.filterMap_append

theorem cores_singleton (token : Token) : cores [token] = token.core?.toList := by
  cases isCore : token.core? <;> simp [cores, isCore]

theorem cores_foldOnto (unsigned : token.IsUnsigned) (folded : List Token) :
    cores (foldOnto grammar folded token).reverse = cores folded.reverse ++ cores [token] := by
  cases folded with
  | nil => rfl
  | cons last before =>
      cases isSign : last.isSign with
      | false => rw [foldOnto_of_not_sign isSign, List.reverse_cons, cores_append]
      | true =>
          have dropped := core?_of_isSign isSign
          cases alsoSign : token.isSign with
          | true =>
              have merged := core?_of_isSign (isSign_afterSign isSign alsoSign)
              rw [foldOnto_of_sign isSign, if_pos alsoSign]
              simp [cores_append, cores_singleton, dropped, core?_of_isSign alsoSign, merged]
          | false =>
              have kept := core?_of_isUnsigned unsigned alsoSign
              rw [foldOnto_onto_sign isSign alsoSign]
              split
              · next joins =>
                  have joined := core?_withSign unsigned joins.1 last.isMinus
                  simp [cores_append, cores_singleton, dropped, kept, joined]
              · rw [List.reverse_cons, cores_append]

theorem cores_foldl_foldOnto (grammar : Grammar) (unsigned : ∀ token ∈ tokens, token.IsUnsigned)
    (folded : List Token) :
    cores (tokens.foldl (foldOnto grammar) folded).reverse =
      cores folded.reverse ++ cores tokens := by
  induction tokens generalizing folded with
  | nil => simp [cores]
  | cons token tokens ih =>
      obtain ⟨first, unsigned⟩ := List.forall_mem_cons.mp unsigned
      rw [List.foldl_cons, ih unsigned, cores_foldOnto first, List.append_assoc, ← cores_append,
        List.singleton_append]

theorem cores_foldSigns (unsigned : ∀ token ∈ tokens, token.IsUnsigned) :
    cores (foldSigns grammar tokens) = cores tokens :=
  cores_foldl_foldOnto grammar unsigned []

/-! ## Runs of signs -/

/-- The sign of an operator or of a number. -/
def signValue (token : Token) : Int :=
  if token.lexeme.toList.head? = some '-' then -1 else 1

def signProduct : List Token → Int
  | [] => 1
  | sign :: signs => sign.signValue * signProduct signs

theorem signValue_signAt (negative : Bool) (position : Nat) :
    (signAt negative position).signValue = if negative then -1 else 1 := by
  cases negative <;> simp [signAt, signOf, signValue, lexeme]

theorem signValue_withSign (unsigned : token.IsUnsigned) (isNumber : token.kind = .number)
    (negative : Bool) : (token.withSign negative).signValue = if negative then -1 else 1 := by
  cases negative with
  | false =>
      obtain ⟨text, isText, noMinus⟩ := unsigned isNumber
      simp [withSign, signValue, lexeme, isText, noMinus]
  | true => simp [withSign, signValue, negated, lexeme]

theorem signProduct_of_isSign {signs : List Token} (areSigns : ∀ sign ∈ signs, sign.isSign = true) :
    signProduct signs = if negates signs then -1 else 1 := by
  induction signs with
  | nil => rfl
  | cons sign signs ih =>
      obtain ⟨isSign, areSigns⟩ := List.forall_mem_cons.mp areSigns
      have value : sign.signValue = if sign.isMinus then -1 else 1 := by
        rw [eq_signAt_of_isSign isSign, signValue_signAt, isMinus_signAt]
      rw [signProduct, ih areSigns, value, negates]
      cases sign.isMinus <;> cases negates signs <;> rfl

/-- Signs with no sign next to them. -/
structure IsRun (before signs after : List Token) : Prop where
  present : signs ≠ []
  areSigns : ∀ sign ∈ signs, sign.isSign = true
  startsAfter : ∀ last ∈ before.getLast?, last.isSign = false
  endsBefore : ∀ next ∈ after.head?, next.isSign = false

theorem isSign_head?_foldOnto (notSign : token.isSign = false) (folded : List Token) :
    ∀ last ∈ (foldOnto grammar folded token).head?, last.isSign = false := by
  cases folded with
  | nil =>
      rintro _ ⟨⟩
      exact notSign
  | cons last before =>
      cases isSign : last.isSign with
      | false =>
          rw [foldOnto_of_not_sign isSign]
          rintro _ ⟨⟩
          exact notSign
      | true =>
          rw [foldOnto_onto_sign isSign notSign]
          split
          · next joins =>
              rintro _ ⟨⟩
              exact isSign_of_kind (by simp [kind_withSign, joins.1])
          · rintro _ ⟨⟩
            exact notSign

/-- What is no sign stays at the bottom. -/
theorem foldl_foldOnto_of_not_sign (grammar : Grammar) {bottom : Token}
    (notSign : bottom.isSign = false) (tokens below : List Token) :
    ∃ others, tokens.foldl (foldOnto grammar) (bottom :: below) = others ++ bottom :: below := by
  induction tokens using List.reverseRecOn with
  | nil => exact ⟨[], rfl⟩
  | append_singleton tokens last ih =>
      obtain ⟨others, same⟩ := ih
      rw [List.foldl_append, same, List.foldl_cons, List.foldl_nil]
      cases others with
      | nil => exact ⟨[last], foldOnto_of_not_sign notSign⟩
      | cons top others =>
          obtain pushed | ⟨_, _, merged, ⟨⟩, merges, -⟩ :=
            @foldOnto_cases grammar (top :: others ++ bottom :: below) last
          · exact ⟨last :: top :: others, pushed⟩
          · exact ⟨merged :: others, merges⟩

theorem reverse_foldl_foldOnto (grammar : Grammar) {bottom : Token}
    (notSign : bottom.isSign = false) (unsigned : ∀ token ∈ tokens, token.IsUnsigned)
    (below : List Token) :
    ∃ others, (tokens.foldl (foldOnto grammar) (bottom :: below)).reverse =
      below.reverse ++ bottom :: others ∧ cores others = cores tokens := by
  obtain ⟨others, same⟩ := foldl_foldOnto_of_not_sign grammar notSign tokens below
  have kept := cores_foldl_foldOnto grammar unsigned (bottom :: below)
  rw [same, List.reverse_append, cores_append] at kept
  exact ⟨others.reverse, by simp [same], List.append_cancel_left kept⟩

theorem foldl_foldOnto_run (grammar : Grammar) {before signs after : List Token}
    (run : IsRun before signs after) :
    ∃ position, signs.foldl (foldOnto grammar) (foldSigns grammar before).reverse =
      signAt (negates signs) position :: (foldSigns grammar before).reverse := by
  obtain ⟨sign, signs, rfl⟩ := List.exists_cons_of_ne_nil run.present
  obtain ⟨isSign, areSigns⟩ := List.forall_mem_cons.mp run.areSigns
  have begins : StaysApart grammar (foldSigns grammar before).reverse sign := by
    rcases List.eq_nil_or_concat before with rfl | ⟨front, last, rfl⟩
    · rintro _ _ ⟨⟩
    · have notSign := run.startsAfter last (by simp)
      rw [List.concat_eq_append, foldSigns_concat, List.reverse_reverse]
      intro sign' earlier same isSign'
      have := isSign_head?_foldOnto notSign _ sign' (by rw [same]; rfl)
      rw [isSign'] at this
      cases this
  obtain ⟨position, merged⟩ := foldl_afterSign isSign areSigns
  refine ⟨position, ?_⟩
  rw [List.foldl_cons, begins.foldOnto, foldl_foldOnto_signs isSign areSigns, merged]

theorem foldSigns_run {before signs after : List Token} (run : IsRun before signs after)
    (unsigned : ∀ token ∈ after, token.IsUnsigned) :
    ∃ left others,
      foldSigns grammar (before ++ signs ++ after) = foldSigns grammar before ++ left :: others ∧
        left.signValue = signProduct signs ∧
          (left.isSign = true ∧ cores others = cores after ∨
            ∃ number rest, after = number :: rest ∧ number.kind = .number ∧
              left.core? = some number ∧ cores others = cores rest) := by
  obtain ⟨position, merged⟩ := foldl_foldOnto_run grammar run
  have isSign := isSign_signAt (negates signs) position
  have whole : foldSigns grammar (before ++ signs ++ after) = (after.foldl (foldOnto grammar)
      (signAt (negates signs) position :: (foldSigns grammar before).reverse)).reverse := by
    rw [← merged, foldSigns, foldSigns, List.reverse_reverse, List.foldl_append, List.foldl_append]
  rw [whole, signProduct_of_isSign run.areSigns]
  cases after with
  | nil => exact ⟨_, [], by simp, signValue_signAt _ position, .inl ⟨isSign, rfl⟩⟩
  | cons next rest =>
      have notSign := run.endsBefore next rfl
      obtain ⟨unsignedNext, unsigned⟩ := List.forall_mem_cons.mp unsigned
      rw [List.foldl_cons, foldOnto_onto_sign isSign notSign, isMinus_signAt]
      split
      · next joins =>
          have isNumber := joins.1
          have staysNumber := (kind_withSign (negates signs) next).trans isNumber
          have notSign : (next.withSign (negates signs)).isSign = false :=
            isSign_of_kind (by simp [staysNumber])
          obtain ⟨others, same, kept⟩ := reverse_foldl_foldOnto grammar notSign unsigned
            (foldSigns grammar before).reverse
          rw [List.reverse_reverse] at same
          exact ⟨_, others, same, signValue_withSign unsignedNext isNumber _,
            .inr ⟨next, rest, rfl, isNumber, core?_withSign unsignedNext isNumber _, kept⟩⟩
      · obtain ⟨others, same, kept⟩ := reverse_foldl_foldOnto grammar notSign unsigned
          (signAt (negates signs) position :: (foldSigns grammar before).reverse)
        refine ⟨_, next :: others, ?_, signValue_signAt _ position, .inl ⟨isSign, ?_⟩⟩
        · rw [same]
          simp
        · rw [← List.singleton_append, cores_append, kept, ← cores_append, List.singleton_append]

end Token

/-! ## The tokens of a text -/

namespace Lexer

variable {grammar : Grammar}

theorem isUnsigned_of_next {spellings : List String} {cursor after : Cursor} {token : Token}
    (reads : next grammar spellings cursor = (.ok (some token), after)) : token.IsUnsigned := by
  intro isNumber
  obtain ⟨lexeme, isNumeral, isText⟩ := isNumeral_of_next reads isNumber
  refine ⟨_, isText, ?_⟩
  obtain ⟨first, following, rfl, isDigit | rfl⟩ := isNumeral.first
  · rw [String.toList_ofList]
    rintro ⟨⟩
    cases isDigit
  · simp

theorem isUnsigned_of_tokenize {text : String} {tokens : List Token}
    (tokenized : tokenize grammar text = .ok tokens) : ∀ token ∈ tokens, token.IsUnsigned :=
  forall_of_tokensFrom (fun _ => isUnsigned_of_next) (.refl _) tokenized

end Lexer

namespace Token

/-- Folding brings the tokens of a text into a form that no sign is left to fold in and that it
leaves alone.  It keeps all but the signs.  A run of signs leaves one sign, or a number with a sign,
and this sign is the product of the run. -/
theorem foldSigns_normalises (grammar : Grammar) {lexing : Grammar} {text : String}
    {tokens : List Token} (tokenized : Lexer.tokenize lexing text = .ok tokens) :
    IsFolded grammar (foldSigns grammar tokens) ∧
    foldSigns grammar (foldSigns grammar tokens) = foldSigns grammar tokens ∧
    cores (foldSigns grammar tokens) = cores tokens ∧
    ∀ before signs after, tokens = before ++ signs ++ after → IsRun before signs after →
      ∃ left others, foldSigns grammar tokens = foldSigns grammar before ++ left :: others ∧
        left.signValue = signProduct signs ∧
          (left.isSign = true ∧ cores others = cores after ∨
            ∃ number rest, after = number :: rest ∧ number.kind = .number ∧
              left.core? = some number ∧ cores others = cores rest) := by
  have unsigned := Lexer.isUnsigned_of_tokenize tokenized
  refine ⟨isFolded_foldSigns grammar tokens, foldSigns_of_isFolded (isFolded_foldSigns _ _),
    cores_foldSigns unsigned, ?_⟩
  rintro before signs after rfl run
  exact foldSigns_run run fun token member => unsigned token (List.mem_append_right _ member)

/-- A run behind a suffix operator, of which an operator is left, and one that a number takes up. -/
theorem foldSigns_normalises_of_suffix :
    let before : List Token :=
      [⟨.number, some "2", 0⟩, ⟨.operator, some "!", 1⟩, ⟨.operator, some "+", 2⟩,
        ⟨.operator, some "-", 3⟩, ⟨.number, some "1", 4⟩, ⟨.operator, some "*", 5⟩]
    let signs : List Token :=
      [⟨.operator, some "-", 6⟩, ⟨.operator, some "+", 7⟩, ⟨.operator, some "+", 8⟩]
    let after : List Token := [⟨.number, some "3", 9⟩]
    let folded : List Token :=
      [⟨.number, some "2", 0⟩, ⟨.operator, some "!", 1⟩, ⟨.operator, some "-", 3⟩,
        ⟨.number, some "1", 4⟩, ⟨.operator, some "*", 5⟩, ⟨.number, some "-3", 9⟩]
    Lexer.tokenize .standard "2!+-1*-++3" = .ok (before ++ signs ++ after) ∧
      foldSigns .standard (before ++ signs ++ after) = folded ∧ IsFolded .standard folded ∧
        foldSigns .standard folded = folded ∧ cores folded = cores (before ++ signs ++ after) ∧
          ∃ left others, folded = foldSigns .standard before ++ left :: others ∧
            left.signValue = -1 := by
  intro before signs after folded
  have tokenized : Lexer.tokenize .standard "2!+-1*-++3" = .ok (before ++ signs ++ after) := by
    decide +kernel
  have folds : foldSigns .standard (before ++ signs ++ after) = folded := by decide +kernel
  have ⟨isFolded, stays, kept, runs⟩ := foldSigns_normalises .standard tokenized
  rw [folds] at isFolded stays kept
  have run : IsRun before signs after := ⟨by decide, by decide, by decide, by decide⟩
  obtain ⟨left, others, same, value, -⟩ := runs before signs after rfl run
  refine ⟨tokenized, folds, isFolded, stays, kept, left, others, folds.symm.trans same, ?_⟩
  rw [value]
  decide +kernel

end Token

end Formula
