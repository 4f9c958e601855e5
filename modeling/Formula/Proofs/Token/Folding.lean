import Formula.Proofs.Joining
import Formula.Token.Sign

/-!
# Tokens that do not fold

Only signs fold, and a sign directly behind an operand folds with nothing that is no sign itself.
-/

namespace Formula.Token

variable {grammar : Grammar}

theorem kind_of_isSign {token : Token} (sign : token.isSign = true) : token.kind = .operator := by
  simp only [isSign, isPlus, isMinus, isOperator, Bool.or_eq_true, Bool.and_eq_true,
    beq_iff_eq] at sign
  exact sign.elim And.left And.left

theorem isSign_of_kind {token : Token} (notOperator : token.kind ≠ .operator) :
    token.isSign = false := by
  rw [← Bool.not_eq_true]
  exact fun sign => notOperator (kind_of_isSign sign)

/-- How a sign is spelled. -/
def signOf (negative : Bool) : String :=
  if negative then "-" else "+"

theorem signOf_mem (negative : Bool) : signOf negative ∈ ["+", "-"] := by
  cases negative
  · exact .head _
  · exact .tail _ (.head _)

def signAt (negative : Bool) (position : Nat) : Token :=
  ⟨.operator, some (signOf negative), position⟩

@[simp]
theorem isSign_signAt (negative : Bool) (position : Nat) :
    (signAt negative position).isSign = true := by
  cases negative <;> rfl

@[simp]
theorem isMinus_signAt (negative : Bool) (position : Nat) :
    (signAt negative position).isMinus = negative := by
  cases negative <;> rfl

theorem eq_signAt_of_isSign {token : Token} (isSign : token.isSign = true) :
    token = signAt token.isMinus token.position := by
  have kind := kind_of_isSign isSign
  obtain ⟨_, _ | spelling, position⟩ := token
  · cases kind
    cases isSign
  · cases kind
    have spelled : spelling = "+" ∨ spelling = "-" := by
      simpa [Token.isSign, isPlus, isMinus, isOperator, lexeme] using isSign
    rcases spelled with rfl | rfl
    · rfl
    · rfl

theorem afterSign_eq_signAt {previous sign : Token} (isPrevious : previous.isSign = true)
    (isSign : sign.isSign = true) :
    previous.afterSign sign = signAt (previous.isMinus ^^ sign.isMinus) sign.position := by
  have spelled := eq_signAt_of_isSign isSign
  have spelled' := eq_signAt_of_isSign isPrevious
  generalize sign.isMinus = second, sign.position = position at spelled ⊢
  generalize previous.isMinus = first at spelled' ⊢
  subst spelled
  rw [spelled']
  cases first <;> cases second <;> rfl

theorem isSign_afterSign {previous sign : Token} (isPrevious : previous.isSign = true)
    (isSign : sign.isSign = true) : (previous.afterSign sign).isSign = true := by
  rw [afterSign_eq_signAt isPrevious isSign, isSign_signAt]

theorem foldOnto_of_not_sign {last token : Token} {before : List Token}
    (notSign : last.isSign = false) :
    foldOnto grammar (last :: before) token = token :: last :: before := by
  simp [foldOnto, notSign]

theorem foldOnto_of_sign {last token : Token} {before : List Token} (isSign : last.isSign = true) :
    foldOnto grammar (last :: before) token =
      if token.isSign then last.afterSign token :: before
      else if token.kind = .number ∧ before.head?.all (expectsOperand grammar) then
        (if last.isMinus then token.negated else token) :: before
      else token :: last :: before := by
  simp only [foldOnto, isSign, if_true]

/-- Folded tokens, last first, that end in no sign or in one behind an operand. -/
def Ready (folded : List Token) : Prop :=
  ∀ sign before, folded = sign :: before → sign.isSign = true →
    ∃ operand earlier, before = operand :: earlier ∧ operand.kind ≠ .operator

theorem ready_cons {last : Token} (before : List Token) (notSign : last.isSign = false) :
    Ready (last :: before) := by
  rintro _ _ ⟨⟩ isSign
  rw [notSign] at isSign
  cases isSign

theorem Ready.foldOnto {folded : List Token} (ready : Ready folded) {token : Token}
    (notSign : token.isSign = false) : Token.foldOnto grammar folded token = token :: folded := by
  cases folded with
  | nil => rfl
  | cons last before =>
      cases isSign : last.isSign with
      | false => exact foldOnto_of_not_sign isSign
      | true =>
          obtain ⟨operand, earlier, rfl, notOperator⟩ := ready last before rfl isSign
          simp [Token.foldOnto, isSign, notSign, expectsOperand, notOperator]

/-- Tokens that are put behind what is ready without folding, and leave it ready. -/
def Keeps (grammar : Grammar) (tokens : List Token) : Prop :=
  ∀ folded, Ready folded →
    tokens.foldl (foldOnto grammar) folded = tokens.reverse ++ folded ∧
      Ready (tokens.reverse ++ folded)

namespace Keeps

theorem nil : Keeps grammar [] :=
  fun _ ready => ⟨rfl, ready⟩

theorem singleton {token : Token} (notSign : token.isSign = false) : Keeps grammar [token] :=
  fun folded ready => ⟨ready.foldOnto notSign, ready_cons folded notSign⟩

theorem append {before after : List Token} (keepsBefore : Keeps grammar before)
    (keepsAfter : Keeps grammar after) : Keeps grammar (before ++ after) := by
  intro folded ready
  obtain ⟨foldedBefore, ready⟩ := keepsBefore folded ready
  obtain ⟨foldedAfter, ready⟩ := keepsAfter _ ready
  rw [List.foldl_append, foldedBefore, foldedAfter, List.reverse_append, List.append_assoc]
  exact ⟨rfl, ready⟩

theorem intercalate {separator : Token} {parts : List (List Token)}
    (notSign : separator.isSign = false) (each : ∀ part ∈ parts, Keeps grammar part) :
    Keeps grammar ([separator].intercalate parts) :=
  of_intercalate nil append (singleton notSign) each

/-- Behind an operand even a sign is kept. -/
theorem operator {front : List Token} {last : Token} (keeps : Keeps grammar (front ++ [last]))
    (notOperator : last.kind ≠ .operator) (operator : Token) :
    Keeps grammar (front ++ [last] ++ [operator]) := by
  intro folded ready
  have ⟨foldedFront, _⟩ := keeps folded ready
  have notSign := isSign_of_kind notOperator
  rw [List.foldl_append, foldedFront]
  simp only [List.reverse_append, List.reverse_cons, List.reverse_nil, List.nil_append,
    List.cons_append, List.foldl_cons, List.foldl_nil, foldOnto_of_not_sign notSign, true_and]
  rintro _ _ ⟨⟩ -
  exact ⟨last, _, rfl, notOperator⟩

theorem foldSigns {tokens : List Token} (keeps : Keeps grammar tokens) :
    Token.foldSigns grammar tokens = tokens := by
  have ready : Ready [] := by
    rintro _ _ ⟨⟩
  have ⟨folded, _⟩ := keeps [] ready
  rw [Token.foldSigns, folded, List.append_nil, List.reverse_reverse]

end Keeps

/-! ## Folding on top of other tokens

Folding looks at the last token and at whether one stands in front of it that expects an operand.
So tokens fold on top of others as they fold alone, if nothing below reaches into them. -/

/-- Folded tokens of which the next token sees all that it looks at. -/
def Settled (folded : List Token) : Prop :=
  ∃ last before, folded = last :: before ∧ (last.isSign = true → before ≠ [])

theorem Settled.foldOnto_append {folded : List Token} (settled : Settled folded) (token : Token)
    (below : List Token) :
    foldOnto grammar (folded ++ below) token = foldOnto grammar folded token ++ below ∧
      Settled (foldOnto grammar folded token) := by
  obtain ⟨last, before, rfl, present⟩ := settled
  cases isSign : last.isSign with
  | false =>
      rw [List.cons_append, foldOnto_of_not_sign isSign, foldOnto_of_not_sign isSign]
      exact ⟨rfl, token, last :: before, rfl, fun _ => by simp⟩
  | true =>
      obtain ⟨previous, earlier, rfl⟩ := List.exists_cons_of_ne_nil (present isSign)
      have sameStart : (previous :: earlier ++ below).head? = (previous :: earlier).head? := rfl
      rw [List.cons_append, foldOnto_of_sign isSign, foldOnto_of_sign isSign, sameStart]
      split
      · exact ⟨rfl, _, _, rfl, fun _ => by simp⟩
      · split
        · exact ⟨rfl, _, _, rfl, fun _ => by simp⟩
        · exact ⟨rfl, _, _, rfl, fun _ => by simp⟩

theorem Settled.foldl_append {folded : List Token} (settled : Settled folded)
    (tokens below : List Token) :
    tokens.foldl (foldOnto grammar) (folded ++ below) =
      tokens.foldl (foldOnto grammar) folded ++ below := by
  induction tokens generalizing folded with
  | nil => rfl
  | cons token tokens ih =>
      have ⟨same, stillSettled⟩ : _ ∧ Settled (foldOnto grammar folded token) :=
        settled.foldOnto_append token below
      rw [List.foldl_cons, List.foldl_cons, same, ih stillSettled]

theorem settled_singleton {token : Token} (notSign : token.isSign = false) : Settled [token] :=
  ⟨token, [], rfl, fun isSign => by rw [notSign] at isSign; cases isSign⟩

/-- Behind ready tokens nothing folds into what starts with no sign. -/
theorem foldl_append_of_ready {below tokens : List Token} (ready : Ready below)
    (unsigned : ∀ token ∈ tokens.head?, token.isSign = false) :
    tokens.foldl (foldOnto grammar) below = tokens.foldl (foldOnto grammar) [] ++ below := by
  cases tokens with
  | nil => rfl
  | cons token tokens =>
      have notSign := unsigned token rfl
      have settled := settled_singleton notSign
      rw [List.foldl_cons, ready.foldOnto notSign, List.foldl_cons]
      exact settled.foldl_append tokens below

/-- Whether the tokens begin with signs in front of a number. -/
def beginWithSignedNumber (tokens : List Token) : Bool :=
  tokens.head?.any isSign && (tokens.dropWhile isSign).head?.any fun token => token.kind == .number

/-- On top of an operand or an opening parenthesis signs fold as at the beginning, and only into a
number they do not. -/
theorem foldl_append_of_beginWithSignedNumber {tokens : List Token} {last : Token}
    (notSign : last.isSign = false) (noNumber : beginWithSignedNumber tokens = false)
    (below : List Token) :
    tokens.foldl (foldOnto grammar) (last :: below) =
      tokens.foldl (foldOnto grammar) [] ++ last :: below := by
  have afterSign : ∀ {sign : Token} {tokens : List Token}, sign.isSign = true →
      (tokens.dropWhile isSign).head?.any (fun token => token.kind == .number) = false →
        tokens.foldl (foldOnto grammar) (sign :: last :: below) =
          tokens.foldl (foldOnto grammar) [sign] ++ last :: below := by
    intro sign tokens isSign noNumber
    induction tokens generalizing sign with
    | nil => rfl
    | cons token tokens ih =>
        rw [List.foldl_cons, List.foldl_cons]
        cases alsoSign : token.isSign with
        | true =>
            have merged := isSign_afterSign isSign alsoSign
            rw [List.dropWhile_cons_of_pos alsoSign] at noNumber
            simp only [foldOnto, isSign, alsoSign, if_true]
            exact ih merged noNumber
        | false =>
            rw [List.dropWhile_cons_of_neg (by simp [alsoSign])] at noNumber
            have notNumber : token.kind ≠ .number := by simpa using noNumber
            have settled : Settled [token, sign] :=
              ⟨token, [sign], rfl, fun _ => by simp⟩
            simp only [foldOnto, isSign, alsoSign, notNumber, if_true, false_and, if_false,
              Bool.false_eq_true]
            exact settled.foldl_append tokens (last :: below)
  cases tokens with
  | nil => rfl
  | cons token tokens =>
      rw [List.foldl_cons, foldOnto_of_not_sign notSign, List.foldl_cons]
      cases isSign : token.isSign with
      | true =>
          have startsSigned : (token :: tokens).head?.any Token.isSign = true := by simp [isSign]
          rw [beginWithSignedNumber, startsSigned, Bool.true_and,
            List.dropWhile_cons_of_pos isSign] at noNumber
          exact afterSign isSign noNumber
      | false => exact (settled_singleton isSign).foldl_append tokens (last :: below)

theorem foldOnto_of_other {token : Token} (notSign : token.isSign = false)
    (notNumber : token.kind ≠ .number) (folded : List Token) :
    foldOnto grammar folded token = token :: folded := by
  cases folded with
  | nil => rfl
  | cons last before =>
      cases isSign : last.isSign with
      | false => exact foldOnto_of_not_sign isSign
      | true => simp [foldOnto_of_sign isSign, notSign, notNumber]

theorem foldSigns_concat (tokens : List Token) (last : Token) :
    foldSigns grammar (tokens ++ [last]) =
      (foldOnto grammar (foldSigns grammar tokens).reverse last).reverse := by
  simp [foldSigns]

theorem foldSigns_append_of_ready {first rest : List Token}
    (ready : Ready (foldSigns grammar first).reverse)
    (unsigned : ∀ token ∈ rest.head?, token.isSign = false) :
    foldSigns grammar (first ++ rest) = foldSigns grammar first ++ foldSigns grammar rest := by
  have onto : rest.foldl (foldOnto grammar) (foldSigns grammar first).reverse = _ :=
    foldl_append_of_ready ready unsigned
  rw [foldSigns, List.reverse_reverse] at onto
  rw [foldSigns, List.foldl_append, onto, List.reverse_append]
  rfl

/-! ## Runs of signs -/

/-- Whether the minuses of a run of signs leave one. -/
def negates : List Token → Bool
  | [] => false
  | sign :: signs => sign.isMinus ^^ negates signs

section Run

variable {sign : Token} {signs : List Token} (isSign : sign.isSign = true)
  (areSigns : ∀ sign ∈ signs, sign.isSign = true)

include isSign areSigns

theorem foldl_afterSign :
    ∃ position, signs.foldl afterSign sign = signAt (negates (sign :: signs)) position := by
  induction signs generalizing sign with
  | nil => exact ⟨sign.position, by simpa [negates] using eq_signAt_of_isSign isSign⟩
  | cons second signs ih =>
      obtain ⟨isSecond, areSigns⟩ := List.forall_mem_cons.mp areSigns
      obtain ⟨position, merged⟩ := ih (isSign_afterSign isSign isSecond) areSigns
      refine ⟨position, merged.trans ?_⟩
      simp [negates, afterSign_eq_signAt isSign isSecond]

theorem foldl_foldOnto_signs (below : List Token) :
    signs.foldl (foldOnto grammar) (sign :: below) = signs.foldl afterSign sign :: below := by
  induction signs generalizing sign with
  | nil => rfl
  | cons second signs ih =>
      obtain ⟨isSecond, areSigns⟩ := List.forall_mem_cons.mp areSigns
      rw [List.foldl_cons, List.foldl_cons, foldOnto_of_sign isSign, if_pos isSecond]
      exact ih (isSign_afterSign isSign isSecond) areSigns

end Run

theorem foldSigns_parenthesised {opening closing : Token} {tokens : List Token}
    (opens : opening.kind = .leftParen) (closes : closing.kind = .rightParen)
    (noNumber : beginWithSignedNumber tokens = false) :
    foldSigns grammar (opening :: tokens ++ [closing]) =
      opening :: foldSigns grammar tokens ++ [closing] := by
  have openingNotSign : opening.isSign = false := isSign_of_kind (by simp [opens])
  have closingNotSign : closing.isSign = false := isSign_of_kind (by simp [closes])
  rw [foldSigns, List.cons_append, List.foldl_cons, List.foldl_append]
  rw [show foldOnto grammar [] opening = [opening] from rfl,
    foldl_append_of_beginWithSignedNumber openingNotSign noNumber]
  rw [List.foldl_cons, List.foldl_nil, foldOnto_of_other closingNotSign (by simp [closes])]
  simp [foldSigns]

end Formula.Token
