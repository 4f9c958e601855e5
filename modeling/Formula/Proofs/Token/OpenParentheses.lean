import Formula.Proofs.Token.Grouping

/-!
# The stack of open parentheses

Grouping fails exactly as a machine does that keeps the positions of the open parentheses on a
stack.  An opening parenthesis is pushed, a closing one pops, and off an empty stack it pops
nothing.  The machine fails where an opening parenthesis is met on a stack that is as high as the
limit, and otherwise if something is left on the stack at the end, where it blames the top.
-/

namespace Formula

namespace Token

/-- What a token makes of the positions of the open parentheses, of which the innermost comes
first. -/
def trackOpen (stack : List Nat) (token : Token) : List Nat :=
  match token.kind with
  | .leftParen => token.position :: stack
  | .rightParen => stack.tail
  | _ => stack

theorem trackOpen_opening {stack : List Nat} {token : Token} (kind : token.kind = .leftParen) :
    trackOpen stack token = token.position :: stack := by
  simp [trackOpen, kind]

theorem trackOpen_closing {stack : List Nat} {token : Token} (kind : token.kind = .rightParen) :
    trackOpen stack token = stack.tail := by
  simp [trackOpen, kind]

theorem trackOpen_other {stack : List Nat} {token : Token} (notOpening : token.kind ≠ .leftParen)
    (notClosing : token.kind ≠ .rightParen) : trackOpen stack token = stack := by
  unfold trackOpen
  split
  · contradiction
  · contradiction
  · rfl

/-- The parentheses that are open behind the tokens. -/
def leftOpen (tokens : List Token) : List Nat :=
  tokens.foldl trackOpen []

theorem exists_of_mem_foldl_trackOpen {tokens : List Token} {stack : List Nat} {position : Nat}
    (member : position ∈ tokens.foldl trackOpen stack) :
    position ∈ stack ∨ ∃ token ∈ tokens, token.position = position := by
  induction tokens generalizing stack with
  | nil => exact .inl member
  | cons token tokens ih =>
      obtain tracked | ⟨later, isLater, same⟩ := ih member
      · by_cases opening : token.kind = .leftParen
        · rw [trackOpen_opening opening] at tracked
          obtain rfl | below := List.mem_cons.mp tracked
          · exact .inr ⟨token, .head _, rfl⟩
          · exact .inl below
        · by_cases closing : token.kind = .rightParen
          · rw [trackOpen_closing closing] at tracked
            exact .inl (List.mem_of_mem_tail tracked)
          · rw [trackOpen_other opening closing] at tracked
            exact .inl tracked
      · exact .inr ⟨later, .tail _ isLater, same⟩

/-- Somewhere an opening parenthesis is met while the stack holds as many positions as the limit
allows. -/
def OpensBeyond (limit : Nat) (stack : List Nat) (tokens : List Token) : Prop :=
  ∃ before opening after, tokens = before ++ opening :: after ∧ opening.kind = .leftParen ∧
    limit ≤ (before.foldl trackOpen stack).length

theorem not_opensBeyond_nil (limit : Nat) (stack : List Nat) : ¬ OpensBeyond limit stack [] := by
  rintro ⟨before, opening, after, impossible, -⟩
  simp at impossible

theorem opensBeyond_cons_iff {limit : Nat} {stack : List Nat} {token : Token}
    {tokens : List Token} :
    OpensBeyond limit stack (token :: tokens) ↔
      token.kind = .leftParen ∧ limit ≤ stack.length ∨
        OpensBeyond limit (trackOpen stack token) tokens := by
  constructor
  · rintro ⟨before, opening, after, same, opens, full⟩
    cases before with
    | nil =>
        obtain ⟨rfl, -⟩ := List.cons_eq_cons.mp same
        exact .inl ⟨opens, full⟩
    | cons first before =>
        obtain ⟨rfl, rest⟩ := List.cons_eq_cons.mp same
        exact .inr ⟨before, opening, after, rest, opens, full⟩
  · rintro (⟨opens, full⟩ | ⟨before, opening, after, rfl, opens, full⟩)
    · exact ⟨[], token, tokens, rfl, opens, full⟩
    · exact ⟨token :: before, opening, after, rfl, opens, full⟩

end Token

namespace TokenTree

open Token (OpensBeyond leftOpen trackOpen not_opensBeyond_nil opensBeyond_cons_iff
  exists_of_mem_foldl_trackOpen)

variable {maxDepth : Nat} {frames : List Frame} {level : List TokenTree}

/-! ## One step -/

/-- A token that the limit lets pass moves the frames of grouping as it moves the stack. -/
theorem groupOnto_step {token : Token}
    (passes : ¬ (token.kind = .leftParen ∧ maxDepth ≤ frames.length)) (tokens : List Token) :
    ∃ frames' level', groupOnto maxDepth frames level (token :: tokens) =
        groupOnto maxDepth frames' level' tokens ∧
      frames'.map Frame.position = trackOpen (frames.map Frame.position) token := by
  by_cases opening : token.kind = .leftParen
  · have below : ¬ maxDepth ≤ frames.length := fun full => passes ⟨opening, full⟩
    refine ⟨⟨token.position, level⟩ :: frames, [], ?_, ?_⟩
    · rw [groupOnto_opening opening, if_neg below]
    · rw [Token.trackOpen_opening opening, List.map_cons]
  · by_cases closing : token.kind = .rightParen
    · rw [Token.trackOpen_closing closing]
      cases frames with
      | nil => exact ⟨[], .leaf token :: level, groupOnto_leaf opening fun _ => rfl, rfl⟩
      | cons frame frames =>
          exact ⟨frames, frame.close level.reverse, groupOnto_closing closing, rfl⟩
    · refine ⟨frames, .leaf token :: level, ?_, ?_⟩
      · exact groupOnto_leaf opening fun isClosing => absurd isClosing closing
      · rw [Token.trackOpen_other opening closing]

/-! ## Whole runs -/

theorem groupOnto_of_opensBeyond {tokens : List Token}
    (beyond : OpensBeyond maxDepth (frames.map Frame.position) tokens) :
    groupOnto maxDepth frames level tokens = .error (.nestingLimit maxDepth) := by
  induction tokens generalizing frames level with
  | nil => exact absurd beyond (not_opensBeyond_nil _ _)
  | cons token tokens ih =>
      by_cases stops : token.kind = .leftParen ∧ maxDepth ≤ frames.length
      · rw [groupOnto_opening stops.1, if_pos stops.2]
      · obtain ⟨frames', level', same, tracked⟩ := groupOnto_step stops tokens
        rw [opensBeyond_cons_iff, List.length_map] at beyond
        rw [same]
        apply ih
        rw [tracked]
        exact beyond.resolve_left stops

/-- Below the limit only what is left on the stack decides. -/
theorem groupOnto_of_not_opensBeyond {tokens : List Token}
    (within : ¬ OpensBeyond maxDepth (frames.map Frame.position) tokens) :
    (tokens.foldl trackOpen (frames.map Frame.position) = [] ∧
        ∃ trees, groupOnto maxDepth frames level tokens = .ok trees) ∨
      ∃ position outer,
        tokens.foldl trackOpen (frames.map Frame.position) = position :: outer ∧
        groupOnto maxDepth frames level tokens = .error (.unmatchedParenthesis position) := by
  induction tokens generalizing frames level with
  | nil =>
      cases frames with
      | nil => exact .inl ⟨rfl, level.reverse, by simp [groupOnto]⟩
      | cons frame frames =>
          exact .inr ⟨frame.position, frames.map Frame.position, rfl, by simp [groupOnto]⟩
  | cons token tokens ih =>
      rw [opensBeyond_cons_iff, List.length_map, not_or] at within
      obtain ⟨frames', level', same, tracked⟩ := groupOnto_step within.1 tokens
      rw [List.foldl_cons, same, ← tracked]
      apply ih
      rw [tracked]
      exact within.2

/-- The parenthesis that is blamed is one of the tokens. -/
theorem exists_token_of_unmatchedParenthesis {tokens : List Token} {position : Nat}
    (failed : ofTokens maxDepth tokens = .error (.unmatchedParenthesis position)) :
    ∃ token ∈ tokens, token.position = position := by
  have failed : groupOnto maxDepth [] [] tokens = .error (.unmatchedParenthesis position) := failed
  by_cases beyond : OpensBeyond maxDepth [] tokens
  · rw [@groupOnto_of_opensBeyond maxDepth [] [] tokens beyond] at failed
    cases failed
  · obtain ⟨-, trees, grouped⟩ | ⟨position', outer, blamed, failed'⟩ :=
      @groupOnto_of_not_opensBeyond maxDepth [] [] tokens beyond
    · rw [grouped] at failed
      cases failed
    · rw [failed'] at failed
      cases failed
      have onStack : position ∈ tokens.foldl trackOpen [] := blamed ▸ .head outer
      exact (exists_of_mem_foldl_trackOpen onStack).resolve_left (by simp)

/-- Grouping meets its limit exactly where the stack is full when a parenthesis opens, otherwise
blames the top of what the stack holds at the end, and otherwise succeeds. -/
theorem ofTokens_follows_stack (maxDepth : Nat) (tokens : List Token) :
    (ofTokens maxDepth tokens = .error (.nestingLimit maxDepth) ↔
      OpensBeyond maxDepth [] tokens) ∧
    (¬ OpensBeyond maxDepth [] tokens →
      (∀ position, ofTokens maxDepth tokens = .error (.unmatchedParenthesis position) ↔
        (leftOpen tokens).head? = some position) ∧
      ((∃ trees, ofTokens maxDepth tokens = .ok trees) ↔ leftOpen tokens = [])) := by
  by_cases beyond : OpensBeyond maxDepth [] tokens
  · have limited : ofTokens maxDepth tokens = .error (.nestingLimit maxDepth) :=
      @groupOnto_of_opensBeyond maxDepth [] [] tokens beyond
    simp [limited, beyond]
  · obtain ⟨empty, trees, grouped⟩ | ⟨position, outer, blamed, failed⟩ :=
      @groupOnto_of_not_opensBeyond maxDepth [] [] tokens beyond
    · have grouped : ofTokens maxDepth tokens = .ok trees := grouped
      have empty : leftOpen tokens = [] := empty
      simp [grouped, empty, beyond]
    · have failed : ofTokens maxDepth tokens = .error (.unmatchedParenthesis position) := failed
      have blamed : leftOpen tokens = position :: outer := blamed
      simp [failed, blamed, beyond]

end TokenTree

end Formula
