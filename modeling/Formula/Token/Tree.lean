import Formula.Error
import Formula.Token.Basic

/-!
# Token trees

Matching parentheses turn the tokens into trees.  Parentheses behind an identifier are a call, whose
contents are split at the commas; all others are a group.
-/

namespace Formula

inductive TokenTree where
  | leaf (token : Token)
  | group (position : Nat) (content : List TokenTree)
  | call (name : String) (position : Nat) (arguments : List (List TokenTree))

namespace TokenTree

def position : TokenTree → Nat
  | .leaf token => token.position
  | .group position _ => position
  | .call _ position _ => position

def isComma : TokenTree → Bool
  | .leaf token => token.kind == .comma
  | _ => false

/-- The spelling of an operator leaf. -/
def operator? : TokenTree → Option String
  | .leaf token => if token.kind = .operator then some token.lexeme else none
  | _ => none

/-- Adds a tree to the first of the arguments. -/
def consFirst (tree : TokenTree) : List (List TokenTree) → List (List TokenTree)
  | [] => [[tree]]
  | first :: rest => (tree :: first) :: rest

/-- The runs between the commas. -/
def splitAtCommas : List TokenTree → List (List TokenTree)
  | [] => [[]]
  | tree :: trees =>
      if tree.isComma then [] :: splitAtCommas trees else consFirst tree (splitAtCommas trees)

theorem length_splitAtCommas (trees : List TokenTree) :
    (splitAtCommas trees).length = trees.countP isComma + 1 := by
  induction trees with
  | nil => rfl
  | cons tree trees ih =>
      unfold splitAtCommas
      split
      · rename_i comma
        simp [comma, ih]
      · rename_i notComma
        cases parts : splitAtCommas trees with
        | nil => simp [parts] at ih
        | cons first rest => simp_all [consFirst]

/-- Empty parentheses hold no argument at all. -/
def splitArguments : List TokenTree → List (List TokenTree)
  | [] => []
  | content => splitAtCommas content

/-- An open parenthesis, with what stands before it on its level, last tree first. -/
structure Frame where
  position : Nat
  before : List TokenTree

/-- Closes a parenthesis: the trees of the enclosing level, last first. -/
def Frame.close (frame : Frame) (content : List TokenTree) : List TokenTree :=
  match frame.before with
  | .leaf token :: before =>
      if token.kind = .identifier then
        .call token.lexeme token.position (splitArguments content) :: before
      else
        .group frame.position content :: frame.before
  | before => .group frame.position content :: before

/-- Reads tokens onto the trees of the innermost open level, last first.  A closing parenthesis that
nothing opened stays a leaf. -/
def groupOnto (maxDepth : Nat) :
    (frames : List Frame) → (level : List TokenTree) → List Token →
      Except Error (List TokenTree)
  | [], level, [] => .ok level.reverse
  | frame :: _, _, [] => .error (.unmatchedParenthesis frame.position)
  | frames, level, token :: tokens =>
      match token.kind, frames with
      | .rightParen, frame :: frames =>
          groupOnto maxDepth frames (frame.close level.reverse) tokens
      | .leftParen, frames =>
          if maxDepth ≤ frames.length then .error (.nestingLimit maxDepth)
          else groupOnto maxDepth (⟨token.position, level⟩ :: frames) [] tokens
      | _, frames => groupOnto maxDepth frames (.leaf token :: level) tokens

/-- At most `maxDepth` parentheses may be open at once. -/
def ofTokens (maxDepth : Nat) (tokens : List Token) : Except Error (List TokenTree) :=
  groupOnto maxDepth [] [] tokens

end TokenTree

end Formula
