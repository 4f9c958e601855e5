import Formula.Error
import Formula.SortedSet
import Formula.Text.Blank

/-!
# Operator grammars

Which operators there are, how tightly they bind and on which sides they take operands is data.  The
lexer reads the spellings, the tree builder the tiers.
-/

namespace Formula

/-- Tiers hold operator spellings, the loosest binding tier first. -/
structure Grammar where
  tiers : List (List String)
  rightAssociative : SortedSet String
  prefixOperators : SortedSet String
  suffixOperators : SortedSet String
  identifierCharacters : SortedSet Char
deriving DecidableEq

namespace Grammar

def standardTiers : List (List String) :=
  [["||"],
   ["&&"],
   ["|"],
   ["^"],
   ["&"],
   ["==", "=", "!=", "<>"],
   ["<", "<=", ">", ">="],
   ["<<", ">>"],
   ["+", "-"],
   ["\\", "/", "*", "%"],
   ["**"],
   ["!"]]

/-- Letters, digits, the underscore and the dollar sign. -/
def standardIdentifierCharacters : SortedSet Char :=
  .ofList "$0123456789ABCDEFGHIJKLMNOPQRSTUVWXYZ_abcdefghijklmnopqrstuvwxyz".toList

def standard : Grammar where
  tiers := standardTiers
  rightAssociative := .ofList ["**"]
  prefixOperators := .ofList ["!"]
  suffixOperators := .ofList ["!"]
  identifierCharacters := standardIdentifierCharacters

def isRightAssociative (grammar : Grammar) (spelling : String) : Bool :=
  grammar.rightAssociative.contains spelling

def isPrefixOperator (grammar : Grammar) (spelling : String) : Bool :=
  grammar.prefixOperators.contains spelling

def isSuffixOperator (grammar : Grammar) (spelling : String) : Bool :=
  grammar.suffixOperators.contains spelling

def isIdentifierCharacter (grammar : Grammar) (character : Char) : Bool :=
  grammar.identifierCharacters.contains character

/-! ## Spellings by length -/

/-- Longer spellings come first, spellings of one length in order. -/
def comesBefore (left right : String) : Bool :=
  right.utf8ByteSize < left.utf8ByteSize ||
    (left.utf8ByteSize == right.utf8ByteSize && left < right)

def insertSpelling (new : String) : List String → List String
  | [] => [new]
  | first :: rest =>
      if comesBefore new first then new :: first :: rest
      else if new = first then first :: rest
      else first :: insertSpelling new rest

/-- Every spelling once, longest first: the order in which the lexer tries them. -/
def spellings (grammar : Grammar) : List String :=
  grammar.tiers.flatten.foldr insertSpelling []

theorem mem_insertSpelling {new spelling : String} {spellings : List String} :
    spelling ∈ insertSpelling new spellings ↔ spelling = new ∨ spelling ∈ spellings := by
  induction spellings with
  | nil => simp [insertSpelling]
  | cons first rest ih =>
      unfold insertSpelling
      split
      · simp
      · split
        · rename_i same
          simp [same]
        · simp [ih, or_left_comm]

theorem mem_spellings {grammar : Grammar} {spelling : String} :
    spelling ∈ grammar.spellings ↔ spelling ∈ grammar.tiers.flatten := by
  unfold spellings
  induction grammar.tiers.flatten with
  | nil => simp
  | cons first rest ih => simp only [List.foldr_cons, mem_insertSpelling, ih, List.mem_cons]

/-! ## Validity -/

/-- Characters that other tokens begin with or that separate tokens. -/
def isReserved (character : Char) : Bool :=
  Text.isBlank character || character == '(' || character == ')' || character == ',' ||
    character == '\x22' || character == '\x27'

def spellingFault? (spelling : String) : Option GrammarFault :=
  match spelling.toList with
  | [] => some .emptySpelling
  | first :: rest =>
      if first.isDigit || first == '.' then some (.startsLikeNumber spelling)
      else if (first :: rest).any isReserved then some (.reservedCharacter spelling)
      else none

/-- Reports the first spelling that the lexer could not produce. -/
def validate (grammar : Grammar) : Except Error Unit :=
  match grammar.tiers.flatten.findSome? spellingFault? with
  | some fault => .error (.invalidGrammar fault)
  | none => .ok ()

end Grammar

end Formula
