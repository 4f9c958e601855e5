import Formula.Grammar.Basic

/-!
# Grammar documents

Hosts keep grammars in documents: trees of objects, arrays and scalars.  A document may name only
some of the fields, and the others have their standard contents.
-/

namespace Formula

inductive Document where
  | null
  | bool (value : Bool)
  | number (text : String)
  | string (text : String)
  | array (items : List Document)
  | object (fields : List (String × Document))

namespace Document

instance : Inhabited Document := ⟨.null⟩

def toString? : Document → Option String
  | .string text => some text
  | _ => none

/-- A character is a string of exactly one. -/
def toChar? : Document → Option Char
  | .string text =>
      match text.toList with
      | [character] => some character
      | _ => none
  | _ => none

def toList? : Document → Option (List Document)
  | .array items => some items
  | _ => none

def ofStrings (texts : List String) : Document :=
  .array (texts.map .string)

def ofChars (characters : List Char) : Document :=
  .array (characters.map fun character => .string (String.ofList [character]))

def strings? (document : Document) : Option (List String) :=
  document.toList? >>= List.mapM toString?

def chars? (document : Document) : Option (List Char) :=
  document.toList? >>= List.mapM toChar?

def stringLists? (document : Document) : Option (List (List String)) :=
  document.toList? >>= List.mapM strings?

end Document

namespace Grammar

def fieldNames : List String :=
  ["precedence_tiers", "right_associative", "prefix_operators", "suffix_operators",
    "variable_name_characters"]

/-- All five fields; the sets are written in order. -/
def toDocument (grammar : Grammar) : Document :=
  .object (fieldNames.zip
    [.array (grammar.tiers.map .ofStrings),
     .ofStrings grammar.rightAssociative.toList,
     .ofStrings grammar.prefixOperators.toList,
     .ofStrings grammar.suffixOperators.toList,
     .ofChars grammar.identifierCharacters.toList])

/-- What is listed under the name, if anything is.  A field may not be repeated. -/
def listed? (fields : List (String × Document)) (name : String) : Option (Option Document) :=
  match fields.filter (·.1 == name) with
  | [] => some none
  | [(_, document)] => some (some document)
  | _ => none

/-- A field that is present must have its form; one that is absent has the given contents. -/
def field? {α : Type} (absent : α) (read : Document → Option α) : Option Document → Option α
  | none => some absent
  | some document => read document

/-- The grammar of five optional fields, in the order of `fieldNames`. -/
def ofFields? (tiers rightAssociative prefixOperators suffixOperators identifierCharacters :
    Option Document) : Option Grammar := do
  return {
    tiers := ← field? standard.tiers Document.stringLists? tiers
    rightAssociative := ← field? standard.rightAssociative
      (fun document => document.strings?.map .ofList) rightAssociative
    prefixOperators := ← field? standard.prefixOperators
      (fun document => document.strings?.map .ofList) prefixOperators
    suffixOperators := ← field? standard.suffixOperators
      (fun document => document.strings?.map .ofList) suffixOperators
    identifierCharacters := ← field? standard.identifierCharacters
      (fun document => document.chars?.map .ofList) identifierCharacters }

/-- Reads the fields by name, whatever others there are, or from an array by position. -/
def ofDocument? : Document → Option Grammar
  | .object fields => do
      ofFields? (← listed? fields "precedence_tiers") (← listed? fields "right_associative")
        (← listed? fields "prefix_operators") (← listed? fields "suffix_operators")
        (← listed? fields "variable_name_characters")
  | .array items =>
      if items.length ≤ fieldNames.length then
        ofFields? items[0]? items[1]? items[2]? items[3]? items[4]?
      else
        none
  | _ => none

end Grammar

end Formula
