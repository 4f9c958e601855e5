import Formula.Grammar.Document
import Mathlib.Data.List.Nodup

/-!
# Grammars and their documents

A document of a grammar reads as that grammar.  So does every other way to write it down: the fields
may come in any order and among unknown ones, sets may be written in any order and with repetitions,
and a field that is left out has its standard contents.
-/

namespace Formula

/-! ## Sets -/

namespace SortedSet

variable {α : Type} [LT α] [DecidableLT α] [Std.Asymm (fun left right : α => left < right)]
  [Std.Trichotomous (fun left right : α => left < right)]
  [Trans (fun left right : α => left < right) (fun left right : α => left < right)
    (fun left right : α => left < right)]

theorem ofList_eq_iff {members : List α} {set : SortedSet α} :
    ofList members = set ↔ ∀ member, member ∈ members ↔ member ∈ set.toList := by
  constructor
  · rintro rfl member
    exact mem_toList_ofList.symm
  · intro same
    have sameMembers (member : α) : member ∈ (ofList members).toList ↔ member ∈ set.toList :=
      mem_toList_ofList.trans (same member)
    have sameLists : (ofList members).toList = set.toList := by
      refine List.Perm.eq_of_pairwise (fun first second _ _ before after => ?_)
        (ofList members).sorted set.sorted
        ((List.perm_ext_iff_of_nodup (ofList members).sorted.nodup set.sorted.nodup).mpr
          sameMembers)
      exact absurd after (Std.Asymm.asymm first second before)
    rw [← ofList_toList (ofList members), ← ofList_toList set, sameLists]

end SortedSet

/-! ## Contents of fields -/

namespace Document

theorem mapM_map {α : Type} (write : α → Document) {read : Document → Option α}
    (reads : ∀ item, read (write item) = some item) (items : List α) :
    (items.map write).mapM read = some items := by
  induction items with
  | nil => rfl
  | cons item items ih => rw [List.map_cons, List.mapM_cons, reads, ih]; rfl

theorem strings?_ofStrings (texts : List String) : (ofStrings texts).strings? = some texts :=
  mapM_map string (fun _ => rfl) texts

theorem chars?_ofChars (characters : List Char) :
    (ofChars characters).chars? = some characters := by
  refine mapM_map _ (fun character => ?_) characters
  rw [toChar?, String.toList_ofList]

theorem stringLists?_ofStrings (lists : List (List String)) :
    (array (lists.map ofStrings)).stringLists? = some lists :=
  mapM_map _ strings?_ofStrings lists

/-- The document is a list of exactly the members of the set, in any order and with repetitions. -/
def IsWritten {α : Type} [LT α] (write : List α → Document) (set : SortedSet α)
    (document : Document) : Prop :=
  ∃ members, document = write members ∧ ∀ member, member ∈ members ↔ member ∈ set.toList

end Document

namespace Grammar

inductive Field where
  | tiers
  | rightAssociative
  | prefixOperators
  | suffixOperators
  | identifierCharacters
deriving DecidableEq, Repr

namespace Field

def all : List Field :=
  [.tiers, .rightAssociative, .prefixOperators, .suffixOperators, .identifierCharacters]

def name : Field → String
  | .tiers => "precedence_tiers"
  | .rightAssociative => "right_associative"
  | .prefixOperators => "prefix_operators"
  | .suffixOperators => "suffix_operators"
  | .identifierCharacters => "variable_name_characters"

/-- What the grammar writes down in the field. -/
def contents (grammar : Grammar) : Field → Document
  | .tiers => .array (grammar.tiers.map .ofStrings)
  | .rightAssociative => .ofStrings grammar.rightAssociative.toList
  | .prefixOperators => .ofStrings grammar.prefixOperators.toList
  | .suffixOperators => .ofStrings grammar.suffixOperators.toList
  | .identifierCharacters => .ofChars grammar.identifierCharacters.toList

/-- The document has what the grammar has in the field. -/
def Describes (grammar : Grammar) : Field → Document → Prop
  | .tiers, document => document = .array (grammar.tiers.map .ofStrings)
  | .rightAssociative, document => document.IsWritten .ofStrings grammar.rightAssociative
  | .prefixOperators, document => document.IsWritten .ofStrings grammar.prefixOperators
  | .suffixOperators, document => document.IsWritten .ofStrings grammar.suffixOperators
  | .identifierCharacters, document => document.IsWritten .ofChars grammar.identifierCharacters

theorem describes_contents (grammar : Grammar) (field : Field) :
    field.Describes grammar (field.contents grammar) := by
  cases field with
  | tiers => rfl
  | rightAssociative | prefixOperators | suffixOperators | identifierCharacters =>
      exact ⟨_, rfl, fun _ => Iff.rfl⟩

end Field

/-! ## Fields that are listed -/

/-- Of the known fields these are listed, each once and with what the grammar has in it. -/
structure Lists (grammar : Grammar) (listed : Field → Bool) (fields : List (String × Document)) :
    Prop where
  present (field : Field) : listed field = true → ∃ document, field.Describes grammar document ∧
    fields.filter (·.1 == field.name) = [(field.name, document)]
  absent (field : Field) : listed field = false → fields.filter (·.1 == field.name) = []

/-- The grammar with the standard contents in the fields that are not listed. -/
def onlyListed (grammar : Grammar) (listed : Field → Bool) : Grammar where
  tiers := if listed .tiers then grammar.tiers else standard.tiers
  rightAssociative :=
    if listed .rightAssociative then grammar.rightAssociative else standard.rightAssociative
  prefixOperators :=
    if listed .prefixOperators then grammar.prefixOperators else standard.prefixOperators
  suffixOperators :=
    if listed .suffixOperators then grammar.suffixOperators else standard.suffixOperators
  identifierCharacters :=
    if listed .identifierCharacters then grammar.identifierCharacters
    else standard.identifierCharacters

theorem lists_all (grammar : Grammar) :
    grammar.Lists (fun _ => true) (Field.all.map fun field => (field.name, field.contents grammar))
    where
  present field _ := by
    refine ⟨field.contents grammar, field.describes_contents grammar, ?_⟩
    cases field <;> rfl
  absent := nofun

variable {grammar : Grammar} {listed : Field → Bool} {fields : List (String × Document)}

/-- A field is read as the grammar has it if it is listed, and as the standard grammar otherwise. -/
theorem Lists.exists_listed? {α : Type} {read : Document → Option α} {own : α}
    (lists : grammar.Lists listed fields) (field : Field) (standard : α)
    (reads : ∀ document, field.Describes grammar document → read document = some own) :
    ∃ found, listed? fields field.name = some found ∧
      field? standard read found = some (if listed field then own else standard) := by
  cases isListed : listed field with
  | true =>
      obtain ⟨document, describes, found⟩ := lists.present field isListed
      exact ⟨some document, by simp only [listed?, found], reads document describes⟩
  | false => exact ⟨none, by simp only [listed?, lists.absent field isListed], rfl⟩

theorem map_ofList_of_isWritten {α : Type} [LT α] [DecidableLT α]
    [Std.Asymm (fun left right : α => left < right)]
    [Std.Trichotomous (fun left right : α => left < right)]
    [Trans (fun left right : α => left < right) (fun left right : α => left < right)
      (fun left right : α => left < right)]
    {write : List α → Document} {read : Document → Option (List α)}
    (reads : ∀ members, read (write members) = some members) {set : SortedSet α}
    {document : Document} (written : document.IsWritten write set) :
    (read document).map .ofList = some set := by
  obtain ⟨members, rfl, same⟩ := written
  rw [reads, Option.map_some, SortedSet.ofList_eq_iff.mpr same]

theorem ofDocument?_of_lists (lists : grammar.Lists listed fields) :
    ofDocument? (.object fields) = some (grammar.onlyListed listed) := by
  have strings {set : SortedSet String} (document : Document)
      (written : document.IsWritten .ofStrings set) :
      document.strings?.map SortedSet.ofList = some set :=
    map_ofList_of_isWritten Document.strings?_ofStrings written
  obtain ⟨_, listedTiers, tiers⟩ := lists.exists_listed? .tiers standard.tiers
    (by rintro _ rfl; exact Document.stringLists?_ofStrings grammar.tiers)
  obtain ⟨_, listedRight, rightAssociative⟩ := lists.exists_listed? .rightAssociative
    standard.rightAssociative strings
  obtain ⟨_, listedPrefix, prefixOperators⟩ := lists.exists_listed? .prefixOperators
    standard.prefixOperators strings
  obtain ⟨_, listedSuffix, suffixOperators⟩ := lists.exists_listed? .suffixOperators
    standard.suffixOperators strings
  obtain ⟨_, listedCharacters, identifierCharacters⟩ := lists.exists_listed? .identifierCharacters
    standard.identifierCharacters fun _ => map_ofList_of_isWritten Document.chars?_ofChars
  unfold Field.name at listedTiers listedRight listedPrefix listedSuffix listedCharacters
  simp only [ofDocument?, listedTiers, listedRight, listedPrefix, listedSuffix, listedCharacters,
    Option.bind_eq_bind, Option.bind_some]
  rw [ofFields?, tiers, rightAssociative, prefixOperators, suffixOperators, identifierCharacters]
  rfl

/-- A field that is listed twice makes the document none of a grammar, whatever is in it. -/
theorem ofDocument?_of_repeated {field : Field}
    (repeated : 1 < (fields.filter (·.1 == field.name)).length) :
    ofDocument? (.object fields) = none := by
  have notListed : listed? fields field.name = none := by
    unfold listed?
    split
    · next none => simp [none] at repeated
    · next one => simp [one] at repeated
    · rfl
  cases field <;> unfold Field.name at notListed <;> simp [ofDocument?, notListed]

/-- A document of a grammar reads as that grammar, and one that lists only some of its fields as the
grammar that has these and is standard otherwise. -/
theorem ofDocument?_toDocument (grammar : Grammar) :
    ofDocument? grammar.toDocument = some grammar ∧
    ∀ (listed : Field → Bool) (fields : List (String × Document)), grammar.Lists listed fields →
      ofDocument? (.object fields) = some (grammar.onlyListed listed) :=
  ⟨ofDocument?_of_lists grammar.lists_all, fun _ _ => ofDocument?_of_lists⟩

/-- A set is written with a repetition and in front of the tiers, and a field is unknown. -/
theorem ofDocument?_toDocument_of_partial :
    let grammar : Grammar :=
      { standard with
        tiers := [["+", "-"], ["~", "!"]]
        suffixOperators := .ofList ["!", "~"]
        identifierCharacters := .ofList ['é'] }
    let listed (field : Field) : Bool := field = .tiers ∨ field = .suffixOperators
    let fields : List (String × Document) :=
      [("suffix_operators", .ofStrings ["~", "!", "~"]), ("comment", .null),
        ("precedence_tiers", .array [.ofStrings ["+", "-"], .ofStrings ["~", "!"]])]
    grammar.Lists listed fields ∧
      ofDocument? (.object fields) = some { grammar with
        identifierCharacters := standard.identifierCharacters } := by
  intro grammar listed fields
  have isListed : grammar.Lists listed fields := by
    refine ⟨fun field => ?_, fun field => ?_⟩
    · cases field with
      | tiers => exact fun _ => ⟨_, rfl, rfl⟩
      | suffixOperators =>
          exact fun _ => ⟨_, ⟨["~", "!", "~"], rfl, SortedSet.ofList_eq_iff.mp (by decide)⟩, rfl⟩
      | rightAssociative | prefixOperators | identifierCharacters => exact nofun
    · cases field with
      | tiers | suffixOperators => exact nofun
      | rightAssociative | prefixOperators | identifierCharacters => exact fun _ => rfl
  exact ⟨isListed, (ofDocument?_toDocument grammar).2 listed fields isListed⟩

end Grammar

end Formula
