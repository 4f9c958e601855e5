import Formula.Text.Uppercase

/-!
# Tables of names

A table maps names to entries.  A name that has no entry is looked up in upper case as well.
-/

namespace Formula

structure Table (α : Type) where
  entries : List (String × α)

namespace Table

variable {α : Type}

def empty : Table α := ⟨[]⟩

def find? (table : Table α) (name : String) : Option α :=
  table.entries.lookup name

def erase (table : Table α) (name : String) : Table α :=
  ⟨table.entries.filter fun entry => entry.1 != name⟩

def insert (table : Table α) (name : String) (value : α) : Table α :=
  ⟨(name, value) :: (table.erase name).entries⟩

def ofList (entries : List (String × α)) : Table α :=
  entries.foldl (fun table entry => table.insert entry.1 entry.2) empty

/-- Puts a value in and hands back the one it replaces. -/
def replace (table : Table α) (name : String) (value : α) : Option α × Table α :=
  (table.find? name, table.insert name value)

/-- Takes a value out and hands it back. -/
def remove (table : Table α) (name : String) : Option α × Table α :=
  (table.find? name, table.erase name)

/-! ## What an entry reads as after a change -/

theorem lookup_cons (entry : String × α) (entries : List (String × α)) (query : String) :
    (entry :: entries).lookup query =
      if query = entry.1 then some entry.2 else entries.lookup query := by
  obtain ⟨key, value⟩ := entry
  rw [List.lookup_cons]
  by_cases same : query = key
  · simp [same]
  · simp [same, beq_eq_false_iff_ne.mpr same]

theorem find?_empty (name : String) : (empty : Table α).find? name = none := rfl

theorem find?_erase (table : Table α) (name query : String) :
    (table.erase name).find? query = if query = name then none else table.find? query := by
  obtain ⟨entries⟩ := table
  unfold erase find?
  dsimp only
  induction entries with
  | nil => simp
  | cons entry entries ih =>
      rw [List.filter_cons, lookup_cons]
      split
      · rename_i kept
        rw [lookup_cons, ih]
        grind
      · rename_i dropped
        rw [ih]
        grind

theorem find?_insert (table : Table α) (name query : String) (value : α) :
    (table.insert name value).find? query =
      if query = name then some value else table.find? query := by
  have erased := table.find?_erase name query
  unfold find? at erased ⊢
  unfold insert
  rw [lookup_cons, erased]
  split <;> rfl

/-! ## Names in upper case -/

/-- The entry of the exact name, or else that of the name in upper case. -/
def lookup (table : Table α) (name : String) : Option α :=
  match table.find? name with
  | some value => some value
  | none =>
      let upper := Text.upperCase name
      if upper = name then none else table.find? upper

end Table

end Formula
