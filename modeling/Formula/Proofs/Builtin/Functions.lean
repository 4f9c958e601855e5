import Formula.Builtin.Functions

/-!
# What the table of standard functions holds
-/

namespace Formula

namespace Table

variable {α : Type}

theorem find?_of_lookup {table : Table α} {name : String} {value : α}
    (found : table.lookup name = some value) : ∃ key, table.find? key = some value := by
  unfold lookup at found
  split at found
  · next value' same => exact ⟨name, by rw [same, found]⟩
  · dsimp only at found
    split at found
    · cases found
    · exact ⟨_, found⟩

/-- Of two entries with one name the later is kept. -/
theorem mem_of_find?_ofList {entries : List (String × α)} {name : String} {value : α}
    (found : (ofList entries).find? name = some value) : (name, value) ∈ entries := by
  suffices general : ∀ table : Table α,
      (entries.foldl (fun table entry => table.insert entry.1 entry.2) table).find? name =
          some value →
        table.find? name = some value ∨ (name, value) ∈ entries by
    obtain impossible | member := general empty found
    · rw [find?_empty] at impossible
      cases impossible
    · exact member
  clear found
  induction entries with
  | nil => exact fun table found => .inl found
  | cons entry entries ih =>
      intro table found
      obtain inserted | member := ih _ found
      · rw [find?_insert] at inserted
        split at inserted
        · next same =>
            right
            cases inserted
            rw [same]
            exact .head _
        · exact .inl inserted
      · exact .inr (.tail _ member)

end Table

variable {σ : Type}

namespace Builtin

theorem exists_functionOf {name : String} {function : Function σ}
    (found : functions.lookup name = some function) :
    ∃ key operation, (key, operation) ∈ operations ∧ function = functionOf operation := by
  obtain ⟨key, kept⟩ := Table.find?_of_lookup found
  have member := Table.mem_of_find?_ofList kept
  obtain ⟨⟨key', operation⟩, listed, same⟩ := List.mem_map.mp member
  cases same
  exact ⟨key', operation, listed, rfl⟩

end Builtin

/-- Of a configuration with the standard functions only those that were added are others. -/
theorem Configuration.added_or_standard {configuration : Configuration σ}
    (standard : configuration.genericFunctions = Builtin.functions) {name : String}
    {function : Function σ} (found : configuration.function? name = some function) :
    (∃ key, configuration.functions.find? key = some function) ∨
      ∃ entry ∈ Builtin.operations, function = Builtin.functionOf entry.2 := by
  unfold function? at found
  rw [standard] at found
  cases own : configuration.functions.lookup name with
  | none =>
      rw [own] at found
      obtain ⟨key, operation, member, rfl⟩ := Builtin.exists_functionOf found
      exact .inr ⟨(key, operation), member, rfl⟩
  | some function =>
      rw [own] at found
      cases found
      exact .inl (Table.find?_of_lookup own)

end Formula
