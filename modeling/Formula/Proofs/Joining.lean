import Mathlib.Data.List.Basic

/-!
# Lists joined by a separator
-/

namespace Formula

variable {α : Type} {separator : α} {parts : List (List α)}

/-- What holds of the separator and of each part holds of the whole, if appending keeps it. -/
theorem of_intercalate {property : List α → Prop} (nil : property [])
    (append : ∀ {before after}, property before → property after → property (before ++ after))
    (ofSeparator : property [separator]) (each : ∀ part ∈ parts, property part) :
    property ([separator].intercalate parts) := by
  induction parts with
  | nil => exact nil
  | cons part parts ih =>
      obtain ⟨first, each⟩ := List.forall_mem_cons.mp each
      cases parts with
      | nil =>
          rw [List.intercalate_singleton]
          exact first
      | cons second parts =>
          rw [List.intercalate_cons_cons]
          exact append (append first ofSeparator) (ih each)

theorem length_le_intercalate (nonempty : ∀ part ∈ parts, part ≠ []) :
    parts.length ≤ ([separator].intercalate parts).length := by
  induction parts with
  | nil => exact Nat.zero_le _
  | cons part parts ih =>
      obtain ⟨present, nonempty⟩ := List.forall_mem_cons.mp nonempty
      have positive := List.length_pos_iff.mpr present
      cases parts with
      | nil =>
          rw [List.intercalate_singleton]
          exact positive
      | cons second parts =>
          have := ih nonempty
          simp only [List.intercalate_cons_cons, List.length_append, List.length_cons] at *
          omega

theorem map_intercalate {β : Type} (change : α → β) (separator : α) (parts : List (List α)) :
    ([separator].intercalate parts).map change =
      [change separator].intercalate (parts.map (List.map change)) := by
  induction parts with
  | nil => rfl
  | cons part parts ih =>
      cases parts with
      | nil => simp only [List.map_cons, List.map_nil, List.intercalate_singleton]
      | cons second parts =>
          simp only [List.map_cons, List.intercalate_cons_cons, List.map_append, List.map_nil] at *
          rw [ih]

end Formula
