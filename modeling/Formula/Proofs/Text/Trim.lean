import Formula.Text.Blank

/-!
# Trimming

Text without blanks is left alone, and trimming commutes with every change of characters that makes
none of them blank or visible.
-/

namespace Formula.Text

theorem dropWhile_isBlank_of_visible {text : List Char}
    (visible : ∀ character ∈ text, isBlank character = false) : text.dropWhile isBlank = text := by
  cases text with
  | nil => rfl
  | cons character text =>
      have first := visible character (.head _)
      rw [List.dropWhile_cons, if_neg (by simp [first])]

theorem trim_of_visible {text : List Char}
    (visible : ∀ character ∈ text, isBlank character = false) : trim text = text := by
  rw [trim, dropWhile_isBlank_of_visible visible, dropWhile_isBlank_of_visible,
    List.reverse_reverse]
  intro character member
  exact visible character (List.mem_reverse.mp member)

theorem trim_map {change : Char → Char}
    (sameBlanks : ∀ character, isBlank (change character) = isBlank character)
    (text : List Char) : trim (text.map change) = (trim text).map change := by
  have same : isBlank ∘ change = isBlank := funext sameBlanks
  rw [trim, trim, List.dropWhile_map, ← List.map_reverse, List.dropWhile_map, same,
    ← List.map_reverse]

end Formula.Text
