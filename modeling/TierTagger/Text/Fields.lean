/-!
# Fields

A text cut at a separator. `fields_ne_nil`: there is always at least one field.
-/

namespace TierTagger.Text

/-- The parts of a text between the separators. -/
def fields (sep : Char → Bool) : List Char → List (List Char)
  | [] => [[]]
  | c :: r =>
    if sep c then [] :: fields sep r
    else match fields sep r with
      | p :: ps => (c :: p) :: ps
      | [] => [[c]]

theorem fields_ne_nil (sep : Char → Bool) (s : List Char) : fields sep s ≠ [] := by
  cases s with
  | nil => simp [fields]
  | cons c r =>
    simp only [fields]
    split
    · simp
    · split <;> simp

end TierTagger.Text
