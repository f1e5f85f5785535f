/-
  Text/Cut.lean --- cutting a text at a separator.
-/

set_option autoImplicit false

namespace EditionSurvey.Text

/-- Cut a text at every separator.  There is one more piece than there are separators. -/
def cutAt (separator : Char) : List Char → List (List Char)
  | [] => [[]]
  | c :: rest =>
      if c = separator then [] :: cutAt separator rest
      else match cutAt separator rest with
        | [] => [[c]]
        | piece :: pieces => (c :: piece) :: pieces

theorem cutAt_ne_nil (separator : Char) (text : List Char) : cutAt separator text ≠ [] := by
  fun_cases cutAt separator text <;> simp

/-- Parts without the separator are told apart again when they are joined. -/
theorem splitOn_toList_intercalate {separator : String} {c : Char} (hc : separator.toList = [c])
    {parts : List String} (hne : parts ≠ []) (hparts : ∀ part ∈ parts, c ∉ part.toList) :
    (separator.intercalate parts).toList.splitOn c = parts.map String.toList := by
  rw [String.toList_intercalate, hc]
  refine List.splitOn_intercalate c (fun letters hletters => ?_) (by simpa using hne)
  obtain ⟨part, hpart, rfl⟩ := List.mem_map.mp hletters
  exact hparts part hpart

end EditionSurvey.Text
