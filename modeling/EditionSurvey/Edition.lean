/-
  Edition.lean --- editions of the language and the numbers that name them.

  An edition is named by its number or, from the sixth on, by its year.  `normalize?` maps
  both spellings to the number; `label` is the name that people use.
-/

set_option autoImplicit false

namespace EditionSurvey

/-- The numbers and years that name an edition, with the edition. -/
def editionNames : List (Int × Int) :=
  [(3, 3), (5, 5), (6, 6), (7, 7), (8, 8), (2015, 6), (2016, 7), (2017, 8)]

/-- The edition that a number or year names. -/
def normalize? (value : Int) : Option Int := editionNames.lookup value

/-- The number in the name of an edition: its own up to the fifth, its year from the sixth on. -/
def labelNumber (edition : Int) : Int := if 6 ≤ edition then 2009 + edition else edition

/-- The name of an edition. -/
def label (edition : Int) : String := s!"ES{labelNumber edition}"

/-- The message for a value that names no edition; `shown` is how the value is displayed. -/
def unsupportedEdition (shown : String) : String :=
  let names := ", ".intercalate (editionNames.map fun entry => toString entry.1)
  s!"unsupported ECMAScript version {shown} (supported: {names})"

example : normalize? 2015 = some 6 := by decide
example : normalize? 4 = none := by decide
example : label 5 = "ES5" ∧ label 6 = "ES2015" := by decide

/-- A name of an edition is one of the listed ones, so what it names can be read off. -/
theorem mem_of_normalize? {value edition : Int} (h : normalize? value = some edition) :
    (value, edition) ∈ editionNames := by
  obtain ⟨before, after, heq, -⟩ := List.lookup_eq_some_iff.1 h
  rw [heq]
  exact List.mem_append_right _ List.mem_cons_self

theorem normalize?_idem {value edition : Int} (h : normalize? value = some edition) :
    normalize? edition = some edition := by
  have hall : ∀ entry ∈ editionNames, normalize? entry.2 = some entry.2 := by decide
  exact hall _ (mem_of_normalize? h)

end EditionSurvey
