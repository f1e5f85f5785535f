/-
  Text/CodePoints.lean --- sets of code points, as the interval tables of the Unicode
  property modules write them.

  A set is a list of closed intervals.  Membership is decided by looking for an
  interval that holds the point; `contains_iff` says so as a proposition.
-/

set_option autoImplicit false

namespace EditionSurvey.Text

/-- A set of code points, written as closed intervals in increasing order. -/
abbrev CodePoints := List (Nat × Nat)

/-- Whether some interval of the set holds the code point. -/
def CodePoints.contains (set : CodePoints) (point : Nat) : Bool :=
  set.any fun interval => interval.1 ≤ point && point ≤ interval.2

theorem CodePoints.contains_iff (set : CodePoints) (point : Nat) :
    set.contains point = true ↔ ∃ lo hi, (lo, hi) ∈ set ∧ lo ≤ point ∧ point ≤ hi := by
  simp [CodePoints.contains]

end EditionSurvey.Text
