/-
  Diagnostic.lean --- why a script does not conform, and where.
-/

set_option autoImplicit false

namespace EditionSurvey

/-- What is wrong with a script, with the line and column if they are known. -/
structure Diagnostic where
  /-- what is wrong -/
  message : String
  /-- the line -/
  line : Option Int := none
  /-- the column -/
  column : Option Int := none
  deriving DecidableEq, Repr, Inhabited

/-- A diagnostic as one line of text.  A column without a line is not shown. -/
def Diagnostic.describe (d : Diagnostic) : String :=
  match d.line, d.column with
  | none, _ => d.message
  | some line, none => s!"{d.message} (line {line})"
  | some line, some column => s!"{d.message} (line {line}, column {column})"

end EditionSurvey
