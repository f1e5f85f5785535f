/-
  Survey/Surroundings.lean --- what a survey relies on.

  A survey does not look at files itself.  It asks for manifests, entries, directories,
  scripts and judgements, and each answer is a result or an expected failure.
-/
import EditionSurvey.Package.Log
import EditionSurvey.Package.Manifest
import EditionSurvey.Script.Validate
import EditionSurvey.Survey.Options

set_option autoImplicit false

namespace EditionSurvey

/-- What a survey relies on. -/
structure Surroundings where
  /-- the manifest of a directory -/
  manifest : Path → Logged (Except ManifestFailure Manifest)
  /-- the entry of the package of a name, searched from a directory -/
  resolve : String → Path → Logged (Except ResolutionFailure Path)
  /-- the directory of the package of a name, searched from a directory -/
  locate : String → Path → Logged Path
  /-- the text of a script -/
  read : Path → Logged (Except ReadFailure String)
  /-- whether a script conforms to an edition -/
  validate : String → Int → Except Script.Refusal Unit := Script.validate

/-- A survey: what it is asked for, what it relies on, and whether anybody reads the lines
that it prints. -/
structure Survey where
  /-- what it is asked for -/
  options : Options
  /-- what it relies on -/
  surroundings : Surroundings
  /-- whether lines are printed at all -/
  prints : Bool := true

end EditionSurvey
