/-
  Report/Listing.lean --- a report as a plain listing.
-/
import EditionSurvey.Report.Basic

set_option autoImplicit false

namespace EditionSurvey.Report

/-- The line of a package, under the mark of its state. -/
def listingLine (state : PackageState) (text : String) : String := s!"  {state.symbol} {text}"

/-- A titled part of a listing; without packages it is left out. -/
def listingPart (title : String) (state : PackageState) (names : List String) : List String :=
  if names.isEmpty then [] else title :: names.map (listingLine state)

/-- What is said of a package that does not conform. -/
def offenderText (showError : Bool) (offender : Offender) : String :=
  match offender.diagnostic with
  | some diagnostic =>
      if showError then s!"{offender.name}: {diagnostic.describe}" else offender.name
  | none => offender.name

/-- The part on packages that do not conform; without them it says so. -/
def offenderPart (showError : Bool) (offenders : List Offender) : List String :=
  if offenders.isEmpty then ["No incompatible packages."]
  else "All incompatible packages are: " ::
    offenders.map fun o => listingLine .incompatible (offenderText showError o)

/-- The lines of a listing. -/
def listingLines (report : Report) (showError : Bool) : List String :=
  "All compatible packages are: " :: report.compatible.map (listingLine .compatible) ++
    listingPart "All non-script packages are: " .nonSource report.nonSource ++
    offenderPart showError report.incompatible ++
    listingPart "Packages that could not be checked: " .unreadable report.unreadable

/-- A report laid out as a plain listing, however long its numbers are. -/
def listing (report : Report) (showError : Bool) : String :=
  "\n".intercalate (report.listingLines showError)

end EditionSurvey.Report
