/-
  Report/Markdown.lean --- a report as a Markdown document.

  The document has a title, a summary and a section for each state that occurs.  Packages
  that do not conform are listed, or stand in a table with the reasons.
-/
import EditionSurvey.Report.Basic

set_option autoImplicit false

namespace EditionSurvey.Report

/-- A section that lists names. -/
def markdownSection (title : String) (names : List String) : String :=
  s!"## {title}\n\n" ++ "\n".intercalate (names.map fun name => s!"- `{name}`") ++ "\n"

/-- A section that lists names, if there are any. -/
def markdownSection? (title : String) (names : List String) : List String :=
  if names.isEmpty then [] else [markdownSection title names]

/-- The summary at the head of the document. -/
def markdownSummary (report : Report) : String :=
  let gate := if report.passed then "PASS" else "FAIL"
  "\n".intercalate
    [s!"- **Result**: {gate}. {report.headline}",
      s!"- **Compatible**: {report.compatible.length}",
      s!"- **Non-script**: {report.nonSource.length}",
      s!"- **Incompatible**: {report.incompatible.length}",
      s!"- **Unreadable**: {report.unreadable.length}"] ++ "\n"

/-- Where a script fails to conform, in a cell of the table. -/
def locationCell : Option Diagnostic → String
  | none => "-"
  | some d =>
      match d.line, d.column with
      | none, _ => "-"
      | some line, none => toString line
      | some line, some column => s!"{line}:{column}"

/-- Why a script fails to conform, in a cell of the table. -/
def problemCell : Option Diagnostic → String
  | none => "-"
  | some d => d.message

/-- The row of a package in the table. -/
def markdownRow (offender : Offender) : String :=
  s!"| `{offender.name}` | {problemCell offender.diagnostic} | {locationCell offender.diagnostic} |"

/-- The section on packages that do not conform. -/
def markdownOffenders (offenders : List Offender) (showError : Bool) : List String :=
  if offenders.isEmpty then ["No incompatible packages.\n"]
  else if showError then
    ["## Incompatible Packages\n", "| Package | Problem | Location |", "|---|---|---|"] ++
      offenders.map markdownRow ++ [""]
  else [markdownSection "Incompatible Packages" (offenders.map Offender.name)]

/-- A report laid out as a Markdown document, however long its numbers are. -/
def markdown (report : Report) (showError : Bool) : String :=
  "\n".intercalate <|
    [s!"# {EditionSurvey.label report.edition} Compatibility Report\n", report.markdownSummary] ++
      markdownSection? "Compatible Packages" report.compatible ++
      markdownSection? "Non-script Packages" report.nonSource ++
      markdownOffenders report.incompatible showError ++
      markdownSection? "Unreadable Packages" report.unreadable

end EditionSurvey.Report
