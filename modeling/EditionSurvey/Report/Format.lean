/-
  Report/Format.lean --- the formats that a report can be written in.

  A format lays out every report (`Report.render`).  A whole number with too many digits has no
  text, though, and so a report that shows one is not written (`Report.written`).
-/
import EditionSurvey.Package.Fault
import EditionSurvey.Report.Data
import EditionSurvey.Report.Listing
import EditionSurvey.Report.Markdown
import EditionSurvey.Report.Yaml
import EditionSurvey.Value.Reader

set_option autoImplicit false

namespace EditionSurvey

/-- The format of a report. -/
inductive Format where
  /-- a plain listing -/
  | text
  /-- a Markdown document -/
  | markdown
  /-- a JSON file -/
  | json
  /-- a YAML file -/
  | yaml
  deriving DecidableEq, Repr, Inhabited

namespace Format

/-- All formats. -/
def all : List Format := [.text, .markdown, .json, .yaml]

/-- The name of a format. -/
def name : Format → String
  | .text => "text"
  | .markdown => "md"
  | .json => "json"
  | .yaml => "yaml"

/-- The format of a name; a name that no format has stands for the listing. -/
def ofName (name : String) : Format := (all.find? fun f => f.name = name).getD .text

theorem ofName_name (f : Format) : ofName f.name = f := by
  cases f <;> decide

end Format

/-- The numbers that say where a script fails to conform.  A column without a line is not shown. -/
def Diagnostic.placeNumbers (d : Diagnostic) : List Int :=
  match d.line with
  | none => []
  | some line => line :: d.column.toList

namespace Report

/-- The numbers of the diagnostics in a report; they are there only on demand. -/
def diagnosticNumbers (report : Report) (showError : Bool) (numbers : Diagnostic → List Int) :
    List Int :=
  if showError then
    report.incompatible.flatMap fun offender => offender.diagnostic.toList.flatMap numbers
  else []

/-- The whole numbers that a report shows in a format and that may be of any length. -/
def numbers (report : Report) (format : Format) (showError : Bool) : List Int :=
  match format with
  | .text => report.diagnosticNumbers showError Diagnostic.placeNumbers
  | .markdown =>
      labelNumber report.edition :: report.diagnosticNumbers showError Diagnostic.placeNumbers
  | .json | .yaml =>
      report.edition ::
        report.diagnosticNumbers showError fun d => d.line.toList ++ d.column.toList

/-- A report laid out in a format, however long its numbers are. -/
def render (report : Report) (format : Format) (showError : Bool) : String :=
  match format with
  | .text => report.listing showError
  | .markdown => report.markdown showError
  | .json => report.json showError
  | .yaml => report.yaml showError

/-- No whole number that the report shows has too many digits. -/
def Writable (report : Report) (format : Format) (showError : Bool) : Prop :=
  ∀ n ∈ report.numbers format showError, digitCount n ≤ Reader.digitLimit

instance (report : Report) (format : Format) (showError : Bool) :
    Decidable (report.Writable format showError) :=
  inferInstanceAs (Decidable (∀ n ∈ report.numbers format showError, _))

/-- Write a report in a format. -/
def written (report : Report) (format : Format) (showError : Bool) : Except Fault String :=
  if report.Writable format showError then .ok (report.render format showError)
  else .error .numberUnwritable

/-- What is written is the layout. -/
theorem written_eq_ok_iff {report : Report} {format : Format} {showError : Bool} {text : String} :
    report.written format showError = .ok text ↔
      report.Writable format showError ∧ report.render format showError = text := by
  unfold written
  split
  · next h => simp [h]
  · next h => simp [h]

end Report

end EditionSurvey
