/-
  Report/Data.lean --- a report as a value, and as a JSON file.
-/
import EditionSurvey.Report.Basic
import EditionSurvey.Value.Printer

set_option autoImplicit false

namespace EditionSurvey

/-- A whole number or nothing, as a value. -/
def Value.ofInt? : Option Int → Value
  | none => .null
  | some n => .int n

/-- A diagnostic as a value. -/
def Diagnostic.toValue (d : Diagnostic) : Value :=
  .object [("message", .string d.message), ("line", .ofInt? d.line), ("column", .ofInt? d.column)]

/-- A diagnostic or nothing, as a value. -/
def Value.ofDiagnostic? : Option Diagnostic → Value
  | none => .null
  | some d => d.toValue

/-- A package that does not conform, as a value; the reason is there only on demand. -/
def Offender.toValue (showError : Bool) (offender : Offender) : Value :=
  .object <|
    [("name", .string offender.name), ("state", .string offender.state.text)] ++
      if showError then [("diagnostic", .ofDiagnostic? offender.diagnostic)] else []

/-- Names as a value. -/
def Value.ofNames (names : List String) : Value := .list (names.map .string)

namespace Report

/-- A report as a value. -/
def toValue (report : Report) (showError : Bool) : Value :=
  .object
    [("es_version", .int report.edition), ("compatible", .ofNames report.compatible),
      ("non_source", .ofNames report.nonSource),
      ("incompatible", .list (report.incompatible.map (Offender.toValue showError))),
      ("unreadable", .ofNames report.unreadable), ("passed", .bool report.passed)]

/-- A report laid out as a JSON file, however long its numbers are. -/
def json (report : Report) (showError : Bool) : String := (report.toValue showError).toFile

end Report

end EditionSurvey
