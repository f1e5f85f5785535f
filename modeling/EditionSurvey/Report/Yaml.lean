/-
  Report/Yaml.lean --- a report as a YAML file.

  Names are listed at the margin of their key.  A package that does not conform takes
  several lines, and its diagnostic is indented once more.
-/
import EditionSurvey.Report.Basic
import EditionSurvey.Yaml.Scalar

set_option autoImplicit false

namespace EditionSurvey.Report

/-- A key at an indentation, with its colon. -/
def yamlKey (indent : Nat) (key : String) : List Char :=
  List.replicate indent ' ' ++ key.toList ++ [':']

/-- The column behind a key. -/
def columnBehindKey (indent : Nat) (key : String) : Nat := indent + key.length + 1

/-- A line with a key and a word. -/
def yamlWordLine (indent : Nat) (key : String) (word : String) : List Char :=
  yamlKey indent key ++ ' ' :: (word.toList ++ ['\n'])

/-- A line with a key and a text, and the lines that the text is folded into. -/
def yamlTextLine (indent : Nat) (key : String) (text : String) : List Char :=
  yamlKey indent key ++
    Yaml.writeText (indent + 2) (columnBehindKey indent key) text.toList ++ ['\n']

/-- A number or nothing, as a word. -/
def yamlNumber : Option Int → String
  | none => "null"
  | some n => toString n

/-- A name in a list. -/
def yamlName (name : String) : List Char := '-' :: (Yaml.writeText 2 1 name.toList ++ ['\n'])

/-- A key with a list under it. -/
def yamlList {α : Type} (key : String) (item : α → List Char) (items : List α) : List Char :=
  if items.isEmpty then yamlWordLine 0 key "[]"
  else yamlKey 0 key ++ '\n' :: items.flatMap item

/-- The diagnostic of a package, or that there is none. -/
def yamlDiagnostic : Option Diagnostic → List Char
  | none => yamlWordLine 2 "diagnostic" "null"
  | some d =>
      yamlKey 2 "diagnostic" ++ ['\n'] ++ yamlTextLine 4 "message" d.message ++
        yamlWordLine 4 "line" (yamlNumber d.line) ++ yamlWordLine 4 "column" (yamlNumber d.column)

/-- A package that does not conform.  Its first line has a dash in the indentation. -/
def yamlOffender (showError : Bool) (offender : Offender) : List Char :=
  '-' :: (yamlTextLine 2 "name" offender.name).drop 1 ++
    yamlWordLine 2 "state" offender.state.text ++
    if showError then yamlDiagnostic offender.diagnostic else []

/-- A truth value as a word. -/
def yamlBool (b : Bool) : String := if b then "true" else "false"

/-- A report laid out as a YAML file, however long its numbers are. -/
def yaml (report : Report) (showError : Bool) : String :=
  String.ofList <|
    yamlWordLine 0 "es_version" (toString report.edition) ++
      yamlList "compatible" yamlName report.compatible ++
      yamlList "non_source" yamlName report.nonSource ++
      yamlList "incompatible" (yamlOffender showError) report.incompatible ++
      yamlList "unreadable" yamlName report.unreadable ++
      yamlWordLine 0 "passed" (yamlBool report.passed)

end EditionSurvey.Report
