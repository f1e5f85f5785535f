/-
  Report/Basic.lean --- the result of a survey, package by package.

  A report groups the names of a store by state and keeps their order.
-/
import EditionSurvey.Edition
import EditionSurvey.Survey.Store

set_option autoImplicit false

namespace EditionSurvey

/-- A package that does not conform. -/
structure Offender where
  /-- its name -/
  name : String
  /-- its state -/
  state : PackageState
  /-- the reason, if it is known -/
  diagnostic : Option Diagnostic
  deriving DecidableEq, Repr

/-- The result of a survey. -/
structure Report where
  /-- the edition -/
  edition : Int
  /-- packages that conform -/
  compatible : List String
  /-- packages whose entry is no script -/
  nonSource : List String
  /-- packages that do not conform -/
  incompatible : List Offender
  /-- packages that could not be judged -/
  unreadable : List String
  deriving DecidableEq, Repr

namespace Report

/-- The report on the verdicts of a store. -/
def ofStore (store : Store) (edition : Int) : Report where
  edition := edition
  compatible := store.namesIn .compatible
  nonSource := store.namesIn .nonSource
  incompatible := (store.namesIn .incompatible).map fun name =>
    ⟨name, .incompatible, store.diagnostic? name⟩
  unreadable := store.namesIn .unreadable

/-- Whether no package fails to conform. -/
def passed (report : Report) : Bool := report.incompatible.isEmpty

theorem passed_ofStore_iff (store : Store) (edition : Int) :
    (ofStore store edition).passed = true ↔ store.namesIn .incompatible = [] := by
  simp [passed, ofStore]

/-- The number of packages. -/
def total (report : Report) : Nat :=
  report.compatible.length + report.nonSource.length + report.incompatible.length +
    report.unreadable.length

/-- The verdict of a report as a sentence. -/
def headline (report : Report) : String :=
  let label := EditionSurvey.label report.edition
  if report.passed then
    s!"All {report.total} checked packages are {label} compatible or were skipped."
  else
    let count := report.incompatible.length
    let packages := if count = 1 then "package is" else "packages are"
    s!"{count} {packages} not {label} compatible."

end Report

end EditionSurvey
