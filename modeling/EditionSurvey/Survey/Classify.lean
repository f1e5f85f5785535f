/-
  Survey/Classify.lean --- the verdict on one package.

  A package is judged by its entry script, once: a name that has a verdict keeps it, and
  is only announced again.
-/
import EditionSurvey.Survey.Progress
import EditionSurvey.Survey.Surroundings

set_option autoImplicit false

namespace EditionSurvey

/-- The suffixes of entries that are no scripts. -/
def nonSourceSuffixes : List String :=
  [".css", ".scss", ".sass", ".less", ".styl", ".json", ".node"]

/-- Whether an entry is no script, by its suffix.  Only ASCII letters have two cases here: no
other letter is folded into one of the suffixes. -/
def isNonSource (path : Path) : Bool := nonSourceSuffixes.contains path.suffix.toLower

/-- The text of a state, with the reason for an incompatible package if it is to be shown. -/
def describeState (label name : String) (state : PackageState) (reason : Option Diagnostic) :
    String :=
  match state with
  | .compatible => s!"{name} is {label} compatible."
  | .incompatible =>
      match reason with
      | some diagnostic => s!"{name} is not {label} compatible: {diagnostic.describe}"
      | none => s!"{name} is not {label} compatible."
  | .nonSource => s!"{name} is not a script library, skipped."
  | .unreadable =>
      s!"{name} has no main script file. Maybe it is not a script library or it has not been compiled."

namespace Survey

/-- The line for a package in a state, without its indentation. -/
def describe (survey : Survey) (store : Store) (name : String) (state : PackageState) : String :=
  let reason := if survey.options.showError then store.diagnostic? name else none
  state.symbol ++ " " ++ describeState survey.options.label name state reason

/-- Four blanks for each level; a level below zero has none. -/
def indentation (depth : Int) : String := String.ofList (List.replicate (4 * depth.toNat) ' ')

/-- Print the line for a package, if lines are to be printed. -/
def announce (survey : Survey) (name : String) (state : PackageState) (depth : Int) : Run Unit := do
  if survey.prints && survey.options.showTree then
    let store := (← get).store
    Run.print (indentation depth ++ survey.describe store name state)

/-- The verdict that a judgement of a script at a path leads to. -/
def verdictOf (path : Path) : Except Script.Refusal Unit → Run Verdict
  | .ok () => pure .compatible
  | .error (.incompatible diagnostic) => pure (.incompatible (some diagnostic))
  | .error .nestsTooDeeply => do
      Run.write .warning .classifier
        s!"{path}: Parse aborted: source nests too deeply to parse"
      pure .unreadable
  | .error .templateWithoutHead => throw .templateWithoutHead

/-- The verdict on a script at a path. -/
def judge (survey : Survey) (path : Path) : Run Verdict := do
  match ← Run.ask (.read path) (survey.surroundings.read path) with
  | .error failure => do
      Run.write .debug .classifier failure.message
      pure .unreadable
  | .ok source => do
      Run.emit (.call (.validate survey.options.edition))
      verdictOf path (survey.surroundings.validate source survey.options.edition)

/-- The verdict on a package with an entry or without one. -/
def evaluate (survey : Survey) : Option Path → Run Verdict
  | none => pure .unreadable
  | some path => if isNonSource path then pure .nonSource else survey.judge path

/-- The text of an entry in the log. -/
def entryText : Option Path → String
  | none => "None"
  | some path => path.toString

/-- Find and record the verdict on a package that has none, and announce it. -/
def classifyNew (survey : Survey) (name : String) (entry : Option Path) (depth : Int) :
    Run PackageState := do
  let verdict ← survey.evaluate entry
  modify fun progress => { progress with store := progress.store.record name verdict }
  Run.write .debug .classifier s!"Classified {name} as {verdict.state.text} ({entryText entry})"
  survey.announce name verdict.state depth
  pure verdict.state

/-- The state of a package: the one that it has, or the one that its entry leads to. -/
def classify (survey : Survey) (name : String) (entry : Option Path) (depth : Int) :
    Run PackageState := do
  match (← get).store.get? name with
  | some state => do
      survey.announce name state depth
      pure state
  | none => survey.classifyNew name entry depth

end Survey

end EditionSurvey
