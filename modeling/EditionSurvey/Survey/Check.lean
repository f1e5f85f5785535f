/-
  Survey/Check.lean --- surveys of packages and scripts in a file tree.

  `checkPackage` judges a package by its entry and then walks over its dependencies.
  `checkTargets` judges one script, or every script below a directory, and walks nowhere.
-/
import EditionSurvey.Package.Discovery
import EditionSurvey.Package.Resolution
import EditionSurvey.Report.Basic
import EditionSurvey.Survey.Walk

set_option autoImplicit false

namespace EditionSurvey

/-- What a survey of a file tree relies on. -/
def FileTree.surroundings (tree : FileTree) : Surroundings where
  manifest := tree.readManifest
  resolve := tree.resolveEntry
  locate name searchRoot := Logged.ofExcept (tree.findDirectory name searchRoot)
  read path := Logged.ofExcept (tree.readScript path)

/-- A survey of a file tree. -/
def FileTree.survey (tree : FileTree) (options : Options) : Survey :=
  { options, surroundings := tree.surroundings }

/-- The package to start with: its name, if it was asked for by one, and its directory. -/
def FileTree.locateRoot (tree : FileTree) (options : Options) :
    Except Fault (Option String × Path) := do
  let name := options.packageName
  if name = "." then return (none, ← tree.resolve options.resolvePath)
  let asPath := Path.ofString name
  if ← tree.isFile (asPath.child manifestName) then return (none, ← tree.resolve asPath)
  return (some name, ← tree.findDirectory name options.resolvePath)

/-- The name of a package that was not asked for by one: what its manifest says, or the name
of its directory. -/
def ownName (manifest : Option Manifest) (directory : Path) : String :=
  match manifest.bind Manifest.name with
  | some "" => directory.name
  | some name => name
  | none => directory.name

namespace Survey

/-- The manifest of the package to start with; that it has none is worth a warning. -/
def rootManifest (tree : FileTree) (directory : Path) : Run (Option Manifest) := do
  match ← Run.perform (tree.readManifest directory) with
  | .ok manifest => pure (some manifest)
  | .error failure => do
      Run.write .warning .checker failure.message
      pure none

/-- Write the result of a survey to the log. -/
def noteResult (options : Options) : Run Unit := do
  let report := Report.ofStore (← get).store options.edition
  Run.write .info .checker
    s!"Check complete: {report.total} packages, {report.incompatible.length} incompatible"

/-- Find the package to start with and judge it by its entry.  The result is its name and its
directory. -/
def startPackage (tree : FileTree) (options : Options) : Run (String × Path) := do
  let (asked, directory) ← Run.perform (Logged.ofExcept (tree.locateRoot options))
  Run.write .info .checker s!"Checking {directory} against {options.label}"
  let manifest ← rootManifest tree directory
  let name := asked.getD (ownName manifest directory)
  let entry ← Run.perform (tree.entryOfDirectory directory)
  let _ ← (tree.survey options).classify name entry 0
  pure (name, directory)

/-- Survey a package and its dependencies.  The result is the name of the package. -/
def checkPackage (tree : FileTree) (options : Options) : Run String := do
  let (name, directory) ← startPackage tree options
  (tree.survey options).walk (stepsFor tree.dependencyNames.length) name directory 1
  noteResult options
  pure name

/-- Judge scripts below a directory, each under its name there. -/
def checkScripts (survey : Survey) (directory : Path) : List (List String) → Run Unit
  | [] => pure ()
  | script :: rest => do
      let _ ← survey.classify ("/".intercalate script) (some (scriptPath directory script)) 0
      survey.checkScripts directory rest

/-- Survey one script, or the scripts below a directory.  The result is the name of the
target. -/
def checkTargets (tree : FileTree) (options : Options) (target : Path) : Run String := do
  let survey := tree.survey options
  if ← Run.perform (Logged.ofExcept (tree.isDirectory target)) then
    let scripts ← Run.perform (Logged.ofExcept (tree.scriptsBelow target))
    Run.write .info .checker
      s!"Checking {scripts.length} scripts under {target} against {options.label}"
    survey.checkScripts target scripts
  else
    let _ ← survey.classify target.toString (some target) 0
  pure target.toString

end Survey

/-- The outcome of a survey: the name of what was surveyed unless a fault ended it, and what
was done. -/
abbrev Outcome := Except Fault String × Progress

/-- Do a survey from the start. -/
def Run.outcome (run : Run String) : Outcome := run.run.run {}

end EditionSurvey
