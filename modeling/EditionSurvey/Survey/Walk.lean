/-
  Survey/Walk.lean --- the walk over the dependencies of a package.

  The walk visits dependencies depth first and in code point order.  A name that has a
  verdict is announced and not visited again, and only the dependencies of a package
  without a usable entry are looked at in turn.  The packages whose dependencies are being
  visited are kept on an explicit stack, so the walk may go as deep as memory allows.
-/
import EditionSurvey.Survey.Classify

set_option autoImplicit false

namespace EditionSurvey

/-- A package whose dependencies are being visited. -/
structure Frame where
  /-- the dependencies that are left -/
  names : List String
  /-- how deep they are announced -/
  depth : Int
  deriving DecidableEq, Repr

namespace Survey

/-- Start visiting the dependencies of a package.  A package without a manifest has none, and
is recorded as unreadable unless it has a verdict. -/
def openPackage (survey : Survey) (name : String) (directory : Path) (depth : Int) :
    Run (Option Frame) := do
  match ← Run.ask (.manifest directory) (survey.surroundings.manifest directory) with
  | .error failure => do
      Run.write .debug .walker failure.message
      modify fun progress => { progress with store := progress.store.record name .unreadable }
      pure none
  | .ok manifest =>
      pure (some ⟨manifest.dependencyNames survey.options.includePeer, depth⟩)

/-- The entry of a package, if it has one. -/
def entryOf (survey : Survey) (name : String) : Run (Option Path) := do
  match ← Run.ask (.resolve name) (survey.surroundings.resolve name survey.options.resolvePath) with
  | .ok entry => pure (some entry)
  | .error failure => do
      Run.write .debug .walker failure.message
      pure none

/-- Start visiting the dependencies of a package that was judged, if it has no usable entry. -/
def descend (survey : Survey) (name : String) (state : PackageState) (depth : Int) :
    Run (Option Frame) := do
  if state.needsDescent then do
    let directory ← Run.ask (.locate name)
      (survey.surroundings.locate name survey.options.resolvePath)
    survey.openPackage name directory (depth + 1)
  else pure none

/-- Judge a dependency that has no verdict, and start visiting its own dependencies if it has
no usable entry. -/
def visitNew (survey : Survey) (name : String) (depth : Int) : Run (Option Frame) := do
  let entry ← survey.entryOf name
  let state ← survey.classify name entry depth
  survey.descend name state depth

/-- Visit a dependency: a known one is only announced. -/
def visit (survey : Survey) (name : String) (depth : Int) : Run (Option Frame) := do
  match (← get).store.get? name with
  | some state => do
      survey.announce name state depth
      pure none
  | none => survey.visitNew name depth

/-- Visit what is left on the stack, in at most `fuel` steps.  A step visits a dependency or
removes a package that has none left. -/
def walkFrames (survey : Survey) : (fuel : Nat) → List Frame → Run Unit
  | _, [] => pure ()
  | 0, _ :: _ => throw .unfinished
  | fuel + 1, ⟨[], _⟩ :: rest => survey.walkFrames fuel rest
  | fuel + 1, ⟨name :: names, depth⟩ :: rest => do
      let frame ← survey.visit name depth
      survey.walkFrames fuel (frame.toList ++ ⟨names, depth⟩ :: rest)

/-- Visit the dependencies of a package, in at most `fuel` steps. -/
def walk (survey : Survey) (fuel : Nat) (name : String) (directory : Path) (depth : Int) :
    Run Unit := do
  let frame ← survey.openPackage name directory depth
  survey.walkFrames fuel frame.toList

/-- A number of steps that is enough when all dependencies are among `count` names: each of
them and the start are opened at most once and have at most `count` dependencies. -/
def stepsFor (count : Nat) : Nat := (count + 1) * (count + 1)

end Survey

end EditionSurvey
