/-
  Survey/State.lean --- what a survey says of a package.
-/
import EditionSurvey.Diagnostic
import EditionSurvey.Value.Shown

set_option autoImplicit false

namespace EditionSurvey

/-- What is known of a package once it was looked at. -/
inductive PackageState where
  /-- its entry script conforms -/
  | compatible
  /-- its entry script does not conform -/
  | incompatible
  /-- its entry is no script -/
  | nonSource
  /-- it has no entry that could be judged -/
  | unreadable
  deriving DecidableEq, Repr, Inhabited

namespace PackageState

/-- All states. -/
def all : List PackageState := [.compatible, .incompatible, .nonSource, .unreadable]

/-- The name of a state in reports. -/
def text : PackageState → String
  | .compatible => "compatible"
  | .incompatible => "incompatible"
  | .nonSource => "non_source"
  | .unreadable => "unreadable"

/-- The state of a name. -/
def ofText? (name : String) : Option PackageState := all.find? fun state => state.text = name

/-- The message for a name that no state has. -/
def unknownMessage (name : String) : String :=
  shownString name ++ " is not a valid ClassificationState"

/-- Whether a survey may pass with a package in this state. -/
def acceptable : PackageState → Bool
  | .incompatible => false
  | _ => true

/-- Whether the dependencies of a package in this state are looked at. -/
def needsDescent : PackageState → Bool
  | .unreadable => true
  | _ => false

/-- The mark of a state in listings. -/
def symbol : PackageState → String
  | .compatible => "✅"
  | .incompatible => "❌"
  | .nonSource => "➖"
  | .unreadable => "❓"

theorem ofText?_text (state : PackageState) : ofText? state.text = some state := by
  cases state <;> decide

theorem text_of_ofText? {name : String} {state : PackageState}
    (h : ofText? name = some state) : state.text = name := by
  simpa using List.find?_some h

end PackageState

/-- What was found out about a package: its state, and for an incompatible one the reason if
it is known. -/
inductive Verdict where
  /-- the entry script conforms -/
  | compatible
  /-- the entry script does not conform -/
  | incompatible (diagnostic : Option Diagnostic)
  /-- the entry is no script -/
  | nonSource
  /-- there is no entry that could be judged -/
  | unreadable
  deriving DecidableEq, Repr, Inhabited

namespace Verdict

/-- The state of a package. -/
def state : Verdict → PackageState
  | .compatible => .compatible
  | .incompatible _ => .incompatible
  | .nonSource => .nonSource
  | .unreadable => .unreadable

/-- The reason, if the package is incompatible and the reason is known. -/
def diagnostic? : Verdict → Option Diagnostic
  | .incompatible d => d
  | _ => none

/-- A state with a reason; the reason counts for an incompatible package only. -/
def ofState (state : PackageState) (diagnostic : Option Diagnostic) : Verdict :=
  match state with
  | .compatible => .compatible
  | .incompatible => .incompatible diagnostic
  | .nonSource => .nonSource
  | .unreadable => .unreadable

@[simp] theorem state_ofState (s : PackageState) (d : Option Diagnostic) :
    (ofState s d).state = s := by
  cases s <;> rfl

theorem diagnostic?_ofState (s : PackageState) (d : Option Diagnostic) :
    (ofState s d).diagnostic? = if s = .incompatible then d else none := by
  cases s <;> rfl

end Verdict

end EditionSurvey
