/-
  Survey/Progress.lean --- what a survey has done so far.

  A survey keeps verdicts and a journal: what it asked for, what it printed and what was
  written to the log, in the order in which it happened.  `Run α` is a part of a survey
  that yields a result or ends with a fault; what was done before a fault stays done.
-/
import EditionSurvey.Package.Log
import EditionSurvey.Survey.Store

set_option autoImplicit false

namespace EditionSurvey

/-- What a survey asks for. -/
inductive Call where
  /-- the manifest of a directory -/
  | manifest (directory : Path)
  /-- the entry of a package -/
  | resolve (name : String)
  /-- the directory of a package -/
  | locate (name : String)
  /-- the text of a script -/
  | read (path : Path)
  /-- whether a script conforms to an edition -/
  | validate (edition : Int)
  deriving DecidableEq, Repr

/-- What happens in a survey. -/
inductive Event where
  /-- something is asked for -/
  | call (call : Call)
  /-- a line is printed -/
  | line (text : String)
  /-- a log record is written -/
  | record (record : LogRecord)
  deriving DecidableEq, Repr

/-- The call of an event, if it is one. -/
def Event.call? : Event → Option Call
  | .call c => some c
  | _ => none

/-- The line that an event prints, if it does. -/
def Event.line? : Event → Option String
  | .line text => some text
  | _ => none

/-- The log record that an event writes, if it does. -/
def Event.record? : Event → Option LogRecord
  | .record r => some r
  | _ => none

/-- What a survey has done. -/
structure Progress where
  /-- the verdicts -/
  store : Store := .empty
  /-- what happened, last event first -/
  latest : List Event := []
  deriving Inhabited

namespace Progress

/-- What happened, in order. -/
def events (progress : Progress) : List Event := progress.latest.reverse

/-- What was asked for, in order. -/
def calls (progress : Progress) : List Call := progress.events.filterMap Event.call?

/-- What was printed, in order. -/
def lines (progress : Progress) : List String := progress.events.filterMap Event.line?

/-- What was written to the log, in order. -/
def records (progress : Progress) : List LogRecord := progress.events.filterMap Event.record?

/-- One more event. -/
def add (progress : Progress) (event : Event) : Progress :=
  { progress with latest := event :: progress.latest }

@[simp] theorem events_add (progress : Progress) (event : Event) :
    (progress.add event).events = progress.events ++ [event] := by
  simp [events, add]

@[simp] theorem store_add (progress : Progress) (event : Event) :
    (progress.add event).store = progress.store := rfl

end Progress

/-- A part of a survey. -/
abbrev Run (α : Type) : Type := ExceptT Fault (StateM Progress) α

namespace Run

/-- Let an event happen. -/
def emit (event : Event) : Run Unit := modify (·.add event)

/-- Print a line. -/
def print (text : String) : Run Unit := emit (.line text)

/-- Write a log record. -/
def write (level : Level) (source : Source) (message : String) : Run Unit :=
  emit (.record ⟨level, source, message⟩)

/-- Do a piece of work: its records go to the log, and its fault ends the run. -/
def perform {α : Type} (work : Logged α) : Run α := do
  modify fun progress => work.log.foldl (fun p r => p.add (.record r)) progress
  match work.result with
  | .ok a => pure a
  | .error fault => throw fault

/-- Ask for something. -/
def ask {α : Type} (call : Call) (work : Logged α) : Run α := do
  emit (.call call)
  perform work

end Run

end EditionSurvey
