/-
  Command/Execute.lean --- what the command prints and writes.

  The report goes to a file or to standard output.  The lines on single packages go to
  standard output too, unless they would mix with a report for another program.  Log
  records and messages about wrong arguments go to standard error.

  Neither of the two is a terminal.  What is echoed to them loses the sequences that style it;
  log records and files keep them.
-/
import EditionSurvey.Command.Help
import EditionSurvey.Command.Settings
import EditionSurvey.Survey.Check
import EditionSurvey.Text.Styles

set_option autoImplicit false

namespace EditionSurvey.Command

/-- What the command leaves behind. -/
structure Effects where
  /-- the exit status -/
  status : Nat
  /-- what is printed on standard output -/
  out : String := ""
  /-- what is printed on standard error -/
  err : String := ""
  /-- the file that was written, and its content -/
  written : Option (Path × List UInt8) := none
  /-- the fault that ended the run -/
  fault : Option Fault := none

/-- Print something on standard output and do nothing else. -/
def Effects.printing (text : String) : Effects := { status := 0, out := text }

/-- A text as a line that is echoed. -/
def echoed (text : String) : String := Text.withoutStyles text ++ "\n"

/-- Refuse the arguments. -/
def Effects.refusing (e : UsageError) : Effects :=
  { status := 2
    err := (if e.showsUsage then usageHead else "") ++ echoed s!"Error: {e.message}" }

/-- Whether lines on single packages go to standard error. -/
def Settings.linesToErr (settings : Settings) : Bool :=
  settings.format ≠ .text && settings.output.isNone

/-- Whether a log record is shown. -/
def Settings.shows (settings : Settings) (record : LogRecord) : Bool :=
  settings.verbose || record.level = .warning

/-- A log record as a line. -/
def recordLine (record : LogRecord) : String :=
  s!"{record.source.text} {record.level.text}: {record.message}\n"

/-- What an event prints on standard output. -/
def Settings.outOf (settings : Settings) : Event → String
  | .line text => if settings.linesToErr then "" else echoed text
  | _ => ""

/-- What an event prints on standard error. -/
def Settings.errOf (settings : Settings) : Event → String
  | .line text => if settings.linesToErr then echoed text else ""
  | .record record => if settings.shows record then recordLine record else ""
  | .call _ => ""

/-- What events print on standard output. -/
def Settings.outText (settings : Settings) (events : List Event) : String :=
  String.join (events.map settings.outOf)

/-- What events print on standard error. -/
def Settings.errText (settings : Settings) (events : List Event) : String :=
  String.join (events.map settings.errOf)

/-- The survey that the settings ask for. -/
def Settings.survey (settings : Settings) (tree : FileTree) : Outcome :=
  match settings.target with
  | some target => (Survey.checkTargets tree settings.options target).outcome
  | none => (Survey.checkPackage tree settings.options).outcome

/-- A report in the format asked for. -/
def Settings.reportText (settings : Settings) (report : Report) : Except Fault String :=
  report.written settings.format settings.options.showError

/-- Deliver a report: echo it, or write it to a file with a line end and say so. -/
def Settings.deliver (settings : Settings) (tree : FileTree) (events : List Event)
    (report : Report) : Effects :=
  let out := settings.outText events
  let err := settings.errText events
  let status := if report.passed then 0 else 1
  match settings.reportText report with
  | .error fault => { status := 1, out, err, fault := some fault }
  | .ok text =>
      match settings.output with
      | none => { status, out := out ++ echoed text, err }
      | some path =>
          let bytes := (text ++ "\n").toUTF8.toList
          match tree.write path bytes with
          | .ok _ =>
              { status
                out := out ++ echoed s!"Report written to {path}"
                err
                written := some (path, bytes) }
          | .error fault => { status := 1, out, err, fault := some fault }

/-- Do the survey that the settings ask for, and report on it. -/
def Settings.execute (settings : Settings) (tree : FileTree) : Effects :=
  let (result, progress) := settings.survey tree
  match result with
  | .ok _ =>
      settings.deliver tree progress.events (.ofStore progress.store settings.options.edition)
  | .error fault =>
      { status := 1
        out := settings.outText progress.events
        err := settings.errText progress.events
        fault := some fault }

/-- The text that is shown in place of a survey, if it is asked for: the first one that is. -/
def shownInstead? (gifts : List Gift) : Option String :=
  gifts.findSome? fun gift => match gift.1 with
    | .version => some versionLine
    | .help => some helpText
    | _ => none

/-- What the command does with arguments and with the edition that the environment names. -/
def execute (tree : FileTree) (environment : Option String) (args : List String) : Effects :=
  match readArguments args with
  | .error e => .refusing e
  | .ok arguments =>
      match shownInstead? arguments.gifts with
      | some text => .printing text
      | none =>
          match readSettings tree environment arguments with
          | .error (.usage e) => .refusing e
          | .error (.fault fault) => { status := 1, fault := some fault }
          | .ok settings => settings.execute tree

end EditionSurvey.Command
