/-
  Command/Settings.lean --- what the arguments of the command ask for.

  Of several values for a parameter the last one counts.  Values are examined in the order
  in which their options first appear, and then those of the other parameters.
-/
import EditionSurvey.Command.Arguments
import EditionSurvey.Package.FileTree
import EditionSurvey.Report.Format
import EditionSurvey.Survey.Options

set_option autoImplicit false

namespace EditionSurvey.Command

/-- What the arguments ask for. -/
structure Settings where
  /-- what the survey is asked for -/
  options : Options := {}
  /-- the script or directory to judge in place of a package -/
  target : Option Path := none
  /-- the format of the report -/
  format : Format := .text
  /-- the file that the report is written to -/
  output : Option Path := none
  /-- whether all log records are shown -/
  verbose : Bool := false
  deriving Inhabited

/-- Why there are no settings. -/
inductive Stop where
  /-- the arguments are wrong -/
  | usage (e : UsageError)
  /-- a fault ends the run -/
  | fault (f : Fault)
  deriving DecidableEq, Repr

/-- Refuse the value of a parameter. -/
def refuse {α : Type} (parameter : Parameter) (problem : ValueProblem) : Except Stop α :=
  .error (.usage (.invalidValue parameter problem))

/-- What is at the place that a value names. -/
def placeOf (tree : FileTree) (text : String) : Except Stop (Option FileNode) :=
  (tree.findPlace text).mapError .fault

/-- Read the number or year of an edition. -/
def readEditionValue (text : String) : Except Stop Int :=
  match Text.readInteger? text.toList with
  | none => refuse .edition (.notAnInteger text)
  | some n =>
      match editionOfValue (.int n) with
      | .ok edition => .ok edition
      | .error message => refuse .edition (.noEdition message)

/-- Read a path where a file must not be. -/
def readDirectoryValue (tree : FileTree) (text : String) : Except Stop Path := do
  match ← placeOf tree text with
  | some (.file _) => refuse .resolvePath (.isAFile text)
  | _ => pure (.ofString text)

/-- Read a path where something has to be. -/
def readTargetValue (tree : FileTree) (text : String) : Except Stop Path := do
  match ← placeOf tree text with
  | none => refuse .target (.doesNotExist text)
  | some _ => pure (.ofString text)

/-- Read a path where a directory must not be. -/
def readOutputValue (tree : FileTree) (text : String) : Except Stop Path := do
  match ← placeOf tree text with
  | some (.directory _) => refuse .output (.isADirectory text)
  | _ => pure (.ofString text)

/-- A character without its case.  The long `s` is the one character outside ASCII that is
folded into a letter of a format. -/
def foldChar (c : Char) : Char := if c = '\u017f' then 's' else c.toLower

/-- Read the name of a format, in any case. -/
def readFormatValue (text : String) : Except Stop Format :=
  let folded := String.ofList (text.toList.map foldChar)
  match Format.all.find? fun f => f.name = folded with
  | some format => .ok format
  | none => refuse .format (.notAChoice text (Format.all.map Format.name))

/-- Set a parameter to a text. -/
def Settings.setText (tree : FileTree) (settings : Settings) (text : String) :
    Parameter → Except Stop Settings
  | .edition => do
      let edition ← readEditionValue text
      pure { settings with options := { settings.options with edition } }
  | .packageName => pure { settings with options := { settings.options with packageName := text } }
  | .resolvePath => do
      let resolvePath ← readDirectoryValue tree text
      pure { settings with options := { settings.options with resolvePath } }
  | .target => do
      let target ← readTargetValue tree text
      pure { settings with target := some target }
  | .format => do
      let format ← readFormatValue text
      pure { settings with format }
  | .output => do
      let output ← readOutputValue tree text
      pure { settings with output := some output }
  | _ => pure settings

/-- Set a parameter to a truth value. -/
def Settings.setFlag (settings : Settings) (b : Bool) : Parameter → Settings
  | .showTree => { settings with options := { settings.options with showTree := b } }
  | .showError => { settings with options := { settings.options with showError := b } }
  | .includePeer => { settings with options := { settings.options with includePeer := b } }
  | .verbose => { settings with verbose := b }
  | _ => settings

/-- The last thing that is given to a parameter. -/
def lastGift? (gifts : List Gift) (parameter : Parameter) : Option Given :=
  gifts.reverse.lookup parameter

/-- The parameters in the order in which they are examined. -/
def examinationOrder (gifts : List Gift) : List Parameter :=
  (gifts.map Prod.fst).eraseDups ++
    Parameter.all.filter fun parameter => !(gifts.map Prod.fst).contains parameter

/-- Examine a parameter.  The edition may be set by the environment too, unless the text there
is empty. -/
def examine (tree : FileTree) (environment : Option String) (gifts : List Gift)
    (settings : Settings) (parameter : Parameter) : Except Stop Settings :=
  match lastGift? gifts parameter with
  | some (.text s) => settings.setText tree s parameter
  | some (.flag b) => .ok (settings.setFlag b parameter)
  | none =>
      match parameter, environment with
      | .edition, some "" => .ok settings
      | .edition, some s => settings.setText tree s .edition
      | _, _ => .ok settings

/-- The settings that arguments and environment ask for. -/
def readSettings (tree : FileTree) (environment : Option String) (arguments : Arguments) :
    Except Stop Settings := do
  let settings ←
    (examinationOrder arguments.gifts).foldlM (examine tree environment arguments.gifts) {}
  if arguments.extra.isEmpty then pure settings
  else .error (.usage (.extraArguments arguments.extra))

end EditionSurvey.Command
