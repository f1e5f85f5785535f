/-
  Command/Arguments.lean --- reading the arguments of the command.

  An argument that starts with a dash names options, up to an argument of two dashes.  A
  long option may carry its value behind an equals sign, and short options may be combined,
  the last one with its value behind it.  Otherwise a value is the argument that follows,
  whatever it is.
-/
import EditionSurvey.Value.Shown

set_option autoImplicit false

namespace EditionSurvey.Command

/-- What can be set by an option. -/
inductive Parameter where
  /-- the edition -/
  | edition
  /-- the package to start with -/
  | packageName
  /-- where packages are searched from -/
  | resolvePath
  /-- whether a line is printed for each package -/
  | showTree
  /-- whether reasons are shown -/
  | showError
  /-- whether what users have to bring along is looked at -/
  | includePeer
  /-- the script or directory to judge in place of a package -/
  | target
  /-- the format of the report -/
  | format
  /-- the file that the report is written to -/
  | output
  /-- whether all log records are shown -/
  | verbose
  /-- whether only the version is shown -/
  | version
  /-- whether only the help is shown -/
  | help
  deriving DecidableEq, Repr

namespace Parameter

/-- All parameters that take part in a survey, in the order in which they are looked at when
no option sets them. -/
def all : List Parameter :=
  [.edition, .packageName, .resolvePath, .showTree, .showError, .includePeer, .target, .format,
    .output, .verbose]

/-- The options that set a parameter. -/
def options : Parameter → List String
  | edition => ["-e", "--es-version"]
  | packageName => ["-p", "--package-name"]
  | resolvePath => ["-r", "--require-resolve-path"]
  | showTree => ["--show-tree"]
  | showError => ["-s", "--show-error"]
  | includePeer => ["--peer"]
  | target => ["-f", "--target"]
  | format => ["--format"]
  | output => ["-o", "--output"]
  | verbose => ["-v", "--verbose"]
  | version => ["--version"]
  | help => ["--help"]

/-- How a parameter is named in messages. -/
def hint (parameter : Parameter) : String :=
  " / ".intercalate (parameter.options.map shownString)

end Parameter

/-- What an option does. -/
inductive Effect where
  /-- it takes a value -/
  | takesValue
  /-- it sets a truth value -/
  | sets (b : Bool)
  deriving DecidableEq, Repr

/-- Options of two dashes. -/
def longOptions : List (String × Parameter × Effect) :=
  [("--es-version", .edition, .takesValue), ("--package-name", .packageName, .takesValue),
    ("--require-resolve-path", .resolvePath, .takesValue), ("--show-tree", .showTree, .sets true),
    ("--no-show-tree", .showTree, .sets false), ("--show-error", .showError, .sets true),
    ("--peer", .includePeer, .sets true), ("--no-peer", .includePeer, .sets false),
    ("--target", .target, .takesValue), ("--format", .format, .takesValue),
    ("--output", .output, .takesValue), ("--verbose", .verbose, .sets true),
    ("--version", .version, .sets true), ("--help", .help, .sets true)]

/-- Options of one dash and one character. -/
def shortOptions : List (Char × Parameter × Effect) :=
  [('e', .edition, .takesValue), ('p', .packageName, .takesValue), ('r', .resolvePath, .takesValue),
    ('s', .showError, .sets true), ('f', .target, .takesValue), ('o', .output, .takesValue),
    ('v', .verbose, .sets true)]

/-- What is wrong with the value of a parameter. -/
inductive ValueProblem where
  /-- it is no whole number -/
  | notAnInteger (text : String)
  /-- it names no edition -/
  | noEdition (message : String)
  /-- it names no format -/
  | notAChoice (text : String) (choices : List String)
  /-- there is nothing at the path -/
  | doesNotExist (text : String)
  /-- there is a file where a directory should be -/
  | isAFile (text : String)
  /-- there is a directory where a file should be -/
  | isADirectory (text : String)
  deriving DecidableEq, Repr

/-- The description of a value problem. -/
def ValueProblem.message : ValueProblem → String
  | .notAnInteger text => s!"{shownString text} is not a valid integer."
  | .noEdition message => message
  | .notAChoice text choices =>
      let shown := ", ".intercalate (choices.map shownString)
      s!"{shownString text} is not one of {shown}."
  | .doesNotExist text => s!"Path {shownString text} does not exist."
  | .isAFile text => s!"Directory {shownString text} is a file."
  | .isADirectory text => s!"File {shownString text} is a directory."

/-- What is wrong with the arguments. -/
inductive UsageError where
  /-- there is no such option -/
  | noSuchOption (name : String)
  /-- an option lacks its value -/
  | valueRequired (name : String)
  /-- an option has a value that it does not take -/
  | valueNotTaken (name : String)
  /-- a parameter has a wrong value -/
  | invalidValue (parameter : Parameter) (problem : ValueProblem)
  /-- there are arguments that no option takes -/
  | extraArguments (arguments : List String)
  deriving DecidableEq, Repr

/-- A usage error as a sentence. -/
def UsageError.message : UsageError → String
  | .noSuchOption name => s!"No such option {shownString name}."
  | .valueRequired name => s!"Option {shownString name} requires an argument."
  | .valueNotTaken name => s!"Option {shownString name} does not take a value."
  | .invalidValue parameter problem => s!"Invalid value for {parameter.hint}: {problem.message}"
  | .extraArguments [argument] => s!"Got unexpected extra argument ({argument})"
  | .extraArguments arguments =>
      let shown := " ".intercalate arguments
      s!"Got unexpected extra arguments ({shown})"

/-- Whether the usage is shown above the message: not when an option and its value do not fit
together. -/
def UsageError.showsUsage : UsageError → Bool
  | .valueRequired _ => false
  | .valueNotTaken _ => false
  | _ => true

/-! ## Reading -/

/-- What an option gives to a parameter. -/
inductive Given where
  /-- a truth value -/
  | flag (b : Bool)
  /-- a text -/
  | text (s : String)
  deriving DecidableEq, Repr

/-- What is given to which parameter. -/
abbrev Gift := Parameter × Given

/-- What an argument gives. -/
inductive Reading where
  /-- all that it gives -/
  | complete (gifts : List Gift)
  /-- what it gives before an option that takes the next argument -/
  | wantsValue (gifts : List Gift) (parameter : Parameter) (name : String)

/-- Read combined short options; `gifts` is what those before them give. -/
def readShort (gifts : List Gift) : List Char → Except UsageError Reading
  | [] => .ok (.complete gifts)
  | c :: rest =>
      let name := String.ofList ['-', c]
      match shortOptions.lookup c with
      | none => .error (.noSuchOption name)
      | some (parameter, .sets b) => readShort (gifts ++ [(parameter, .flag b)]) rest
      | some (parameter, .takesValue) =>
          if rest.isEmpty then .ok (.wantsValue gifts parameter name)
          else .ok (.complete (gifts ++ [(parameter, .text (String.ofList rest))]))

/-- Read an argument that starts with a dash. -/
def readOption (argument : List Char) : Except UsageError Reading :=
  let (cs, behind) := argument.span (· ≠ '=')
  let name := String.ofList cs
  match longOptions.lookup name, behind with
  | some (parameter, .takesValue), _ :: value =>
      .ok (.complete [(parameter, .text (String.ofList value))])
  | some (parameter, .takesValue), [] => .ok (.wantsValue [] parameter name)
  | some (_, .sets _), _ :: _ => .error (.valueNotTaken name)
  | some (parameter, .sets b), [] => .ok (.complete [(parameter, .flag b)])
  | none, _ =>
      if ['-', '-'].isPrefixOf argument then .error (.noSuchOption name)
      else readShort [] (argument.drop 1)

/-- Arguments that were read. -/
structure Arguments where
  /-- what is given to parameters, in order -/
  gifts : List Gift := []
  /-- arguments that no option takes -/
  extra : List String := []

/-- Arguments with more gifts before them. -/
def Arguments.behind (gifts : List Gift) (rest : Arguments) : Arguments :=
  { rest with gifts := gifts ++ rest.gifts }

/-- Whether an argument names options. -/
def isOption (argument : String) : Bool :=
  match argument.toList with
  | '-' :: _ :: _ => true
  | _ => false

/-- Read arguments. -/
def readArguments : List String → Except UsageError Arguments
  | [] => .ok {}
  | argument :: rest =>
      if argument = "--" then .ok { extra := rest }
      else if isOption argument then
        match readOption argument.toList with
        | .error e => .error e
        | .ok (.complete gifts) => (readArguments rest).map (.behind gifts)
        | .ok (.wantsValue gifts parameter name) =>
            match rest with
            | [] => .error (.valueRequired name)
            | value :: rest =>
                (readArguments rest).map (.behind (gifts ++ [(parameter, .text value)]))
      else (readArguments rest).map fun others => { others with extra := argument :: others.extra }

end EditionSurvey.Command
