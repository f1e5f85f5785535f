/-
  Package/Fault.lean --- what can go wrong with files, and what ends a run.

  A file that cannot be had is an expected failure, and a survey goes on.  A `Fault` is
  not expected anywhere and ends the run that meets it.
-/
import EditionSurvey.Package.Path
import EditionSurvey.Text.Utf8

set_option autoImplicit false

namespace EditionSurvey

/-- Why a file or directory cannot be had. -/
inductive FileFailure where
  /-- there is nothing at the path -/
  | missing
  /-- the path goes through something that is no directory -/
  | notADirectory
  /-- it is a directory -/
  | isADirectory
  /-- a name on the path is too long -/
  | nameTooLong
  deriving DecidableEq, Repr, Inhabited

/-- The description of a file failure. -/
def FileFailure.text : FileFailure → String
  | .missing => "No such file or directory"
  | .notADirectory => "Not a directory"
  | .isADirectory => "Is a directory"
  | .nameTooLong => "File name too long"

/-- What ends a run. -/
inductive Fault where
  /-- a file or directory that had to be there cannot be had -/
  | file (failure : FileFailure)
  /-- a path holds the character zero -/
  | zeroInPath
  /-- a path that has no name was to be extended -/
  | emptyName (path : Path)
  /-- a manifest is no well-formed text -/
  | undecodable (fault : Text.Utf8Fault)
  /-- a manifest holds a whole number with too many digits -/
  | numberTooLong (digits : Nat)
  /-- a whole number with too many digits was to be written -/
  | numberUnwritable
  /-- a manifest nests too deep -/
  | nestsTooDeep
  /-- a script has a template without a head where an expression starts -/
  | templateWithoutHead
  /-- a walk took more steps than it was given -/
  | unfinished
  deriving DecidableEq, Repr

/-- A fault as a sentence. -/
def Fault.message : Fault → String
  | .file failure => failure.text
  | .zeroInPath => "embedded null byte"
  | .emptyName path => s!"PosixPath('{path}') has an empty name"
  | .undecodable fault => fault.message
  | .numberTooLong digits =>
      s!"Exceeds the limit (4300 digits) for integer string conversion: value has {digits} digits; use sys.set_int_max_str_digits() to increase the limit"
  | .numberUnwritable =>
      "Exceeds the limit (4300 digits) for integer string conversion; use sys.set_int_max_str_digits() to increase the limit"
  | .nestsTooDeep => "maximum recursion depth exceeded"
  | .templateWithoutHead => "Template literal must start with a template head"
  | .unfinished => "the walk was not finished"

end EditionSurvey
