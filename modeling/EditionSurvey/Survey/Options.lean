/-
  Survey/Options.lean --- what a survey is asked for.
-/
import EditionSurvey.Diagnostic
import EditionSurvey.Edition
import EditionSurvey.Value.Field
import EditionSurvey.Value.Shown

set_option autoImplicit false

namespace EditionSurvey

/-- What a survey is asked for. -/
structure Options where
  /-- the edition that scripts have to conform to -/
  edition : Int := 5
  /-- the package to start with: a dot, a directory or a name -/
  packageName : String := "."
  /-- where packages are searched from -/
  resolvePath : Path := {}
  /-- whether a line is printed for each package -/
  showTree : Bool := true
  /-- whether reasons are shown -/
  showError : Bool := false
  /-- whether what users have to bring along is looked at too -/
  includePeer : Bool := true
  deriving DecidableEq, Repr, Inhabited

/-- The name of the edition that scripts have to conform to. -/
def Options.label (options : Options) : String := EditionSurvey.label options.edition

/-- The whole part of a value, if it has one. -/
def Value.wholePart? : Value → Option Int
  | .bool b => some (if b then 1 else 0)
  | .number n => some n.truncate
  | .string s => Text.readInteger? s.toList
  | _ => none

/-- The edition that a value names by number or year, or the message that none is. -/
def editionOfValue (value : Value) : Except String Int :=
  match value.wholePart?.bind normalize? with
  | some edition => .ok edition
  | none => .error (unsupportedEdition value.shown)

/-- Read the number or year of an edition. -/
def readEdition (value : Value) : Except Mismatch Int :=
  match readInt value with
  | .error mismatch => .error mismatch
  | .ok n => (editionOfValue (.int n)).mapError .refused

/-- The options that named values give, or all faults of the values. -/
def Options.ofMembers (members : List (String × Value)) : Except (List FieldFault) Options :=
  let edition := fieldOr members "es_version" 5 readEdition
  let packageName := fieldOr members "package_name" "." readString
  let resolvePath := fieldOr members "resolve_path" {} readPath
  let showTree := fieldOr members "show_tree" true readBool
  let showError := fieldOr members "show_error" false readBool
  let includePeer := fieldOr members "include_peer" true readBool
  match edition, packageName, resolvePath, showTree, showError, includePeer with
  | .ok edition, .ok packageName, .ok resolvePath, .ok showTree, .ok showError, .ok includePeer =>
      .ok { edition, packageName, resolvePath, showTree, showError, includePeer }
  | _, _, _, _, _, _ =>
      .error (faultOf edition ++ faultOf packageName ++ faultOf resolvePath ++
        faultOf showTree ++ faultOf showError ++ faultOf includePeer)

/-- The diagnostic that named values give, or all faults of the values. -/
def Diagnostic.ofMembers (members : List (String × Value)) : Except (List FieldFault) Diagnostic :=
  let message := requiredField members "message" readString
  let line := fieldOr members "line" none readOptionalInt
  let column := fieldOr members "column" none readOptionalInt
  match message, line, column with
  | .ok message, .ok line, .ok column => .ok { message, line, column }
  | _, _, _ => .error (faultOf message ++ faultOf line ++ faultOf column)

end EditionSurvey
