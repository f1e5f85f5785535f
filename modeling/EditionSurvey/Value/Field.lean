/-
  Value/Field.lean --- reading the fields of a record from values.

  A field has a type.  Numbers and truth values are read leniently: a whole number may be
  given as a text or as a truth value, a truth value as a word or as 0 or 1.  Texts and
  paths are taken as they are.  All faults of a record are reported, field by field in the
  order in which the record declares them.
-/
import EditionSurvey.Value.Basic
import EditionSurvey.Text.Integer
import EditionSurvey.Package.Path

set_option autoImplicit false

namespace EditionSurvey

/-- What is wrong with the value of a field. -/
inductive Mismatch where
  /-- there is none -/
  | missing
  /-- it is no text -/
  | notString
  /-- it is no whole number -/
  | notInteger
  /-- it is a text that writes no whole number -/
  | notIntegerText
  /-- it is a number with a fraction -/
  | fractional
  /-- it is no truth value -/
  | notBool
  /-- it is a text or number that means no truth value -/
  | notBoolText
  /-- it is no path -/
  | notPath
  /-- it has the right type and is refused for the reason given -/
  | refused (reason : String)
  deriving DecidableEq, Repr

/-- The short name of a mismatch. -/
def Mismatch.code : Mismatch → String
  | .missing => "missing"
  | .notString => "string_type"
  | .notInteger => "int_type"
  | .notIntegerText => "int_parsing"
  | .fractional => "int_from_float"
  | .notBool => "bool_type"
  | .notBoolText => "bool_parsing"
  | .notPath => "path_type"
  | .refused _ => "value_error"

/-- A mismatch as a sentence. -/
def Mismatch.message : Mismatch → String
  | .missing => "Field required"
  | .notString => "Input should be a valid string"
  | .notInteger => "Input should be a valid integer"
  | .notIntegerText =>
      "Input should be a valid integer, unable to parse string as an integer"
  | .fractional =>
      "Input should be a valid integer, got a number with a fractional part"
  | .notBool => "Input should be a valid boolean"
  | .notBoolText => "Input should be a valid boolean, unable to interpret input"
  | .notPath => "Input is not a valid path for <class 'pathlib.Path'>"
  | .refused reason => "Value error, " ++ reason

/-- A field whose value does not fit. -/
structure FieldFault where
  /-- the field -/
  field : String
  /-- what is wrong with its value -/
  mismatch : Mismatch
  deriving DecidableEq, Repr

/-! ## Types -/

/-- Digits with single underscores between them; `after` tells whether a digit stands right
before. -/
def readPlainDigits? : List Char → (after : Bool) → (value : Nat) → Option Nat
  | [], after, value => if after then some value else none
  | '_' :: rest, after, value => if after then readPlainDigits? rest false value else none
  | c :: rest, _, value =>
      if c.isDigit then readPlainDigits? rest true (value * 10 + (c.toNat - 48)) else none

/-- Remove a fraction that has zeros only. -/
def withoutZeroFraction (cs : List Char) : List Char :=
  match cs.span (· ≠ '.') with
  | (whole, _ :: fraction) => if fraction.all (· = '0') then whole else cs
  | (whole, []) => whole

/-- The whole number that a text writes. -/
def readIntegerField? (text : String) : Option Int :=
  match withoutZeroFraction (Text.trimBlanks text.toList) with
  | '-' :: digits => (readPlainDigits? digits false 0).map fun n => -Int.ofNat n
  | '+' :: digits => (readPlainDigits? digits false 0).map Int.ofNat
  | digits => (readPlainDigits? digits false 0).map Int.ofNat

/-- Read a whole number. -/
def readInt : Value → Except Mismatch Int
  | .bool b => .ok (if b then 1 else 0)
  | .number n =>
      match n.toInt? with
      | some i => .ok i
      | none => .error .fractional
  | .string s =>
      match readIntegerField? s with
      | some i => .ok i
      | none => .error .notIntegerText
  | _ => .error .notInteger

/-- Read a whole number that may be absent. -/
def readOptionalInt : Value → Except Mismatch (Option Int)
  | .null => .ok none
  | v => (readInt v).map some

/-- The words for false. -/
def falseWords : List String := ["0", "off", "f", "false", "n", "no"]

/-- The words for true. -/
def trueWords : List String := ["1", "on", "t", "true", "y", "yes"]

/-- Read a truth value. -/
def readBool : Value → Except Mismatch Bool
  | .bool b => .ok b
  | .number n =>
      match n.toInt? with
      | some 0 => .ok false
      | some 1 => .ok true
      | some _ => .error .notBoolText
      | none => .error .notBool
  | .string s =>
      if falseWords.contains s.toLower then .ok false
      else if trueWords.contains s.toLower then .ok true
      else .error .notBoolText
  | _ => .error .notBool

/-- Read a text. -/
def readString : Value → Except Mismatch String
  | .string s => .ok s
  | _ => .error .notString

/-- Read a path. -/
def readPath : Value → Except Mismatch Path
  | .string s => .ok (.ofString s)
  | _ => .error .notPath

/-! ## Fields -/

/-- The value of a field, or its fault. -/
abbrev FieldResult (α : Type) := Except FieldFault α

/-- Read a field that must be there. -/
def requiredField {α : Type} (members : List (String × Value)) (field : String)
    (read : Value → Except Mismatch α) : FieldResult α :=
  match members.lookup field with
  | some v => (read v).mapError (⟨field, ·⟩)
  | none => .error ⟨field, .missing⟩

/-- Read a field that has a default. -/
def fieldOr {α : Type} (members : List (String × Value)) (field : String) (default : α)
    (read : Value → Except Mismatch α) : FieldResult α :=
  match members.lookup field with
  | some v => (read v).mapError (⟨field, ·⟩)
  | none => .ok default

/-- The fault of a field, if any, as a list. -/
def faultOf {α : Type} : FieldResult α → List FieldFault
  | .ok _ => []
  | .error fault => [fault]

example : readIntegerField? " 2_015 " = some 2015 := by decide +kernel
example : readIntegerField? "5.0" = some 5 := by decide +kernel
example : readIntegerField? "1__0" = none := by decide +kernel

end EditionSurvey
