/-
  Value/Shown.lean --- values as messages display them.

  A text stands in single quotes, in double quotes if it holds a single quote and no double
  one.  What cannot be printed is written by its number in hexadecimal.
-/
import EditionSurvey.Value.Basic
import EditionSurvey.Text.Unprintable

set_option autoImplicit false

namespace EditionSurvey

/-- A number in hexadecimal with at least `width` digits. -/
def hexText (width n : Nat) : List Char :=
  let digits := Nat.toDigits 16 n
  List.replicate (width - digits.length) '0' ++ digits

/-- A character by its number. -/
def numberedChar (c : Char) : List Char :=
  let n := c.toNat
  if n ≤ 0xFF then '\\' :: 'x' :: hexText 2 n
  else if n ≤ 0xFFFF then '\\' :: 'u' :: hexText 4 n
  else '\\' :: 'U' :: hexText 8 n

/-- A character between quotes. -/
def quotedChar (quote c : Char) : List Char :=
  if c = quote || c = '\\' then ['\\', c]
  else if c = '\t' then ['\\', 't']
  else if c = '\n' then ['\\', 'n']
  else if c = '\r' then ['\\', 'r']
  else if Text.unprintable.contains c.toNat then numberedChar c
  else [c]

/-- The quote that a text stands in. -/
def quoteFor (cs : List Char) : Char :=
  if cs.contains '\'' && !cs.contains '"' then '"' else '\''

/-- A text in quotes. -/
def shownString (s : String) : String :=
  let cs := s.toList
  let quote := quoteFor cs
  String.ofList (quote :: (cs.flatMap (quotedChar quote) ++ [quote]))

mutual

/-- A value as it is displayed. -/
def Value.shown : Value → String
  | .null => "None"
  | .bool true => "True"
  | .bool false => "False"
  | .number n => n.text
  | .notFinite name => name
  | .string s => shownString s
  | .list items => "[" ++ ", ".intercalate (shownItems items) ++ "]"
  | .object members => "\x7b" ++ ", ".intercalate (shownMembers members) ++ "\x7d"

/-- The items of a list as they are displayed. -/
def shownItems : List Value → List String
  | [] => []
  | v :: rest => v.shown :: shownItems rest

/-- The members of an object as they are displayed. -/
def shownMembers : List (String × Value) → List String
  | [] => []
  | (name, v) :: rest => (shownString name ++ ": " ++ v.shown) :: shownMembers rest

end

example : shownString "it's" = "\"it's\"" := by decide +kernel
example : shownString "\x7f\t" = "'\\x7f\\t'" := by decide +kernel

end EditionSurvey
