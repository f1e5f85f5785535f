/-
  Value/Printer.lean --- writing a value to a data file.

  Every item and member stands on a line of its own, two blanks deeper than its list or
  object.  Texts are written as they are, except for quotes, backslashes and control
  characters.
-/
import EditionSurvey.Value.Shown

set_option autoImplicit false

namespace EditionSurvey

/-- How many digits a whole number has. -/
def digitCount (n : Int) : Nat := (Nat.toDigits 10 n.natAbs).length

/-- A character inside quotes. -/
def printedChar (c : Char) : List Char :=
  if c = '"' then ['\\', '"']
  else if c = '\\' then ['\\', '\\']
  else if c = '\n' then ['\\', 'n']
  else if c = '\r' then ['\\', 'r']
  else if c = '\t' then ['\\', 't']
  else if c = '\x08' then ['\\', 'b']
  else if c = '\x0c' then ['\\', 'f']
  else if c.toNat ≤ 0x1F then '\\' :: 'u' :: hexText 4 c.toNat
  else [c]

/-- A text in quotes. -/
def printedText (s : String) : List Char := '"' :: (s.toList.flatMap printedChar ++ ['"'])

/-- A new line at a depth. -/
def newLine (depth : Nat) : List Char := '\n' :: List.replicate (2 * depth) ' '

mutual

/-- A value at a depth. -/
def Value.printed (depth : Nat) : Value → List Char
  | .null => "null".toList
  | .bool true => "true".toList
  | .bool false => "false".toList
  | .number n => n.text.toList
  | .notFinite "nan" => "NaN".toList
  | .notFinite "inf" => "Infinity".toList
  | .notFinite _ => "-Infinity".toList
  | .string s => printedText s
  | .list [] => ['[', ']']
  | .list (item :: rest) =>
      '[' :: (newLine (depth + 1) ++ item.printed (depth + 1) ++
        printedItems (depth + 1) rest ++ newLine depth ++ [']'])
  | .object [] => ['{', '}']
  | .object ((name, value) :: rest) =>
      '{' :: (newLine (depth + 1) ++ printedText name ++ [':', ' '] ++
        value.printed (depth + 1) ++ printedMembers (depth + 1) rest ++ newLine depth ++ ['}'])

/-- The items behind the first one. -/
def printedItems (depth : Nat) : List Value → List Char
  | [] => []
  | item :: rest => ',' :: (newLine depth ++ item.printed depth ++ printedItems depth rest)

/-- The members behind the first one. -/
def printedMembers (depth : Nat) : List (String × Value) → List Char
  | [] => []
  | (name, value) :: rest =>
      ',' :: (newLine depth ++ printedText name ++ [':', ' '] ++ value.printed depth ++
        printedMembers depth rest)

end

/-- A value as the text of a file. -/
def Value.toFile (value : Value) : String := String.ofList (value.printed 0)

end EditionSurvey
