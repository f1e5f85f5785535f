/-
  Yaml/Ambiguous.lean --- texts that YAML reads as something else when they are not quoted.

  Without quotes a truth value, a number, a time, a null or one of two marks would be read.
  Numbers may have underscores, and groups of up to 59 behind colons.
-/
import EditionSurvey.Text.Cut

set_option autoImplicit false

namespace EditionSurvey.Yaml

/-- Words for truth values and for nothing, and marks. -/
def reservedWords : List String :=
  ["yes", "Yes", "YES", "no", "No", "NO", "true", "True", "TRUE", "false", "False", "FALSE",
    "on", "On", "ON", "off", "Off", "OFF", "~", "null", "Null", "NULL", "", "=", "<<"]

/-- A digit or an underscore. -/
def isDigitOrLine (c : Char) : Bool := c.isDigit || c = '_'

/-- A text without its sign. -/
def withoutSign : List Char → List Char
  | '-' :: rest => rest
  | '+' :: rest => rest
  | cs => cs

/-- Digits and underscores, with a digit first. -/
def isRun : List Char → Bool
  | c :: rest => c.isDigit && rest.all isDigitOrLine
  | [] => false

/-- Digits and underscores, with a digit other than zero first. -/
def isLeadingRun : List Char → Bool
  | c :: rest => c.isDigit && c ≠ '0' && rest.all isDigitOrLine
  | [] => false

/-- A number below sixty, in one digit or two. -/
def isSixtieth : List Char → Bool
  | [a] => a.isDigit
  | [a, b] => '0' ≤ a && a ≤ '5' && b.isDigit
  | _ => false

/-- One or more characters of a class. -/
def isMany (inClass : Char → Bool) (cs : List Char) : Bool := !cs.isEmpty && cs.all inClass

/-- A hexadecimal digit or an underscore. -/
def isHexOrLine (c : Char) : Bool :=
  isDigitOrLine c || ('a' ≤ c && c ≤ 'f') || ('A' ≤ c && c ≤ 'F')

/-- Groups of up to 59 behind a first group. -/
def isGrouped (first : List Char → Bool) (cs : List Char) : Bool :=
  match Text.cutAt ':' cs with
  | head :: group :: groups => first head && (group :: groups).all isSixtieth
  | _ => false

/-- A whole number. -/
def isInteger (cs : List Char) : Bool :=
  let digits := withoutSign cs
  (match digits with
    | ['0'] => true
    | '0' :: 'b' :: rest => isMany (fun c => c = '0' || c = '1' || c = '_') rest
    | '0' :: 'x' :: rest => isMany isHexOrLine rest
    | '0' :: rest => isMany (fun c => ('0' ≤ c && c ≤ '7') || c = '_') rest
    | _ => isLeadingRun digits) ||
    isGrouped isLeadingRun digits

/-- Nothing, or an exponent with its sign. -/
def isExponentOrEmpty : List Char → Bool
  | [] => true
  | e :: sign :: digits =>
      (e = 'e' || e = 'E') && (sign = '-' || sign = '+') && isMany Char.isDigit digits
  | _ => false

/-- A number with a point between digits. -/
def isPointed (cs : List Char) : Bool :=
  match (withoutSign cs).span (· ≠ '.') with
  | (whole, '.' :: rest) =>
      (isRun whole && isExponentOrEmpty (rest.dropWhile isDigitOrLine)) ||
        (isGrouped isRun whole && rest.all isDigitOrLine)
  | _ => false

/-- A number that starts with a point. -/
def isFraction : List Char → Bool
  | '.' :: d :: rest => d.isDigit && isExponentOrEmpty (rest.dropWhile isDigitOrLine)
  | _ => false

/-- A number that is no whole number, or one of the words for such. -/
def isFloat (cs : List Char) : Bool :=
  isPointed cs || isFraction cs ||
    [".inf", ".Inf", ".INF"].contains (String.ofList (withoutSign cs)) ||
    [".nan", ".NaN", ".NAN"].contains (String.ofList cs)

/-! ## Times -/

/-- What is left behind `least` to `most` digits. -/
def behindDigits? : (least most : Nat) → List Char → Option (List Char)
  | least, most + 1, c :: rest =>
      if c.isDigit then behindDigits? (least - 1) most rest
      else if least = 0 then some (c :: rest) else none
  | 0, _, cs => some cs
  | _ + 1, _, _ => none

/-- What is left behind a character. -/
def behindChar? (c : Char) : List Char → Option (List Char)
  | d :: rest => if d = c then some rest else none
  | [] => none

/-- A blank or a tab. -/
def isGap (c : Char) : Bool := c = ' ' || c = '\t'

/-- What is left behind the mark between a day and a time. -/
def behindDay? : List Char → Option (List Char)
  | 'T' :: rest => some rest
  | 't' :: rest => some rest
  | c :: rest => if isGap c then some (rest.dropWhile isGap) else none
  | [] => none

/-- A time zone, without the blanks before it. -/
def isZone : List Char → Bool
  | ['Z'] => true
  | sign :: rest =>
      (sign = '-' || sign = '+') &&
        (match behindDigits? 1 2 rest with
          | some [] => true
          | some (':' :: minutes) => behindDigits? 2 2 minutes = some []
          | _ => false)
  | [] => false

/-- Nothing, or a time zone. -/
def isZoneOrEmpty (cs : List Char) : Bool := cs.isEmpty || isZone (cs.dropWhile isGap)

/-- What is left behind a fraction of a second, if there is one. -/
def behindFraction : List Char → List Char
  | '.' :: rest => rest.dropWhile Char.isDigit
  | cs => cs

/-- A day in ten characters. -/
def isDay (cs : List Char) : Bool :=
  ((((behindDigits? 4 4 cs).bind (behindChar? '-')).bind (behindDigits? 2 2)).bind
    (behindChar? '-')).bind (behindDigits? 2 2) = some []

/-- A day with a time. -/
def isMoment (cs : List Char) : Bool :=
  let rest := do
    let month ← behindChar? '-' (← behindDigits? 4 4 cs)
    let day ← behindChar? '-' (← behindDigits? 1 2 month)
    let hour ← behindDay? (← behindDigits? 1 2 day)
    let minute ← behindChar? ':' (← behindDigits? 1 2 hour)
    let second ← behindChar? ':' (← behindDigits? 2 2 minute)
    behindDigits? 2 2 second
  match rest with
  | some left => isZoneOrEmpty (behindFraction left)
  | none => false

/-- A text that would not be read as a text. -/
def isAmbiguous (cs : List Char) : Bool :=
  reservedWords.contains (String.ofList cs) || isInteger cs || isFloat cs || isDay cs ||
    isMoment cs

end EditionSurvey.Yaml
