/-
  Script/Character.lean --- the character classes of script source text: blanks, line
  terminators, the characters of identifiers, and digits.
-/
import EditionSurvey.Text.Letters
import EditionSurvey.Text.Marks

set_option autoImplicit false

namespace EditionSurvey.Script

open EditionSurvey.Text

/-- Blanks within a line: tab, vertical tab, form feed, space, no-break space, the byte
order mark, the Mongolian vowel separator and the space separators. -/
def isWhiteSpace (c : Char) : Bool :=
  let n := c.toNat
  n = 0x20 || n = 0x09 || n = 0x0B || n = 0x0C || n = 0xA0 ||
    (0x1680 ≤ n &&
      (n = 0x1680 || n = 0x180E || (0x2000 ≤ n && n ≤ 0x200A) || n = 0x202F ||
        n = 0x205F || n = 0x3000 || n = 0xFEFF))

/-- The four characters that end a line: line feed, carriage return, line separator and
paragraph separator. -/
def isLineTerminator (c : Char) : Bool :=
  c = '\n' || c = '\r' || c = '\u2028' || c = '\u2029'

/-- A decimal digit; source numbers know the ASCII digits only. -/
def isDecimalDigit (c : Char) : Bool := '0' ≤ c && c ≤ '9'

/-- An octal digit. -/
def isOctalDigit (c : Char) : Bool := '0' ≤ c && c ≤ '7'

/-- The value of a hexadecimal digit, of either case. -/
def hexValue? (c : Char) : Option Nat :=
  if '0' ≤ c && c ≤ '9' then some (c.toNat - '0'.toNat)
  else if 'a' ≤ c && c ≤ 'f' then some (c.toNat - 'a'.toNat + 10)
  else if 'A' ≤ c && c ≤ 'F' then some (c.toNat - 'A'.toNat + 10)
  else none

/-- A hexadecimal digit. -/
def isHexDigit (c : Char) : Bool := (hexValue? c).isSome

/-- An ASCII letter. -/
def isAsciiLetter (c : Char) : Bool := ('a' ≤ c && c ≤ 'z') || ('A' ≤ c && c ≤ 'Z')

/-- The code points that start an identifier although they are no letters. -/
def extraIdentifierStarts : CodePoints :=
  [(0x1885, 0x1886), (0x2118, 0x2118), (0x212E, 0x212E), (0x309B, 0x309C)]

/-- The code points that continue an identifier although their category does not say so:
the middle dots, the Ethiopic digits, the New Tai Lue digit, and the two joiners. -/
def extraIdentifierParts : CodePoints :=
  [(0xB7, 0xB7), (0x387, 0x387), (0x1369, 0x1371), (0x19DA, 0x19DA), (0x200C, 0x200D)]

/-- A code point that starts an identifier.  The backslash counts, because it opens an
escaped character. -/
def isIdentifierStartPoint (n : Nat) : Bool :=
  if n < 0x80 then
    (0x61 ≤ n && n ≤ 0x7A) || (0x41 ≤ n && n ≤ 0x5A) || n = 0x24 || n = 0x5F || n = 0x5C
  else letters.contains n || extraIdentifierStarts.contains n

/-- A code point that continues an identifier. -/
def isIdentifierPartPoint (n : Nat) : Bool :=
  isIdentifierStartPoint n ||
    if n < 0x80 then 0x30 ≤ n && n ≤ 0x39
    else combiningMarks.contains n || decimalDigits.contains n || connectors.contains n ||
      extraIdentifierParts.contains n

/-- A character that starts an identifier. -/
def isIdentifierStart (c : Char) : Bool := isIdentifierStartPoint c.toNat

/-- A character that continues an identifier. -/
def isIdentifierPart (c : Char) : Bool := isIdentifierPartPoint c.toNat

theorem isLineTerminator_iff (c : Char) :
    isLineTerminator c = true ↔ c = '\n' ∨ c = '\r' ∨ c = '\u2028' ∨ c = '\u2029' := by
  simp [isLineTerminator, or_assoc]

end EditionSurvey.Script
