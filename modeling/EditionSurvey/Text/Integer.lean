/-
  Text/Integer.lean --- reading a whole number that a person typed.

  A number has blanks around it, at most one sign, and digits of any script; a single
  underscore may stand between two digits.  At most 4300 digits are read.
-/
import EditionSurvey.Text.Marks

set_option autoImplicit false

namespace EditionSurvey.Text

/-- Blanks outside ASCII. -/
def wideBlanks : CodePoints :=
  [(0x85, 0x85), (0xA0, 0xA0), (0x1680, 0x1680), (0x2000, 0x200A), (0x2028, 0x2029),
   (0x202F, 0x202F), (0x205F, 0x205F), (0x3000, 0x3000)]

/-- A blank that may stand around a number: the six ASCII ones and the wide ones. -/
def isNumberBlank (c : Char) : Bool :=
  let n := c.toNat
  n = 0x20 || (0x09 ≤ n && n ≤ 0x0D) || wideBlanks.contains n

/-- The value of a decimal digit of any script. -/
def digitValue? (c : Char) : Option Nat :=
  let n := c.toNat
  if n < 0x80 then
    if 0x30 ≤ n && n ≤ 0x39 then some (n - 0x30) else none
  else
    (decimalDigits.find? fun run => run.1 ≤ n && n ≤ run.2).map fun run => (n - run.1) % 10

/-- The largest number of digits that is read. -/
def digitLimit : Nat := 4300

/-- Read digits with single underscores between them.  `after` tells whether a digit stands
right before, so that an underscore may follow; `value` and `count` are what was read. -/
def readDigits? : List Char → (after : Bool) → (value count : Nat) → Option Nat
  | [], after, value, count => if after && count ≤ digitLimit then some value else none
  | c :: rest, after, value, count =>
      if c = '_' then
        if after then readDigits? rest false value count else none
      else
        match digitValue? c with
        | some d => readDigits? rest true (value * 10 + d) (count + 1)
        | none => none

/-- Remove blanks at both ends. -/
def trimBlanks (cs : List Char) : List Char :=
  ((cs.dropWhile isNumberBlank).reverse.dropWhile isNumberBlank).reverse

/-- Read a whole number. -/
def readInteger? (cs : List Char) : Option Int :=
  match trimBlanks cs with
  | '+' :: digits => (readDigits? digits false 0 0).map Int.ofNat
  | '-' :: digits => (readDigits? digits false 0 0).map fun n => -Int.ofNat n
  | digits => (readDigits? digits false 0 0).map Int.ofNat

example : readInteger? " -1_0 ".toList = some (-10) := by decide
example : readInteger? "1__0".toList = none := by decide
example : readInteger? "５".toList = some 5 := by decide

end EditionSurvey.Text
