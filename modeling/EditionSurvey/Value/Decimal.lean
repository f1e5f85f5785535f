/-
  Value/Decimal.lean --- decimal numbers as they are written.

  A number is a mantissa and a power of ten.  A whole number is written by its digits.  Any
  other one is written with the digits that it was given with: positionally down to
  one ten-thousandth, below that with an exponent of at least two digits.
-/

set_option autoImplicit false

namespace EditionSurvey

/-- The number `mantissa * 10 ^ exponent`. -/
structure Decimal where
  /-- the digits, with sign -/
  mantissa : Int
  /-- the power of ten -/
  exponent : Int
  deriving DecidableEq, Repr, Inhabited

namespace Decimal

/-- A whole number. -/
def ofInt (n : Int) : Decimal := ⟨n, 0⟩

/-- A power of ten. -/
def tenTo (exponent : Nat) : Int := Int.pow 10 exponent

/-- The number as a whole number, if it is one. -/
def toInt? (d : Decimal) : Option Int :=
  match d.exponent with
  | .ofNat e => some (d.mantissa * tenTo e)
  | .negSucc e =>
      if d.mantissa % tenTo (e + 1) = 0 then some (d.mantissa / tenTo (e + 1)) else none

/-- The whole part: the fraction is cut off, toward zero. -/
def truncate (d : Decimal) : Int :=
  match d.exponent with
  | .ofNat e => d.mantissa * tenTo e
  | .negSucc e => d.mantissa.tdiv (tenTo (e + 1))

/-- Remove the zeros at the end of a list of digits, and count them. -/
def withoutFinalZeros (digits : List Char) : List Char × Nat :=
  let kept := (digits.reverse.dropWhile (· = '0')).reverse
  (kept, digits.length - kept.length)

/-- An exponent of ten with its sign and at least two digits. -/
def exponentText (n : Int) : String :=
  let digits := ToString.toString n.natAbs
  let padded := if digits.length < 2 then "0" ++ digits else digits
  (if n < 0 then "e-" else "e+") ++ padded

/-- Write digits whose value is `0.digits * 10 ^ point`. -/
def digitsText (digits : List Char) (point : Int) : String :=
  if point ≤ -4 ∨ 16 < point then
    let fraction := if digits.length ≤ 1 then [] else '.' :: digits.drop 1
    String.ofList (digits.take 1 ++ fraction) ++ exponentText (point - 1)
  else if point ≤ 0 then
    "0." ++ String.ofList (List.replicate point.natAbs '0' ++ digits)
  else
    String.ofList (digits.take point.toNat ++ '.' :: digits.drop point.toNat)

/-- The text of a number. -/
def text (d : Decimal) : String :=
  match d.toInt? with
  | some n => ToString.toString n
  | none =>
      let (digits, dropped) := withoutFinalZeros (Nat.toDigits 10 d.mantissa.natAbs)
      let sign := if d.mantissa < 0 then "-" else ""
      sign ++ digitsText digits (digits.length + dropped + d.exponent)

example : (⟨-5, -1⟩ : Decimal).text = "-0.5" := by cbv
example : (⟨15, -8⟩ : Decimal).text = "1.5e-07" := by cbv
example : (⟨50, -1⟩ : Decimal).text = "5" := by cbv

end Decimal

end EditionSurvey
