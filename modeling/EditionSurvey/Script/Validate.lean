/-
  Script/Validate.lean --- whether a script conforms to an edition.

  A script is parsed first, which does not depend on the edition, and then searched for
  the first construct that the edition does not have.  A first line that names an
  interpreter is no part of the script.
-/
import EditionSurvey.Script.Gate
import EditionSurvey.Script.Grammar.Program

set_option autoImplicit false

namespace EditionSurvey.Script

/-- Why a script is not accepted. -/
inductive Refusal where
  /-- it does not conform, for the reason given -/
  | incompatible (diagnostic : Diagnostic)
  /-- it nests too deep to be judged -/
  | nestsTooDeeply
  /-- a template without a head stands where an expression starts; no verdict is given -/
  | templateWithoutHead
  deriving DecidableEq, Repr

/-- A first line that starts with `#!` becomes a comment; offsets and lines stay. -/
def commentInterpreterLine : List Char → List Char
  | '#' :: '!' :: rest => '/' :: '/' :: rest
  | source => source

/-- The diagnostic of a script that does not parse. -/
def SyntaxError.diagnostic (e : SyntaxError) : Diagnostic :=
  { message := e.message, line := some e.line, column := some e.column }

/-- Why a script without tree is not accepted. -/
def Refusal.ofInterruption : Grammar.Interruption → Refusal
  | .syntaxError error => .incompatible error.diagnostic
  | .nestsTooDeeply => .nestsTooDeeply
  | .templateWithoutHead => .templateWithoutHead

/-- Judge a tree by an edition. -/
def checkTree (source : Array Char) (edition : Int) (tree : Node) : Except Refusal Unit :=
  match search source edition [tree] with
  | some finding => .error (.incompatible finding.diagnostic)
  | none => .ok ()

/-- Judge a script by an edition. -/
def validate (source : String) (edition : Int) : Except Refusal Unit :=
  let text := commentInterpreterLine source.toList
  match parse text with
  | .error interruption => .error (.ofInterruption interruption)
  | .ok tree => checkTree text.toArray edition tree

end EditionSurvey.Script
