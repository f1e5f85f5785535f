/-
  Script/Grammar/Program.lean --- whole scripts.

  Productions nest by levels: the productions of a level read the inside of a construct
  with those of the level below, and the lowest level gives up.  So a script is read by
  structural recursion on the level, and one that nests too deep is given up rather than
  judged.
-/
import EditionSurvey.Script.Grammar.Statement

set_option autoImplicit false

namespace EditionSurvey.Script

namespace Grammar

/-- The productions one level up. -/
def Productions.above (g : Productions) : Productions where
  assignment := Grammar.assignment g
  unary := Grammar.unary g
  power := Grammar.power g
  callee := Grammar.callee g
  operand := Grammar.operand g
  binding := Grammar.binding g
  statement := Grammar.statement g
  item := Grammar.item g

/-- The productions with that many levels below them. -/
def productions : (levels : Nat) → Productions
  | 0 => .none
  | levels + 1 => (productions levels).above

/-- The number of levels that a script may nest. -/
def levelLimit : Nat := 200

/-- A script. -/
def program (g : Productions) : Parse Node := do
  let start ← here
  let prologue ← directivePrologue g
  let items ← many do
    if ← seesEnd then return none
    return some (← g.item)
  node start .program (prologue ++ items)

/-- The state before the first token. -/
def State.start (source : List Char) : State :=
  let scanner := Scanner.start source
  let nothing := scanner.cursor.token scanner.cursor .endOfSource
  { scanner
    ahead := nothing
    lineBreak := false
    aheadStart := scanner.cursor
    behind := Mark.ofCursor scanner.cursor
    context := {} }

/-- Read the first token; the script starts behind it. -/
def openSource : Parse Unit := do
  let _ ← advance
  modify fun s => { s with behind := Mark.ofCursor s.scanner.cursor, read := [] }

end Grammar

open Grammar in
/-- Read a whole script. -/
def readSource (source : List Char) : Except Interruption (Node × State) :=
  (openSource *> program (productions levelLimit)).run (State.start source)

open Grammar in
/-- The syntax tree of a script. -/
def parse (source : List Char) : Except Interruption Node :=
  match readSource source with
  | .ok (tree, _) => .ok tree
  | .error interruption => .error interruption

/-- The tokens of a script from first to last, as they are read for its tree.  A script without a
tree has none. -/
def tokens (source : List Char) : List Token :=
  match readSource source with
  | .ok (_, s) => s.read.reverse
  | .error _ => []

end EditionSurvey.Script
