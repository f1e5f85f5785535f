/-
  Script/Grammar/State.lean --- what a production of the script grammar reads and
  changes, and the steps that every production is made of.

  A production is a `Parse`: it reads from the token ahead, keeps the context (strictness,
  what may stand here, the labels around), and ends with a value or an `Interruption`.
  A fault is reported in one of three ways, which differ in the place they give:
  at a token (`failAt`), behind the last token that was read (`failBehind`), and behind it
  on the line the scanner has reached (`failAhead`).
-/
import EditionSurvey.Script.Scanner
import EditionSurvey.Script.Tree

set_option autoImplicit false

namespace EditionSurvey.Script.Grammar

/-- Why a production ends without a value. -/
inductive Interruption where
  /-- the source is no sentence of the grammar -/
  | syntaxError (error : SyntaxError)
  /-- the source nests deeper than the productions go -/
  | nestsTooDeeply
  /-- a template that does not begin with a backtick stands where an expression starts -/
  | templateWithoutHead
  deriving DecidableEq, Repr, Inhabited

/-- A place at which a node starts or ends. -/
structure Mark where
  /-- offset in the source -/
  offset : Nat
  /-- line, from one -/
  line : Int
  /-- column, from zero -/
  column : Int
  deriving DecidableEq, Repr, Inhabited

/-- The place of a cursor. -/
def Mark.ofCursor (c : Cursor) : Mark :=
  { offset := c.offset, line := c.line, column := (c.offset : Int) - c.lineStart }

/-- The place at which a token starts.  A token that ends on a later line than it starts
has a negative column; it is then counted from the line start given, one line up. -/
def Mark.ofToken (t : Token) (lineStart : Nat) : Mark :=
  let column := (t.start : Int) - t.lineStart
  if column < 0 then
    { offset := t.start, line := t.line - 1, column := column + lineStart }
  else { offset := t.start, line := t.line, column }

/-- The surroundings of a production. -/
structure Context where
  /-- `in` is an operator -/
  allowIn : Bool := true
  /-- `yield` may be a name -/
  allowYield : Bool := true
  /-- `await` is an operator -/
  await : Bool := false
  /-- the code is strict -/
  strict : Bool := false
  /-- a directive may make the code strict -/
  allowStrictDirective : Bool := true
  /-- inside a function body -/
  inFunction : Bool := false
  /-- inside a loop -/
  inLoop : Bool := false
  /-- inside a switch -/
  inSwitch : Bool := false
  /-- labels of the statements around -/
  labels : List String := []
  /-- what was read may be assigned to -/
  isTarget : Bool := false
  /-- what was read may be bound as a parameter -/
  isBinding : Bool := false
  /-- the sign of a shorthand member with a default, which only a pattern may have -/
  pendingDefault : Option Token := none
  deriving DecidableEq, Repr, Inhabited

/-- What a production reads and changes. -/
structure State where
  /-- the scanner, behind the token ahead -/
  scanner : Scanner
  /-- the tokens that were read, last first -/
  read : List Token := []
  /-- the token ahead -/
  ahead : Token
  /-- whether the token ahead ends on another line than the one before it -/
  lineBreak : Bool
  /-- where the token ahead starts -/
  aheadStart : Cursor
  /-- behind the last token that was read -/
  behind : Mark
  /-- the surroundings -/
  context : Context
  deriving DecidableEq, Repr, Inhabited

/-- A production of the grammar. -/
abbrev Parse (α : Type) : Type := StateT State (Except Interruption) α

/-- End without a value. -/
def interrupt {α : Type} (i : Interruption) : Parse α := fun _ => .error i

/-- The surroundings. -/
def context : Parse Context := do return (← get).context

/-- Change the surroundings. -/
def modifyContext (f : Context → Context) : Parse Unit :=
  modify fun s => { s with context := f s.context }

/-- The token ahead. -/
def ahead : Parse Token := do return (← get).ahead

/-- Whether a line ends before the token ahead. -/
def lineBreak : Parse Bool := do return (← get).lineBreak

/-- Whether the code is strict. -/
def strict : Parse Bool := do return (← context).strict

/-! ## Faults -/

/-- What is wrong with a token that no production admits. -/
def faultOf (lexeme : Lexeme) (strict : Bool) : Fault :=
  match lexeme with
  | .endOfSource => .unexpectedEnd
  | .identifier _ => .unexpectedIdentifier
  | .number .. => .unexpectedNumber
  | .string .. => .unexpectedString
  | .template raw .. => .unexpectedQuasi raw
  | .keyword word =>
      if futureReservedWords.contains word then .unexpectedReserved
      else if strict && isStrictReserved word then .strictReservedWord
      else .unexpectedToken word
  | other => .unexpectedToken other.text

/-- Report a fault at a token: on its line, at its start, counted from the line start of
the last token that was read. -/
def failAt {α : Type} (t : Token) (fault : Fault) : Parse α := do
  let behind := (← get).behind
  let lineStart := (behind.offset : Int) - behind.column
  interrupt (.syntaxError { fault, line := t.line, column := t.start - lineStart + 1 })

/-- Report a fault behind the last token that was read. -/
def failBehind {α : Type} (fault : Fault) : Parse α := do
  let behind := (← get).behind
  interrupt (.syntaxError { fault, line := behind.line, column := behind.column + 1 })

/-- Report a fault behind the last token that was read, on the line of the scanner. -/
def failAhead {α : Type} (fault : Fault) : Parse α := do
  let s ← get
  interrupt (.syntaxError
    { fault, line := s.scanner.cursor.line, column := s.behind.column + 1 })

/-- Report a token that no production admits. -/
def unexpected {α : Type} (t : Token) : Parse α := do
  failAt t (faultOf t.lexeme (← strict))

/-! ## Tokens -/

/-- In strict code a name may turn out to be reserved. -/
def reserveStrict (strict : Bool) (t : Token) : Token :=
  match t.lexeme with
  | .identifier name =>
      if strict && isStrictReserved name then { t with lexeme := .keyword name } else t
  | _ => t

/-- Run a step of the scanner. -/
def scan {α : Type} (step : Except SyntaxError α) : Parse α :=
  match step with
  | .ok value => pure value
  | .error error => interrupt (.syntaxError error)

/-- Read the token ahead. -/
def advance : Parse Token := do
  let s ← get
  let cursor ← scan s.scanner.cursor.skipBlanks
  let (token, scanner) ← scan ({ s.scanner with cursor : Scanner }).lex
  set { s with
    scanner
    read := s.ahead :: s.read
    ahead := reserveStrict s.context.strict token
    lineBreak := s.ahead.line ≠ token.line
    aheadStart := cursor
    behind := Mark.ofCursor s.scanner.cursor }
  return s.ahead

/-- Read the token ahead again, as a regular expression. -/
def advancePattern : Parse Token := do
  let s ← get
  let (token, scanner) ← scan ({ s.scanner with cursor := s.aheadStart : Scanner }).pattern
  set { s with scanner, ahead := token }
  advance

/-- The token behind the token ahead, without reading any.  Braces that it opens or closes
stay opened or closed. -/
def peekBeyond : Parse Token := do
  let s ← get
  let (token, scanner) ← scan s.scanner.next
  set { s with scanner := { s.scanner with braces := scanner.braces } }
  return token

/-- Whether the token ahead is the punctuator. -/
def sees (mark : String) : Parse Bool := do
  match (← ahead).lexeme with
  | .punctuator other => return other == mark
  | _ => return false

/-- Whether the token ahead is the reserved word. -/
def seesKeyword (word : String) : Parse Bool := do
  match (← ahead).lexeme with
  | .keyword other => return other == word
  | _ => return false

/-- Whether the token ahead is the name. -/
def seesName (word : String) : Parse Bool := do return (← ahead).isNamed word

/-- Whether the token ahead is the end of the source. -/
def seesEnd : Parse Bool := do return (← ahead).lexeme = .endOfSource

/-- Read the punctuator. -/
def expect (mark : String) : Parse Unit := do
  let token ← advance
  if token.lexeme ≠ .punctuator mark then unexpected token

/-- Read the reserved word. -/
def expectKeyword (word : String) : Parse Unit := do
  let token ← advance
  if token.lexeme ≠ .keyword word then unexpected token

/-- Read the punctuator if it is ahead. -/
def accept (mark : String) : Parse Bool := do
  if ← sees mark then
    let _ ← advance
    return true
  else return false

/-- The operators that assign. -/
def assignmentOperators : List String :=
  ["=", "*=", "**=", "/=", "%=", "+=", "-=", "<<=", ">>=", ">>>=", "&=", "^=", "|="]

/-- Whether an assignment operator is ahead. -/
def seesAssignment : Parse Bool := do
  match (← ahead).lexeme with
  | .punctuator mark => return assignmentOperators.contains mark
  | _ => return false

/-- End a statement.  A semicolon may be left out at a line end, before a closing brace
and at the end of the source; on the same line the statement then ends where the next
token starts. -/
def endStatement : Parse Unit := do
  if ← accept ";" then return ()
  if ← lineBreak then return ()
  if !(← seesEnd) && !(← sees "\x7d") then unexpected (← ahead)
  modify fun s => { s with behind := Mark.ofCursor s.aheadStart }

/-! ## Nodes -/

/-- The place at which the token ahead starts. -/
def here : Parse Mark := do return Mark.ofCursor (← get).aheadStart

/-- A node from a place to the last token that was read. -/
def node (start : Mark) (form : Form) (parts : List Node) : Parse Node := do
  let stop := (← get).behind.offset
  let span : Span := { start := start.offset, stop, line := start.line, column := start.column }
  return .mk form .part (some span) parts

/-- A node that starts with a token that was ahead. -/
def nodeFrom (token : Token) (form : Form) (parts : List Node) : Parse Node :=
  node (Mark.ofToken token 0) form parts

/-! ## Cover grammars

An expression may turn out to be a pattern.  Productions keep three notes on this in the
context: whether what was read may be assigned to, whether it may be a parameter, and the
sign of a member default that only a pattern may have. -/

/-- Run a production whose result stands on its own: a pending default is a fault, and the
notes of the surroundings are kept. -/
def isolate {α : Type} (p : Parse α) : Parse α := do
  let outer ← context
  modifyContext fun c => { c with isBinding := true, isTarget := true, pendingDefault := none }
  let value ← p
  match (← context).pendingDefault with
  | some token => unexpected token
  | none => pure ()
  modifyContext fun c => { c with
    isBinding := outer.isBinding
    isTarget := outer.isTarget
    pendingDefault := outer.pendingDefault }
  return value

/-- Run a production whose result is part of the surroundings: the notes are combined. -/
def inherit {α : Type} (p : Parse α) : Parse α := do
  let outer ← context
  modifyContext fun c => { c with isBinding := true, isTarget := true, pendingDefault := none }
  let value ← p
  modifyContext fun c => { c with
    isBinding := c.isBinding && outer.isBinding
    isTarget := c.isTarget && outer.isTarget
    pendingDefault := outer.pendingDefault.or c.pendingDefault }
  return value

/-- Note that what was read is neither a place nor a parameter. -/
def notPattern : Parse Unit :=
  modifyContext fun c => { c with isTarget := false, isBinding := false }

/-- Note that what was read is a place, but no parameter. -/
def placeOnly : Parse Unit :=
  modifyContext fun c => { c with isTarget := true, isBinding := false }

/-- Run a production with `in` as an operator or not, and restore that. -/
def withIn {α : Type} (allowIn : Bool) (p : Parse α) : Parse α := do
  let outer := (← context).allowIn
  modifyContext fun c => { c with allowIn }
  let value ← p
  modifyContext fun c => { c with allowIn := outer }
  return value

/-- Run a production inside a loop, and restore that. -/
def withLoop {α : Type} (p : Parse α) : Parse α := do
  let outer := (← context).inLoop
  modifyContext fun c => { c with inLoop := true }
  let value ← p
  modifyContext fun c => { c with inLoop := outer }
  return value

/-! ## Repetition -/

/-- Run a step until it gives nothing; `reversed` are the values so far. -/
def repeatStep {α : Type} (step : Parse (Option α)) : (fuel : Nat) → List α → Parse (List α)
  | 0, _ => interrupt .nestsTooDeeply
  | fuel + 1, reversed => do
      match ← step with
      | none => return reversed.reverse
      | some value => repeatStep step fuel (value :: reversed)

/-- A bound on how often a step that reads a token can run. -/
def budget : Parse Nat := do return (← get).scanner.size + 2

/-- Run a step that reads at least one token until it gives nothing. -/
def many {α : Type} (step : Parse (Option α)) : Parse (List α) := do
  repeatStep step (← budget) []

/-! ## Productions of the level below -/

/-- The productions that may nest, for whatever stands inside a construct. -/
structure Productions where
  /-- an assignment, or anything that binds tighter -/
  assignment : Parse Node
  /-- an operand with its prefix operators -/
  unary : Parse Node
  /-- an operand with its powers -/
  power : Parse Node
  /-- the callee of `new` -/
  callee : Parse Node
  /-- an operand with its members and calls -/
  operand : Parse Node
  /-- a name or pattern that is bound, with the tokens of its names; the argument is the
  kind of declaration, if any -/
  binding : Option String → Parse (Node × List Token)
  /-- a statement -/
  statement : Parse Node
  /-- a statement or declaration -/
  item : Parse Node

instance : Inhabited Productions where
  default :=
    { assignment := interrupt .nestsTooDeeply
      unary := interrupt .nestsTooDeeply
      power := interrupt .nestsTooDeeply
      callee := interrupt .nestsTooDeeply
      operand := interrupt .nestsTooDeeply
      binding := fun _ => interrupt .nestsTooDeeply
      statement := interrupt .nestsTooDeeply
      item := interrupt .nestsTooDeeply }

/-- No production at all: whatever stands this deep is given up. -/
def Productions.none : Productions := default

/-- Expressions separated by commas. -/
def expression (g : Productions) : Parse Node := do
  let startToken ← ahead
  let first ← isolate g.assignment
  if !(← sees ",") then return first
  let rest ← many do
    if ← accept "," then return some (← isolate g.assignment) else return Option.none
  nodeFrom startToken .sequence (first :: rest)

/-- A name as it may stand behind a dot: any word. -/
def propertyWord : Parse Node := do
  let start ← here
  let token ← advance
  if !token.lexeme.isName then unexpected token
  node start (.identifier token.lexeme.text) []

end EditionSurvey.Script.Grammar
