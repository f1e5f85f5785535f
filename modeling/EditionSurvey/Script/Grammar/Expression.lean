/-
  Script/Grammar/Expression.lean --- operators, conditionals, assignments and arrow
  functions.
-/
import EditionSurvey.Script.Grammar.Primary

set_option autoImplicit false

namespace EditionSurvey.Script.Grammar

/-! ## Unary operators -/

/-- A step that is written before or behind its operand: the operand is a place, and in
strict code no restricted name. -/
def checkStepTarget (expr : Node) (fault : Fault) : Parse Unit := do
  if (← strict) && (expr.name?.map isRestricted).getD false then failAhead fault
  if !(← context).isTarget then failAhead .invalidAssignmentTarget

/-- An operand with a step before or behind it. -/
def stepped (g : Productions) : Parse Node := do
  let startToken ← ahead
  if ← seesAny ["++", "--"] then
    let token ← advance
    let expr ← inherit g.unary
    checkStepTarget expr .strictPrefix
    let result ← nodeFrom startToken (.update token.lexeme.text) [expr]
    notPattern
    return result
  else
    let expr ← inherit (operand g)
    if !(← lineBreak) && (← seesAny ["++", "--"]) then
      checkStepTarget expr .strictPostfix
      notPattern
      let token ← advance
      nodeFrom startToken (.update token.lexeme.text) [expr]
    else return expr

/-- Whether an operator that stands before its operand is ahead. -/
def seesPrefixOperator : Parse Bool := do
  match (← ahead).lexeme with
  | .punctuator mark => return ["+", "-", "~", "!"].contains mark
  | .keyword word => return ["delete", "void", "typeof"].contains word
  | _ => return false

/-- An operand with its prefix operators. -/
def unary (g : Productions) : Parse Node := do
  if ← seesPrefixOperator then
    let startToken ← ahead
    let token ← advance
    let operator := token.lexeme.text
    let expr ← inherit g.unary
    let result ← nodeFrom startToken (.unary operator) [expr]
    if (← strict) && operator == "delete" && expr.isIdentifier then failAhead .strictDelete
    notPattern
    return result
  else if (← context).await && (← seesName "await") then
    let start ← here
    let _ ← advance
    let expr ← g.unary
    node start .await [expr]
  else stepped g

/-! ## Binary operators -/

/-- An operand with its powers, which group to the right. -/
def power (g : Productions) : Parse Node := do
  let startToken ← ahead
  let base ← inherit (unary g)
  match base.form with
  | .unary _ => return base
  | _ =>
      if ← accept "**" then
        notPattern
        let exponent ← isolate g.power
        nodeFrom startToken (.binary "**") [base, exponent]
      else return base

/-- How tight a binary operator binds; zero if the token is none. -/
def precedence (lexeme : Lexeme) (allowIn : Bool) : Nat :=
  match lexeme with
  | .keyword "instanceof" => 7
  | .keyword "in" => if allowIn then 7 else 0
  | .punctuator mark =>
      if mark == "||" then 1
      else if mark == "&&" then 2
      else if mark == "|" then 3
      else if mark == "^" then 4
      else if mark == "&" then 5
      else if ["==", "!=", "===", "!=="].contains mark then 6
      else if ["<", ">", "<=", ">="].contains mark then 7
      else if ["<<", ">>", ">>>"].contains mark then 8
      else if ["+", "-"].contains mark then 9
      else if ["*", "/", "%"].contains mark then 11
      else 0
  | _ => 0

/-- The form of a binary expression. -/
def binaryForm (operator : String) : Form :=
  if operator == "||" || operator == "&&" then .logical operator else .binary operator

/-- An operator with its left operand, waiting for its right one. -/
structure Pending where
  /-- the left operand -/
  left : Node
  /-- the token at which it starts -/
  leftToken : Token
  /-- the operator -/
  operator : String
  /-- how tight it binds -/
  precedence : Nat

/-- The last operand read. -/
structure Operand where
  /-- its node -/
  node : Node
  /-- the token at which it starts -/
  token : Token

/-- Give the last operand to every pending operator that binds at least as tight. -/
def reduceTo (limit : Nat) : List Pending → Operand → Parse (List Pending × Operand)
  | [], right => return ([], right)
  | top :: rest, right => do
      if limit ≤ top.precedence then
        let expr ← nodeFrom top.leftToken (binaryForm top.operator) [top.left, right.node]
        reduceTo limit rest ⟨expr, top.leftToken⟩
      else return (top :: rest, right)

/-- Give the last operand to every pending operator.  A left operand that ends on a later
line than it starts has its column counted from the line start of the operand behind
it. -/
def reduceAll : List Pending → Operand → Parse Node
  | [], right => return right.node
  | top :: rest, right => do
      let start := Mark.ofToken top.leftToken right.token.lineStart
      let expr ← node start (binaryForm top.operator) [top.left, right.node]
      reduceAll rest ⟨expr, top.leftToken⟩

/-- Operators with their right operands, behind the first operand. -/
def binaryTail (g : Productions) : (fuel : Nat) → List Pending → Operand → Parse Node
  | 0, _, _ => interrupt .nestsTooDeeply
  | fuel + 1, pending, right => do
      let token ← ahead
      let level := precedence token.lexeme (← context).allowIn
      if level = 0 then reduceAll pending right
      else
        let (pending, left) ← reduceTo level pending right
        let _ ← advance
        notPattern
        let nextToken ← ahead
        let next ← isolate (power g)
        binaryTail g fuel (⟨left.node, left.token, token.lexeme.text, level⟩ :: pending)
          ⟨next, nextToken⟩

/-- Operands joined by binary operators. -/
def binary (g : Productions) : Parse Node := do
  let startToken ← ahead
  let first ← inherit (power g)
  binaryTail g (← budget) [] ⟨first, startToken⟩

/-- A choice between two expressions, or a single one. -/
def conditional (g : Productions) : Parse Node := do
  let startToken ← ahead
  let test ← inherit (binary g)
  if ← accept "?" then
    let yes ← withIn true (isolate g.assignment)
    expect ":"
    let no ← isolate g.assignment
    let result ← nodeFrom startToken .conditional [test, yes, no]
    notPattern
    return result
  else return test

/-! ## Arrow functions -/

/-- A parameter of an arrow function whose default is a bare `yield`: the word is a name. -/
def yieldDefault : Node → Parse Node
  | .mk .assignmentPattern role span [left, .mk (.yield hasArgument) rightRole rightSpan _] => do
      if hasArgument then unexpected (← ahead)
      return .mk .assignmentPattern role span
        [left, .mk (.identifier "yield") rightRole rightSpan []]
  | param => return param

/-- Note the names of parameters that were read as expressions. -/
def bindArrowParams (isAsync : Bool) : List Node → Parameters → Parse Parameters
  | [], ps => return ps
  | param :: rest, ps => do
      let param ← yieldDefault param
      if isAsync && param.name? = some "await" then unexpected (← ahead)
      let strict ← strict
      let ps := (boundNames param).foldl (fun ps name => ps.bind strict ⟨none⟩ name) ps
      bindArrowParams isAsync rest { ps with
        simple := ps.simple && param.isIdentifier
        reversed := param.withRole .param :: ps.reversed }

/-- The parameters of an arrow function, if the expression can be its head. -/
def arrowParams (expr : Node) : Parse (Option (Parameters × Bool)) := do
  let found? : Option (List Node × Bool) :=
    match expr with
    | .mk (.identifier _) _ _ _ => some ([expr], false)
    | .mk (.arrowHead isAsync) _ _ params => some (params, isAsync)
    | _ => none
  match found? with
  | none => return none
  | some (params, isAsync) =>
      let ps ← bindArrowParams isAsync params {}
      let c ← context
      if (c.strict || !c.allowYield) && ps.list.any (fun p => p.form matches .yield _) then
        unexpected (← ahead)
      if ps.fault = some .strictDuplicateParameter then failBehind .strictDuplicateParameter
      return some (ps, isAsync)

/-- An arrow function behind its parameters. -/
def arrow (g : Productions) (startToken : Token) (ps : Parameters) (isAsync : Bool) :
    Parse Node := do
  if ← lineBreak then unexpected (← ahead)
  modifyContext fun c => { c with pendingDefault := none }
  withSuspension true isAsync do
    let (body, isExpression) ← bodyOf' ps do
      expect "=>"
      if ← sees "\x7b" then
        pure (← withIn true (functionBody g), false)
      else
        let body ← isolate g.assignment
        pure (body, body.form ≠ .block)
    nodeFrom startToken (.arrow isAsync isExpression) (ps.list ++ [body.withRole .body])
where
  /-- The body with its strictness; names are checked once it is known. -/
  bodyOf' (ps : Parameters) (p : Parse (Node × Bool)) : Parse (Node × Bool) :=
    withStrictness do
      modifyContext fun c => { c with allowStrictDirective := ps.simple }
      let body ← p
      checkStrictParameters ps ps.fault
      return body

/-! ## Assignments -/

/-- Whether an expression may start with the token ahead. -/
def seesExpressionStart : Parse Bool := do
  match (← ahead).lexeme with
  | .punctuator mark =>
      return ["[", "(", "\x7b", "+", "-", "!", "~", "++", "--", "/", "/="].contains mark
  | .keyword word =>
      return ["class", "delete", "function", "let", "new", "super", "this", "typeof", "void",
        "yield"].contains word
  | _ => return true

/-- A `yield` with its value. -/
def yieldExpression (g : Productions) : Parse Node := do
  let start ← here
  expectKeyword "yield"
  if ← lineBreak then node start (.yield false) []
  else
    let argument ← keepingYield do
      setYield false
      if ← accept "*" then pure (some (← g.assignment))
      else if ← seesExpressionStart then pure (some (← g.assignment))
      else pure none
    node start (.yield argument.isSome) argument.toList

/-- The parameter of an async arrow function without parentheses, behind the word
`async`. -/
def asyncArrowParam (g : Productions) (token : Token) (expr : Node) : Parse Node := do
  let next ← ahead
  if token.isNamed "async" && token.line = next.line &&
      (next.isIdentifier || next.lexeme = .keyword "yield") then
    return arrowHead true [asPattern (← primary g)]
  else return expr

/-- An assignment behind its target. -/
def assignmentTail (g : Productions) (startToken : Token) (target : Node) : Parse Node := do
  if !(← context).isTarget then failAhead .invalidAssignmentTarget
  if ← strict then
    match target.name? with
    | some name =>
        if isRestricted name then failAt startToken .strictAssignment
        if isStrictReserved name then failAt startToken .strictReservedWord
    | none => pure ()
  let plain ← sees "="
  if !plain then notPattern
  let left := if plain then asPattern target else target
  let token ← advance
  let right ← isolate g.assignment
  let result ← nodeFrom startToken (.assignment token.lexeme.text) [left, right]
  modifyContext fun c => { c with pendingDefault := none }
  return result

/-- An assignment, an arrow function, a `yield`, or anything that binds tighter. -/
def assignment (g : Productions) : Parse Node := do
  if !(← context).allowYield && (← seesKeyword "yield") then yieldExpression g
  else
    let startToken ← ahead
    let expr ← asyncArrowParam g startToken (← conditional g)
    if (expr.form matches .arrowHead _) || (← sees "=>") then
      notPattern
      match ← arrowParams expr with
      | some (ps, isAsync) => arrow g startToken ps isAsync
      | none => return expr
    else if ← seesAssignment then assignmentTail g startToken expr
    else return expr

end EditionSurvey.Script.Grammar
