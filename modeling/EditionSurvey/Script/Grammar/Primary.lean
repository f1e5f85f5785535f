/-
  Script/Grammar/Primary.lean --- the operands of expressions: literals, names, templates,
  arrays, groups, and members and calls behind them.
-/
import EditionSurvey.Script.Grammar.Member

set_option autoImplicit false

namespace EditionSurvey.Script.Grammar

/-! ## Templates -/

/-- A piece of a template; the first piece opens with a backtick. -/
def quasi (first : Bool) : Parse (Node × Bool) := do
  match (← ahead).lexeme with
  | .template _ head tail =>
      if first && !head then interrupt .templateWithoutHead
      let start ← here
      let _ ← advance
      return (← node start (.quasi tail) [], tail)
  | _ => failBehind (.unexpectedToken "ILLEGAL")

/-- The substitutions of a template with the pieces behind them. -/
def substitutions (g : Productions) : (fuel : Nat) → (pieces exprs : List Node) →
    Parse (List Node × List Node)
  | 0, _, _ => interrupt .nestsTooDeeply
  | fuel + 1, pieces, exprs => do
      let expr ← expression g
      let (piece, tail) ← quasi false
      let pieces := piece :: pieces
      let exprs := expr :: exprs
      if tail then return (pieces.reverse, exprs.reverse)
      else substitutions g fuel pieces exprs

/-- A template. -/
def template (g : Productions) : Parse Node := do
  let start ← here
  let (piece, tail) ← quasi true
  if tail then node start .template [piece]
  else
    let (pieces, exprs) ← substitutions g (← budget) [piece] []
    node start .template (pieces ++ exprs)

/-- Whether a template that opens with a backtick is ahead. -/
def seesTemplateHead : Parse Bool := do
  match (← ahead).lexeme with
  | .template _ head _ => return head
  | _ => return false

/-! ## Arrays -/

/-- An array literal; holes leave no node. -/
def arrayLiteral (g : Productions) : Parse Node := do
  let start ← here
  expect "["
  let elements ← many do
    if ← sees "]" then return none
    else if ← accept "," then return some none
    else if ← sees "..." then
      let element ← spread g
      if !(← sees "]") then
        notPattern
        expect ","
      return some (some element)
    else
      let element ← inherit g.assignment
      if !(← sees "]") then expect ","
      return some (some element)
  expect "]"
  node start .array (elements.filterMap id)

/-! ## Groups -/

/-- The head of an arrow function: its parameters, which have no place of their own. -/
def arrowHead (isAsync : Bool) (params : List Node) : Node :=
  .mk (.arrowHead isAsync) .part none params

/-- What a group holds behind its first expression. -/
inductive GroupRest where
  /-- expressions up to the closing parenthesis, which is not read -/
  | expressions (list : List Node)
  /-- parameters; the closing parenthesis is read -/
  | params (list : List Node)

/-- The expressions of a group behind its first one.  A comma at the end, or a rest
parameter, makes parameters of them all. -/
def groupRest (g : Productions) : (fuel : Nat) → List Node → Parse GroupRest
  | 0, _ => interrupt .nestsTooDeeply
  | fuel + 1, reversed => do
      if !(← accept ",") then return .expressions reversed.reverse
      else if ← accept ")" then return .params (eachAsPattern reversed.reverse)
      else if ← sees "..." then
        if !(← context).isBinding then unexpected (← ahead)
        let (rest, _) ← restParameter g
        expect ")"
        if !(← sees "=>") then expect "=>"
        modifyContext fun c => { c with isBinding := false }
        return .params (eachAsPattern (rest :: reversed).reverse)
      else groupRest g fuel ((← inherit g.assignment) :: reversed)

/-- A group that closes behind an expression.  An arrow makes parameters of it. -/
def closeGroup (expr : Node) : Parse Node := do
  expect ")"
  let result ←
    if ← sees "=>" then
      if expr.name? = some "yield" then pure (arrowHead false [expr])
      else
        if !(← context).isBinding then unexpected (← ahead)
        match expr with
        | .mk .sequence _ _ parts => pure (arrowHead false (eachAsPattern parts))
        | other => pure (arrowHead false [asPattern other])
    else pure expr
  modifyContext fun c => { c with isBinding := false }
  return result

/-- An expression, or the parameters of an arrow function, in parentheses. -/
def parenthesised (g : Productions) : Parse Node := do
  expect "("
  if ← accept ")" then
    if !(← sees "=>") then expect "=>"
    return arrowHead false []
  let startToken ← ahead
  if ← sees "..." then
    let (rest, _) ← restParameter g
    expect ")"
    if !(← sees "=>") then expect "=>"
    return arrowHead false [rest]
  modifyContext fun c => { c with isBinding := true }
  let first ← inherit g.assignment
  if !(← sees ",") then closeGroup first
  else
    modifyContext fun c => { c with isTarget := false }
    match ← groupRest g (← budget) [first] with
    | .params list => return arrowHead false list
    | .expressions list => closeGroup (← nodeFrom startToken .sequence list)

/-! ## Operands -/

/-- Whether a call of `import` is ahead. -/
def seesImportCall : Parse Bool := do
  if !(← seesKeyword "import") then return false
  return (← peekBeyond).lexeme = .punctuator "("

/-- A literal: the token ahead as it is written. -/
def literal (text : Option String) : Parse Node := do
  let start ← here
  notPattern
  let token ← advance
  let raw := match token.lexeme with
    | .string spelling .. => spelling
    | other => other.text
  node start (.literal raw text) []

/-- A regular expression. -/
def patternLiteral : Parse Node := do
  let start ← here
  notPattern
  let token ← advancePattern
  match token.lexeme with
  | .pattern _ flags => node start (.pattern flags) []
  | _ => unexpected token

/-- An operand that starts with a reserved word. -/
def keywordOperand (g : Productions) : Parse Node := do
  let start ← here
  let c ← context
  if !c.strict && c.allowYield && (← seesKeyword "yield") then propertyWord
  else if !c.strict && (← seesKeyword "let") then
    let _ ← advance
    node start (.identifier "let") []
  else
    notPattern
    if ← seesKeyword "function" then functionExpression g
    else if ← seesKeyword "this" then
      let _ ← advance
      node start .this []
    else if ← seesKeyword "class" then classExpression g
    else if ← seesImportCall then
      expectKeyword "import"
      node start .importCall []
    else unexpected (← advance)

/-- An operand without members and calls. -/
def primary (g : Productions) : Parse Node := do
  let start ← here
  let token ← ahead
  match token.lexeme with
  | .identifier name =>
      if (← context).await && name == "await" then unexpected token
      if ← seesAsyncFunction then functionExpression g
      else
        let _ ← advance
        node start (.identifier name) []
  | .number _ octal =>
      if (← strict) && octal then failAt token .strictOctal
      literal none
  | .string _ value octal =>
      if (← strict) && octal then failAt token .strictOctal
      literal (some value)
  | .booleanWord _ | .nullWord => literal none
  | .template .. => template g
  | .punctuator "(" =>
      modifyContext fun c => { c with isBinding := false }
      inherit (parenthesised g)
  | .punctuator "[" => inherit (arrayLiteral g)
  | .punctuator "\x7b" => inherit (objectLiteral g)
  | .punctuator "/" | .punctuator "/=" => patternLiteral
  | .keyword _ => keywordOperand g
  | _ => unexpected (← advance)

/-! ## Members and calls -/

/-- Arguments up to the closing parenthesis, which is read; a comma may end them. -/
def arguments (g : Productions) (argument : Parse Node) : Parse (List Node) := do
  expect "("
  let list ← many do
    if ← sees ")" then return none
    let arg ← if ← sees "..." then spread g else isolate argument
    if !(← sees ")") then expect ","
    return some (arg.withRole .argument)
  expect ")"
  return list

/-- An argument of what may be the head of an async arrow function. -/
def asyncArgument (g : Productions) : Parse Node := do
  let arg ← g.assignment
  modifyContext fun c => { c with pendingDefault := none }
  return arg

/-- The name behind a dot, and its node. -/
def dotMember (startToken : Token) (object : Node) : Parse Node := do
  placeOnly
  expect "."
  let name ← propertyWord
  nodeFrom startToken (.member false) [object, name.withRole .name]

/-- A member named by an expression in brackets. -/
def bracketMember (g : Productions) (startToken : Token) (object : Node) : Parse Node := do
  placeOnly
  expect "["
  let name ← isolate (expression g)
  expect "]"
  nodeFrom startToken (.member true) [object, name.withRole .name]

/-- A template behind its tag. -/
def taggedTemplate (g : Productions) (startToken : Token) (tag : Node) : Parse Node := do
  let quasi ← template g
  nodeFrom startToken .taggedTemplate [tag, quasi]

/-- Members and templates behind an operand. -/
def memberChain (g : Productions) (startToken : Token) : (fuel : Nat) → Node → Parse Node
  | 0, _ => interrupt .nestsTooDeeply
  | fuel + 1, expr => do
      if ← sees "[" then memberChain g startToken fuel (← bracketMember g startToken expr)
      else if ← sees "." then memberChain g startToken fuel (← dotMember startToken expr)
      else if ← seesTemplateHead then
        memberChain g startToken fuel (← taggedTemplate g startToken expr)
      else return expr

/-- `new` with its callee and arguments, or the name of the constructor that was called. -/
def newExpression (g : Productions) : Parse Node := do
  let start ← here
  let word ← propertyWord
  if ← accept "." then
    if (← context).inFunction && (← seesName "target") then
      let target ← propertyWord
      node start .metaProperty [word, target]
    else unexpected (← ahead)
  else if ← seesKeyword "import" then unexpected (← ahead)
  else
    let callee ← isolate g.callee
    let args ← if ← sees "(" then arguments g g.assignment else pure []
    notPattern
    node start .new (callee.withRole .callee :: args)

/-- `super`, in front of one of the punctuators. -/
def superOperand (followers : List String) : Parse Node := do
  let start ← here
  expectKeyword "super"
  let expr ← node start .super []
  if !(← seesAny followers) then unexpected (← ahead)
  return expr

/-- The operand at the start of a chain of members. -/
def chainHead (g : Productions) (superFollowers : List String) : Parse Node := do
  if (← seesKeyword "super") && (← context).inFunction then superOperand superFollowers
  else if ← seesKeyword "new" then inherit (newExpression g)
  else inherit (primary g)

/-- An operand with its members, but no calls. -/
def callee (g : Productions) : Parse Node := do
  let startToken ← ahead
  memberChain g startToken (← budget) (← chainHead g ["[", "."])

/-- A call behind its callee.  `mayBeArrow` if the callee is the word `async` on the same
line, so that an arrow may follow. -/
def call (g : Productions) (startToken : Token) (mayBeArrow : Bool) (target : Node) :
    Parse Node := do
  notPattern
  let args ← arguments g (if mayBeArrow then asyncArgument g else g.assignment)
  if target.form = .importCall && args.length ≠ 1 then failAhead .unexpectedConstruct
  let expr ← nodeFrom startToken .call (target.withRole .callee :: args)
  if mayBeArrow && (← sees "=>") then return arrowHead true (eachAsPattern args)
  else return expr

/-- Members, calls and templates behind an operand. -/
def callChain (g : Productions) (startToken : Token) (isAsync : Bool) : (fuel : Nat) → Node →
    Parse Node
  | 0, _ => interrupt .nestsTooDeeply
  | fuel + 1, expr => do
      if ← sees "." then callChain g startToken isAsync fuel (← dotMember startToken expr)
      else if ← sees "(" then
        let mayBeArrow := isAsync && startToken.line = (← ahead).line
        callChain g startToken isAsync fuel (← call g startToken mayBeArrow expr)
      else if ← sees "[" then
        callChain g startToken isAsync fuel (← bracketMember g startToken expr)
      else if ← seesTemplateHead then
        callChain g startToken isAsync fuel (← taggedTemplate g startToken expr)
      else return expr

/-- An operand with its members and calls. -/
def operand (g : Productions) : Parse Node := do
  let startToken ← ahead
  let isAsync ← seesName "async"
  withIn true do
    callChain g startToken isAsync (← budget) (← chainHead g ["(", ".", "["])

end EditionSurvey.Script.Grammar
