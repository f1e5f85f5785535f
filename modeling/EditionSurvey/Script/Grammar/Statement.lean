/-
  Script/Grammar/Statement.lean --- statements and declarations.
-/
import EditionSurvey.Script.Grammar.Expression

set_option autoImplicit false

namespace EditionSurvey.Script.Grammar

/-! ## Blocks and variables -/

/-- Statements in braces. -/
def block (g : Productions) : Parse Node := do
  let start ← here
  expect "\x7b"
  let items ← many do
    if ← sees "\x7d" then return none
    return some (← g.item)
  expect "\x7d"
  node start .block items

/-- An expression between parentheses. -/
def parenthesisedExpression (g : Productions) : Parse Node := do
  expect "("
  let expr ← expression g
  expect ")"
  return expr

/-- A name that strict code may not bind is no variable of it. -/
def checkVariableName (target : Node) (fault : Fault) : Parse Unit := do
  if (← strict) && (target.name?.map isRestricted).getD false then failAhead fault

/-- Items separated by commas. -/
def separated (item : Parse Node) : Parse (List Node) := do
  let first ← item
  let rest ← many do
    if ← accept "," then return some (← item) else return none
  return first :: rest

/-- A variable with its value.  In the head of a loop a pattern needs none. -/
def variableDeclarator (g : Productions) (inFor : Bool) : Parse Node := do
  let start ← here
  let (target, _) ← g.binding (some "var")
  checkVariableName target .strictVariableName
  if ← accept "=" then
    let init ← isolate g.assignment
    node start (.declarator true) [target, init]
  else
    if !target.isIdentifier && !inFor then expect "="
    node start (.declarator false) [target]

/-- A variable of a block with its value.  A constant needs one unless a loop gives it, and
so does a pattern outside the head of a loop. -/
def lexicalDeclarator (g : Productions) (kind : String) (inFor : Bool) : Parse Node := do
  let start ← here
  let (target, _) ← g.binding (some kind)
  checkVariableName target .strictVariableName
  if kind == "const" then
    if (← seesKeyword "in") || (← seesName "of") then node start (.declarator false) [target]
    else if ← accept "=" then
      let init ← isolate g.assignment
      node start (.declarator true) [target, init]
    else failBehind (.missingInitializer "const")
  else if (!inFor && !target.isIdentifier) || (← sees "=") then
    expect "="
    let init ← isolate g.assignment
    node start (.declarator true) [target, init]
  else node start (.declarator false) [target]

/-- A declaration with `var`. -/
def variableStatement (g : Productions) : Parse Node := do
  let start ← here
  expectKeyword "var"
  let list ← separated (variableDeclarator g false)
  endStatement
  node start (.variables "var") list

/-- A declaration with `let` or `const`. -/
def lexicalDeclaration (g : Productions) : Parse Node := do
  let start ← here
  let kind := (← advance).lexeme.text
  let list ← separated (lexicalDeclarator g kind false)
  endStatement
  node start (.variables kind) list

/-- Whether `let`, which is ahead, opens a declaration. -/
def letDeclares : Parse Bool := do
  match (← peekBeyond).lexeme with
  | .identifier _ => return true
  | .punctuator mark => return mark == "[" || mark == "\x7b"
  | .keyword word => return word == "let" || word == "yield"
  | _ => return false

/-! ## Choices and loops -/

/-- A statement that a condition guards; in strict code it is no function declaration. -/
def guarded (g : Productions) : Parse Node := do
  if (← strict) && (← seesKeyword "function") then failAhead .strictFunction
  g.statement

/-- A choice between statements. -/
def ifStatement (g : Productions) : Parse Node := do
  let start ← here
  expectKeyword "if"
  let test ← parenthesisedExpression g
  let yes ← guarded g
  if ← seesKeyword "else" then
    let _ ← advance
    let no ← guarded g
    node start .ifStatement [test, yes, no]
  else node start .ifStatement [test, yes]

/-- A loop that tests behind its body; a semicolon may follow. -/
def doWhileLoop (g : Productions) : Parse Node := do
  let start ← here
  expectKeyword "do"
  let body ← withLoop g.statement
  expectKeyword "while"
  let test ← parenthesisedExpression g
  let _ ← accept ";"
  node start .doWhileLoop [body.withRole .body, test]

/-- A loop that tests before its body. -/
def whileLoop (g : Productions) : Parse Node := do
  let start ← here
  expectKeyword "while"
  let test ← parenthesisedExpression g
  let body ← withLoop g.statement
  node start .whileLoop [test, body.withRole .body]

/-- What the head of a `for` loop says, up to its closing parenthesis. -/
inductive ForHead where
  /-- a start, a test and a step, each of which may be missing -/
  | steps (parts : List Node)
  /-- a target and the object whose keys it takes -/
  | keys (target object : Node)
  /-- a target and the collection whose values it takes -/
  | values (target collection : Node)

/-- The test and the step of a loop, behind its start. -/
def loopSteps (g : Productions) (init : List Node) : Parse ForHead := do
  let test ← if ← sees ";" then pure [] else pure [← expression g]
  expect ";"
  let update ← if ← sees ")" then pure [] else pure [← expression g]
  return .steps (init ++ test ++ update)

/-- The object of a loop over keys, behind its target. -/
def loopKeys (g : Productions) (target : Node) : Parse ForHead := do
  let _ ← advance
  return .keys target (← expression g)

/-- The collection of a loop over values, behind its target. -/
def loopValues (g : Productions) (target : Node) : Parse ForHead := do
  let _ ← advance
  return .values target (← g.assignment)

/-- Whether the declarator gives a value. -/
def hasInit (declarator : Node) : Bool := declarator.form = .declarator true

/-- The name or pattern of a declarator. -/
def declared? (declarator : Node) : Option Node := declarator.parts.head?

/-- Whether the declarator binds a pattern. -/
def bindsPattern (declarator : Node) : Bool :=
  match (declared? declarator).map Node.form with
  | some .arrayPattern | some .objectPattern => true
  | _ => false

/-- The head of a loop that declares with `var`. -/
def varHead (g : Productions) : Parse ForHead := do
  let start ← here
  let _ ← advance
  let list ← withIn false (separated (variableDeclarator g true))
  match list with
  | [one] =>
      if ← seesKeyword "in" then
        if hasInit one && (bindsPattern one || (← strict)) then
          failAhead (.loopInitializer "for-in")
        loopKeys g (← node start (.variables "var") list)
      else if !hasInit one && (← seesName "of") then
        loopValues g (← node start (.variables "var") list)
      else steps start list
  | _ => steps start list
where
  /-- The declaration is the start of the loop. -/
  steps (start : Mark) (list : List Node) : Parse ForHead := do
    let init ← node start (.variables "var") list
    expect ";"
    loopSteps g [init]

/-- The head of a loop that declares with `let` or `const`. -/
def lexicalHead (g : Productions) : Parse ForHead := do
  let start ← here
  let kind := (← advance).lexeme.text
  if !(← strict) && (← ahead).lexeme.text == "in" then
    loopKeys g (← node start (.identifier kind) [])
  else
    let list ← withIn false (separated (lexicalDeclarator g kind true))
    match list with
    | [one] =>
        if !hasInit one && (← seesKeyword "in") then
          loopKeys g (← node start (.variables kind) list)
        else if !hasInit one && (← seesName "of") then
          loopValues g (← node start (.variables kind) list)
        else steps start kind list
    | _ => steps start kind list
where
  /-- The declaration is the start of the loop. -/
  steps (start : Mark) (kind : String) (list : List Node) : Parse ForHead := do
    endStatement
    loopSteps g [← node start (.variables kind) list]

/-- Whether the target of a loop is a place. -/
def checkLoopTarget (target : Node) (fault : Fault) : Parse Unit := do
  if !(← context).isTarget || (target.form matches .assignment _) then failAhead fault

/-- The head of a loop that starts with an expression. -/
def expressionHead (g : Productions) : Parse ForHead := do
  let startToken ← ahead
  let init ← withIn false (inherit g.assignment)
  if ← seesKeyword "in" then
    checkLoopTarget init .invalidForInTarget
    loopKeys g (asPattern init)
  else if ← seesName "of" then
    checkLoopTarget init .invalidForOfTarget
    loopValues g (asPattern init)
  else
    let init ←
      if ← sees "," then
        let rest ← many do
          if ← accept "," then return some (← isolate g.assignment) else return none
        nodeFrom startToken .sequence (init :: rest)
      else pure init
    expect ";"
    loopSteps g [init]

/-- A `for` loop. -/
def forLoop (g : Productions) : Parse Node := do
  let start ← here
  expectKeyword "for"
  expect "("
  let head ←
    if ← accept ";" then loopSteps g []
    else if ← seesKeyword "var" then varHead g
    else if (← seesKeyword "const") || (← seesKeyword "let") then lexicalHead g
    else expressionHead g
  expect ")"
  let body ← withLoop (isolate g.statement)
  let body := body.withRole .body
  match head with
  | .steps parts => node start .forLoop (parts ++ [body])
  | .keys target object => node start .forInLoop [target, object, body]
  | .values target collection => node start .forOfLoop [target, collection, body]

/-! ## Jumps and labels -/

/-- The label of a jump, on the same line, which must be in scope. -/
def jumpLabel : Parse (Option Node) := do
  if !(← ahead).isIdentifier || (← lineBreak) then return none
  let id ← bindingName none
  let name := id.name?.getD ""
  if !(← context).labels.contains name then failBehind (.unknownLabel name)
  return some id

/-- A jump to the end of a loop or switch, or behind a label. -/
def breakStatement : Parse Node := do
  let start ← here
  expectKeyword "break"
  let label ← jumpLabel
  endStatement
  let c ← context
  if label.isNone && !c.inLoop && !c.inSwitch then failBehind .illegalBreak
  node start .breakStatement label.toList

/-- A jump to the next turn of a loop. -/
def continueStatement : Parse Node := do
  let start ← here
  expectKeyword "continue"
  let label ← jumpLabel
  endStatement
  if label.isNone && !(← context).inLoop then failBehind .illegalContinue
  node start .continueStatement label.toList

/-- The end of a function, with its value. -/
def returnStatement (g : Productions) : Parse Node := do
  if !(← context).inFunction then failAhead .illegalReturn
  let start ← here
  expectKeyword "return"
  let sameLine := !(← sees ";") && !(← sees "\x7d") && !(← lineBreak) && !(← seesEnd)
  let isText := (← ahead).lexeme matches .string .. | .template ..
  let argument ← if sameLine || isText then pure [← expression g] else pure []
  endStatement
  node start .returnStatement argument

/-- A thrown value, on the same line. -/
def throwStatement (g : Productions) : Parse Node := do
  let start ← here
  expectKeyword "throw"
  if ← lineBreak then failBehind .newlineAfterThrow
  let argument ← expression g
  endStatement
  node start .throwStatement [argument]

/-- A statement that starts with a name: labelled, or an expression. -/
def labelled (g : Productions) : Parse Node := do
  let start ← here
  let expr ← expression g
  match expr.form, ← sees ":" with
  | .identifier name, true =>
      let _ ← advance
      if (← context).labels.contains name then failBehind (.labelRedeclared name)
      modifyContext fun c => { c with labels := name :: c.labels }
      let body ←
        if ← seesKeyword "class" then unexpected (← ahead)
        else if ← seesKeyword "function" then
          let token ← ahead
          let declaration ← functionDeclaration g
          if ← strict then failAt token .strictFunction
          if declaration.form matches .function _ _ true then
            failAt token .generatorInLegacyContext
          pure declaration
        else g.statement
      modifyContext fun c => { c with labels := c.labels.erase name }
      node start .labeled [expr, body.withRole .body]
  | _, _ =>
      endStatement
      node start .expressionStatement [expr]

/-! ## Other statements -/

/-- A statement whose names are looked up in an object first; strict code has none. -/
def withStatement (g : Productions) : Parse Node := do
  if ← strict then failAhead .strictWith
  let start ← here
  expectKeyword "with"
  let object ← parenthesisedExpression g
  let body ← g.statement
  node start .withStatement [object, body.withRole .body]

/-- A case of a switch. -/
def switchCase (g : Productions) : Parse Node := do
  let start ← here
  let test ←
    if ← seesKeyword "default" then
      let _ ← advance
      pure []
    else
      expectKeyword "case"
      pure [← expression g]
  expect ":"
  let items ← many do
    if (← sees "\x7d") || (← seesKeyword "default") || (← seesKeyword "case") then return none
    return some (← g.item)
  node start (.switchCase test.isEmpty) (test ++ items)

/-- The cases of a switch up to its closing brace; at most one is the default. -/
def switchCases (g : Productions) : (fuel : Nat) → (hasDefault : Bool) → List Node →
    Parse (List Node)
  | 0, _, _ => interrupt .nestsTooDeeply
  | fuel + 1, hasDefault, reversed => do
      if ← sees "\x7d" then return reversed.reverse
      let clause ← switchCase g
      let isDefault := clause.form = .switchCase true
      if isDefault && hasDefault then failBehind .multipleDefaults
      switchCases g fuel (hasDefault || isDefault) (clause :: reversed)

/-- A choice by value. -/
def switchStatement (g : Productions) : Parse Node := do
  let start ← here
  expectKeyword "switch"
  let subject ← parenthesisedExpression g
  expect "\x7b"
  let outer := (← context).inSwitch
  modifyContext fun c => { c with inSwitch := true }
  let cases ← switchCases g (← budget) false []
  modifyContext fun c => { c with inSwitch := outer }
  expect "\x7d"
  node start .switchStatement (subject :: cases)

/-- The first name that occurs again behind itself, in order of the second occurrence. -/
def firstRepeated : List String → List String → Option String
  | [], _ => none
  | name :: rest, seen =>
      if seen.contains name then some name else firstRepeated rest (name :: seen)

/-- A handler with its parameter. -/
def catchClause (g : Productions) : Parse Node := do
  let start ← here
  expectKeyword "catch"
  expect "("
  if ← sees ")" then unexpected (← ahead)
  let (param, tokens) ← g.binding none
  match firstRepeated (tokens.map fun t => t.lexeme.text) [] with
  | some name => failAhead (.duplicateBinding name)
  | none => pure ()
  checkVariableName param .strictCatchVariable
  expect ")"
  let body ← block g
  node start .catchClause [param, body.withRole .body]

/-- A block with a handler, a finalizer, or both. -/
def tryStatement (g : Productions) : Parse Node := do
  let start ← here
  expectKeyword "try"
  let body ← block g
  let handler ← if ← seesKeyword "catch" then pure [← catchClause g] else pure []
  let finalizer ←
    if ← seesKeyword "finally" then
      let _ ← advance
      pure [← block g]
    else pure []
  if handler.isEmpty && finalizer.isEmpty then failBehind .missingCatchOrFinally
  node start .tryStatement (body :: handler ++ finalizer)

/-- A breakpoint. -/
def debuggerStatement : Parse Node := do
  let start ← here
  expectKeyword "debugger"
  endStatement
  node start .debuggerStatement []

/-- An expression as a statement. -/
def expressionStatement (g : Productions) : Parse Node := do
  let start ← here
  let expr ← expression g
  endStatement
  node start .expressionStatement [expr]

/-- A statement that starts with a reserved word. -/
def keywordStatement (g : Productions) (word : String) : Parse Node :=
  match word with
  | "break" => breakStatement
  | "continue" => continueStatement
  | "debugger" => debuggerStatement
  | "do" => doWhileLoop g
  | "for" => forLoop g
  | "function" => functionDeclaration g
  | "if" => ifStatement g
  | "return" => returnStatement g
  | "switch" => switchStatement g
  | "throw" => throwStatement g
  | "try" => tryStatement g
  | "var" => variableStatement g
  | "while" => whileLoop g
  | "with" => withStatement g
  | _ => expressionStatement g

/-- A statement. -/
def statement (g : Productions) : Parse Node := do
  let start ← here
  let token ← ahead
  match token.lexeme with
  | .endOfSource => unexpected token
  | .punctuator "\x7b" => block g
  | .punctuator ";" =>
      let _ ← advance
      node start .emptyStatement []
  | .identifier _ => if ← seesAsyncFunction then functionDeclaration g else labelled g
  | .keyword word => keywordStatement g word
  | _ => expressionStatement g

/-- A statement or declaration. -/
def item (g : Productions) : Parse Node := do
  modifyContext fun c => { c with isTarget := true, isBinding := true }
  let token ← ahead
  match token.lexeme with
  | .keyword "export" => failAt token .unexpectedConstruct
  | .keyword "import" =>
      if ← seesImportCall then expressionStatement g else failAt token .unexpectedConstruct
  | .keyword "const" => lexicalDeclaration g
  | .keyword "function" => functionDeclaration g
  | .keyword "class" => classDeclaration g
  | .keyword "let" => if ← letDeclares then lexicalDeclaration g else statement g
  | _ => statement g

end EditionSurvey.Script.Grammar
