/-
  Script/Grammar/Function.lean --- function bodies, function declarations and
  expressions, and the functions that are members of objects and classes.
-/
import EditionSurvey.Script.Grammar.Binding

set_option autoImplicit false

namespace EditionSurvey.Script.Grammar

/-! ## Bodies -/

/-- The text of a directive: what stands between the quotes, as written. -/
def directiveText (spelling : String) : String :=
  String.ofList (spelling.toList.drop 1).dropLast

/-- A statement that starts with a string.  It is a directive if it is a literal and not
empty. -/
def directiveStatement (g : Productions) (spelling : String) :
    Parse (Node × Option String) := do
  let start ← here
  let expr ← expression g
  endStatement
  let text := directiveText spelling
  match expr.form with
  | .literal .. =>
      if text == "" then return (← node start .expressionStatement [expr], none)
      else return (← node start (.directive text) [expr], some text)
  | _ => return (← node start .expressionStatement [expr], none)

/-- The directives that open a body.  A directive may make the code strict; an octal escape
in a directive before it is then a fault. -/
def directives (g : Productions) : (fuel : Nat) → (octal : Option Token) → List Node →
    Parse (List Node)
  | 0, _, _ => interrupt .nestsTooDeeply
  | fuel + 1, octal, reversed => do
      let token ← ahead
      match token.lexeme with
      | .string spelling _ hasOctal =>
          let (statement, directive) ← directiveStatement g spelling
          let reversed := statement :: reversed
          match directive with
          | none => return reversed.reverse
          | some "use strict" =>
              modifyContext fun c => { c with strict := true }
              match octal with
              | some token => failAt token .strictOctal
              | none => pure ()
              if !(← context).allowStrictDirective then failAt token .illegalStrictDirective
              directives g fuel octal reversed
          | some _ =>
              let octal := octal.or (if hasOctal then some token else none)
              directives g fuel octal reversed
      | _ => return reversed.reverse

/-- The directives that open a body. -/
def directivePrologue (g : Productions) : Parse (List Node) := do
  directives g (← budget) none []

/-- The body of a function, with its braces. -/
def functionBody (g : Productions) : Parse Node := do
  let start ← here
  expect "\x7b"
  let prologue ← directivePrologue g
  let outer ← context
  modifyContext fun c =>
    { c with labels := [], inLoop := false, inSwitch := false, inFunction := true }
  let items ← many do
    if (← seesEnd) || (← sees "\x7d") then return none
    return some (← g.item)
  expect "\x7d"
  modifyContext fun c => { c with
    labels := outer.labels
    inLoop := outer.inLoop
    inSwitch := outer.inSwitch
    inFunction := outer.inFunction }
  node start .block (prologue ++ items)

/-- Report what strict code may not have among the name and the parameters of a function,
now that its body is known to be strict or not. -/
def checkStrictParameters (ps : Parameters) (fault : Option Fault) : Parse Unit := do
  if ← strict then
    let fault := fault.getD .strictReservedWord
    match ps.firstRestricted with
    | some culprit => failParameter culprit fault
    | none => pure ()
    match ps.stricted with
    | some culprit => failParameter culprit fault
    | none => pure ()

/-- Run a production and restore strictness and what a directive may do. -/
def withStrictness {α : Type} (p : Parse α) : Parse α := do
  let outer ← context
  let value ← p
  modifyContext fun c => { c with
    strict := outer.strict
    allowStrictDirective := outer.allowStrictDirective }
  return value

/-- The body of a function behind its parameters. -/
def bodyOf (ps : Parameters) (fault : Option Fault) (p : Parse Node) : Parse Node :=
  withStrictness do
    modifyContext fun c => { c with allowStrictDirective := ps.simple }
    let body ← p
    checkStrictParameters ps fault
    return body

/-- Run a production with `yield` and `await` as names or operators, and restore that. -/
def withSuspension {α : Type} (allowYield await : Bool) (p : Parse α) : Parse α := do
  let outer ← context
  modifyContext fun c => { c with allowYield, await }
  let value ← p
  modifyContext fun c => { c with allowYield := outer.allowYield, await := outer.await }
  return value

/-! ## Declarations and expressions -/

/-- The name of a function: its node, the culprit if strict code may not have it, and the
fault. -/
def functionName (name : Parse Node) : Parse (Node × Option Culprit × Option Fault) := do
  let token ← ahead
  let id ← name
  let text := token.lexeme.text
  if ← strict then
    if isRestricted text then failAt token .strictFunctionName
    return (id, none, none)
  else if isRestricted text then return (id, some ⟨some token⟩, some .strictFunctionName)
  else if isStrictReserved text then return (id, some ⟨some token⟩, some .strictReservedWord)
  else return (id, none, none)

/-- The keyword of a function, with `async` before it or a star behind it. -/
def functionHead : Parse (Bool × Bool) := do
  let isAsync ← seesName "async"
  if isAsync then let _ ← advance
  expectKeyword "function"
  let isGenerator ← if isAsync then pure false else accept "*"
  return (isAsync, isGenerator)

/-- The parameters and the body of a function, and its node. -/
def functionTail (g : Productions) (start : Mark) (declared isAsync isGenerator : Bool)
    (name : Option Node) (culprit : Option Culprit) (fault : Option Fault) : Parse Node := do
  let ps ← parameters g culprit
  let body ← bodyOf ps (ps.fault.or fault) (functionBody g)
  node start (.function declared isAsync isGenerator)
    (name.toList ++ ps.list ++ [body.withRole .body])

/-- A function declaration. -/
def functionDeclaration (g : Productions) : Parse Node := do
  let start ← here
  let (isAsync, isGenerator) ← functionHead
  let (name, culprit, fault) ← functionName (bindingName none)
  withSuspension (!isGenerator) isAsync do
    functionTail g start true isAsync isGenerator (some name) culprit fault

/-- A function expression, whose name may be missing. -/
def functionExpression (g : Productions) : Parse Node := do
  let start ← here
  let (isAsync, isGenerator) ← functionHead
  withSuspension (!isGenerator) isAsync do
    if ← sees "(" then functionTail g start false isAsync isGenerator none none none
    else
      let (name, culprit, fault) ← functionName do
        if !(← strict) && !isGenerator && (← seesKeyword "yield") then propertyWord
        else bindingName none
      functionTail g start false isAsync isGenerator (some name) culprit fault

/-- Whether `async` is ahead and `function` follows on the same line. -/
def seesAsyncFunction : Parse Bool := do
  if !(← seesName "async") then return false
  let line := (← get).scanner.cursor.line
  let beyond ← peekBeyond
  return line = beyond.line && beyond.lexeme = .keyword "function"

/-! ## Methods -/

/-- The body of a method behind its parameters. -/
def methodBody (g : Productions) (ps : Parameters) : Parse Node := do
  notPattern
  bodyOf ps ps.fault (isolate (functionBody g))

/-- The node of a method. -/
def methodNode (start : Mark) (isAsync isGenerator : Bool) (ps : Parameters) (body : Node) :
    Parse Node :=
  node start (.function false isAsync isGenerator) (ps.list ++ [body.withRole .body])

/-- Run a production and restore whether `yield` may be a name. -/
def keepingYield {α : Type} (p : Parse α) : Parse α := do
  let outer := (← context).allowYield
  let value ← p
  modifyContext fun c => { c with allowYield := outer }
  return value

/-- Say whether `yield` may be a name. -/
def setYield (allowYield : Bool) : Parse Unit := modifyContext fun c => { c with allowYield }

/-- A method. -/
def plainMethod (g : Productions) : Parse Node := do
  let start ← here
  keepingYield do
    setYield true
    let ps ← parameters g none
    methodNode start false false ps (← methodBody g ps)

/-- An async method. -/
def asyncMethod (g : Productions) : Parse Node := do
  let start ← here
  withSuspension false true do
    let ps ← parameters g none
    methodNode start true false ps (← methodBody g ps)

/-- A generator method. -/
def generatorMethod (g : Productions) : Parse Node := do
  let start ← here
  keepingYield do
    setYield true
    let ps ← parameters g none
    setYield false
    methodNode start false true ps (← methodBody g ps)

/-- A getter, behind its name: it has no parameters. -/
def getter (g : Productions) : Parse Node := do
  let start ← here
  keepingYield do
    setYield true
    let ps ← parameters g none
    if !ps.list.isEmpty then failAhead .getterArity
    methodNode start false false ps (← methodBody g ps)

/-- A setter, behind its name: it has one parameter, which is no rest. -/
def setter (g : Productions) : Parse Node := do
  let start ← here
  keepingYield do
    setYield true
    let ps ← parameters g none
    match ps.list with
    | [param] => if param.form = .rest then failAhead .setterRest
    | _ => failAhead .setterArity
    methodNode start false false ps (← methodBody g ps)

end EditionSurvey.Script.Grammar
