/-
  Script/Grammar/Binding.lean --- names and patterns that are bound, and expressions that
  turn out to be patterns.
-/
import EditionSurvey.Script.Grammar.State

set_option autoImplicit false

namespace EditionSurvey.Script.Grammar

/-! ## Names and patterns -/

/-- A name that is bound.  `let` may be one in a `var` declaration, and `yield` outside
generators, as long as the code is not strict. -/
def bindingName (kind : Option String) : Parse Node := do
  let start ← here
  let token ← advance
  let c ← context
  match token.lexeme with
  | .keyword "yield" =>
      if c.strict then failAt token .strictReservedWord
      else if !c.allowYield then unexpected token
  | .identifier name => if c.await && name == "await" then unexpected token
  | .keyword word =>
      if c.strict && isStrictReserved word then failAt token .strictReservedWord
      else if c.strict || word ≠ "let" || kind ≠ some "var" then unexpected token
  | other =>
      if c.strict || other.text ≠ "let" || kind ≠ some "var" then unexpected token
  node start (.identifier token.lexeme.text) []

/-- A pattern with the tokens of the names it binds. -/
abbrev Bound := Node × List Token

/-- A pattern, with a default behind it if an equals sign follows. -/
def bindingWithDefault (g : Productions) (kind : Option String) : Parse Bound := do
  let startToken ← ahead
  let (target, names) ← g.binding kind
  if ← accept "=" then
    let outer := (← context).allowYield
    modifyContext fun c => { c with allowYield := true }
    let right ← isolate g.assignment
    modifyContext fun c => { c with allowYield := outer }
    return (← nodeFrom startToken .assignmentPattern [target, right], names)
  else return (target, names)

/-- The remaining elements of an array pattern. -/
def bindingRest (g : Productions) (kind : Option String) : Parse Bound := do
  let start ← here
  expect "..."
  let (target, names) ← g.binding kind
  return (← node start .rest [target], names)

/-- The elements of an array pattern up to its bracket; holes bind nothing.  A rest
element is the last one. -/
def arrayBindingElements (g : Productions) (kind : Option String) : (fuel : Nat) →
    List Bound → Parse (List Bound)
  | 0, _ => interrupt .nestsTooDeeply
  | fuel + 1, reversed => do
      if ← sees "]" then return reversed.reverse
      else if ← accept "," then arrayBindingElements g kind fuel reversed
      else if ← sees "..." then return ((← bindingRest g kind) :: reversed).reverse
      else
        let element ← bindingWithDefault g kind
        if !(← sees "]") then expect ","
        arrayBindingElements g kind fuel (element :: reversed)

/-- An array pattern. -/
def arrayBinding (g : Productions) (kind : Option String) : Parse Bound := do
  let start ← here
  expect "["
  let elements ← arrayBindingElements g kind (← budget) []
  expect "]"
  return (← node start .arrayPattern (elements.map (·.1)), elements.flatMap (·.2))

/-- The name of a property: a word, a string, a number, or an expression in brackets. -/
def propertyName (g : Productions) : Parse Node := do
  let start ← here
  let token ← advance
  match token.lexeme with
  | .string spelling value octal =>
      if (← strict) && octal then failAt token .strictOctal
      node start (.literal spelling (some value)) []
  | .number spelling octal =>
      if (← strict) && octal then failAt token .strictOctal
      node start (.literal spelling none) []
  | .punctuator "[" =>
      let name ← isolate g.assignment
      expect "]"
      return name
  | lexeme =>
      if !lexeme.isName then unexpected token
      node start (.identifier lexeme.text) []

/-- A member of an object pattern. -/
def propertyBinding (g : Productions) (kind : Option String) : Parse Bound := do
  let start ← here
  let keyToken ← ahead
  match keyToken.lexeme with
  | .identifier name =>
      let key ← bindingName none
      let bound ← node start (.identifier name) []
      let form (shorthand : Bool) : Form := .property .init false false shorthand
      if ← accept "=" then
        let right ← g.assignment
        let value ← nodeFrom keyToken .assignmentPattern [bound, right]
        return (← node start (form true) [key.withRole .key, value.withRole .value], [keyToken])
      else if !(← sees ":") then
        return (← node start (form true) [key.withRole .key, bound.withRole .value], [keyToken])
      else
        expect ":"
        let (value, names) ← bindingWithDefault g kind
        return (← node start (form false) [key.withRole .key, value.withRole .value], names)
  | _ =>
      let computed ← sees "["
      let key ← propertyName g
      expect ":"
      let (value, names) ← bindingWithDefault g kind
      return (← node start (.property .init computed false false)
        [key.withRole .key, value.withRole .value], names)

/-- The remaining members of an object pattern. -/
def restProperty (g : Productions) (kind : Option String) : Parse Bound := do
  let start ← here
  expect "..."
  let (target, names) ← g.binding kind
  if ← sees "=" then failBehind (.unexpectedToken "=")
  if !(← sees "\x7d") then failBehind .unexpectedConstruct
  return (← node start .rest [target], names)

/-- An object pattern. -/
def objectBinding (g : Productions) (kind : Option String) : Parse Bound := do
  let start ← here
  expect "\x7b"
  let members ← many do
    if ← sees "\x7d" then return none
    let member ← if ← sees "..." then restProperty g kind else propertyBinding g kind
    if !(← sees "\x7d") then expect ","
    return some member
  expect "\x7d"
  return (← node start .objectPattern (members.map fun m => m.1.withRole .property),
    members.flatMap (·.2))

/-- A name or pattern that is bound. -/
def binding (g : Productions) (kind : Option String) : Parse Bound := do
  if ← sees "[" then arrayBinding g kind
  else if ← sees "\x7b" then objectBinding g kind
  else
    let token ← ahead
    if (← seesKeyword "let") && (kind = some "const" || kind = some "let") then
      failAt token .letAsBinding
    return (← bindingName kind, [token])

/-! ## Expressions as patterns

An arrow or an assignment sign behind an expression makes a pattern of it: arrays and
objects become patterns, spreads become rests, and assignments become defaults.  What has
no place in a pattern stays as it is. -/

mutual

/-- The expression read as a pattern. -/
def asPattern : Node → Node
  | .mk .spread role span parts => .mk .rest role span (eachAsPattern parts)
  | .mk .array role span parts => .mk .arrayPattern role span (eachAsPattern parts)
  | .mk .object role span parts => .mk .objectPattern role span (membersAsPattern parts)
  | .mk (.assignment _) role span parts =>
      .mk .assignmentPattern role span (firstAsPattern parts)
  | node => node

/-- All nodes read as patterns. -/
def eachAsPattern : List Node → List Node
  | [] => []
  | node :: rest => asPattern node :: eachAsPattern rest

/-- The first node read as a pattern. -/
def firstAsPattern : List Node → List Node
  | [] => []
  | node :: rest => asPattern node :: rest

/-- The members of an object read as members of a pattern: of a property the value, of a
spread the whole. -/
def membersAsPattern : List Node → List Node
  | [] => []
  | .mk (.property kind computed isMethod shorthand) role span parts :: rest =>
      .mk (.property kind computed isMethod shorthand) role span (valueAsPattern parts)
        :: membersAsPattern rest
  | node :: rest => asPattern node :: membersAsPattern rest

/-- The value of a property read as a pattern; its name stays. -/
def valueAsPattern : List Node → List Node
  | [] => []
  | node :: rest =>
      (if node.role = .value then asPattern node else node) :: valueAsPattern rest

end

mutual

/-- The names that a pattern binds, from left to right. -/
def boundNames : Node → List String
  | .mk (.identifier name) _ _ _ => [name]
  | .mk .rest _ _ parts => boundInEach parts
  | .mk .assignmentPattern _ _ parts => boundInFirst parts
  | .mk .arrayPattern _ _ parts => boundInEach parts
  | .mk .objectPattern _ _ parts => boundInMembers parts
  | _ => []

/-- The names that the patterns bind. -/
def boundInEach : List Node → List String
  | [] => []
  | node :: rest => boundNames node ++ boundInEach rest

/-- The names that the first pattern binds. -/
def boundInFirst : List Node → List String
  | [] => []
  | node :: _ => boundNames node

/-- The names that the members of an object pattern bind. -/
def boundInMembers : List Node → List String
  | [] => []
  | .mk (.property ..) _ _ parts :: rest => boundInValue parts ++ boundInMembers rest
  | node :: rest => boundNames node ++ boundInMembers rest

/-- The names that the value of a property binds. -/
def boundInValue : List Node → List String
  | [] => []
  | node :: rest => (if node.role = .value then boundNames node else []) ++ boundInValue rest

end

/-! ## Parameters -/

/-- What is wrong with a parameter, if the function turns out strict: the fault, and the
token it is reported at.  A parameter that was read as an expression has no token. -/
structure Culprit where
  /-- the token, if there is one -/
  token : Option Token
  deriving Repr, Inhabited

/-- Report a fault of a parameter. -/
def failParameter {α : Type} (culprit : Culprit) (fault : Fault) : Parse α :=
  match culprit.token with
  | some token => failAt token fault
  | none => failBehind fault

/-- What is known of the parameters read so far. -/
structure Parameters where
  /-- the parameters, last first -/
  reversed : List Node := []
  /-- all are plain names -/
  simple : Bool := true
  /-- the last fault against strictness found so far -/
  stricted : Option Culprit := none
  /-- the first name that strict code may not have, found in code that is not strict -/
  firstRestricted : Option Culprit := none
  /-- the fault of the last culprit -/
  fault : Option Fault := none
  /-- names bound so far -/
  names : List String := []
  deriving Repr, Inhabited

/-- Note one name that is bound. -/
def Parameters.bind (ps : Parameters) (strict : Bool) (culprit : Culprit) (name : String) :
    Parameters :=
  let repeated := ps.names.contains name
  let noted :=
    if strict then
      let ps :=
        if isRestricted name then
          { ps with stricted := some culprit, fault := some .strictParameterName }
        else ps
      if repeated then
        { ps with stricted := some culprit, fault := some .strictDuplicateParameter }
      else ps
    else if ps.firstRestricted.isNone then
      if isRestricted name then
        { ps with firstRestricted := some culprit, fault := some .strictParameterName }
      else if isStrictReserved name then
        { ps with firstRestricted := some culprit, fault := some .strictReservedWord }
      else if repeated then
        { ps with stricted := some culprit, fault := some .strictDuplicateParameter }
      else ps
    else ps
  { noted with names := name :: noted.names }

/-- A rest parameter, which is the last one. -/
def restParameter (g : Productions) : Parse Bound := do
  let start ← here
  expect "..."
  let (target, names) ← g.binding none
  if ← sees "=" then failBehind (.unexpectedToken "=")
  if !(← sees ")") then failBehind .parameterAfterRest
  return (← node start .rest [target], names)

/-- One more parameter. -/
def parameter (g : Productions) (ps : Parameters) : Parse Parameters := do
  let (param, tokens) ← if ← sees "..." then restParameter g else bindingWithDefault g none
  let strict ← strict
  let ps := tokens.foldl (fun ps t => ps.bind strict ⟨some t⟩ t.lexeme.text) ps
  return { ps with
    simple := ps.simple && param.isIdentifier
    reversed := param.withRole .param :: ps.reversed }

/-- Parameters up to the closing parenthesis, which is read. -/
def parametersRest (g : Productions) : (fuel : Nat) → Parameters → Parse Parameters
  | 0, _ => interrupt .nestsTooDeeply
  | fuel + 1, ps => do
      if (← sees ")") || (← seesEnd) then
        expect ")"
        return ps
      let ps ← parameter g ps
      if !(← sees ")") then expect ","
      parametersRest g fuel ps

/-- A parenthesised list of parameters; a comma may end it. -/
def parameters (g : Productions) (firstRestricted : Option Culprit) : Parse Parameters := do
  expect "("
  parametersRest g (← budget) { firstRestricted }

/-- The parameters from first to last. -/
def Parameters.list (ps : Parameters) : List Node := ps.reversed.reverse

end EditionSurvey.Script.Grammar
