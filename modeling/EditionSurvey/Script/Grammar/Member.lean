/-
  Script/Grammar/Member.lean --- members of object literals and of classes.
-/
import EditionSurvey.Script.Grammar.Function

set_option autoImplicit false

namespace EditionSurvey.Script.Grammar

/-- Whether the node names the property: a word or a string that reads so. -/
def isPropertyNamed (key : Node) (name : String) : Bool :=
  match key.form with
  | .identifier word => word == name
  | .literal _ (some text) => text == name
  | _ => false

/-- Whether the token ahead may open the name of a property. -/
def seesPropertyName : Parse Bool := do return (← ahead).lexeme.opensPropertyName

/-- Whether some of the punctuators is ahead. -/
def seesAny (marks : List String) : Parse Bool := do
  match (← ahead).lexeme with
  | .punctuator other => return marks.contains other
  | _ => return false

/-! ## Objects -/

/-- A spread element. -/
def spread (g : Productions) : Parse Node := do
  let start ← here
  expect "..."
  let argument ← inherit g.assignment
  node start .spread [argument]

/-- A member of an object, as far as its form and its value are known. -/
structure Member where
  /-- the name -/
  key : Node
  /-- the value -/
  value : Node
  /-- what kind of property it is -/
  kind : PropertyKind := .init
  /-- the name is an expression in brackets -/
  computed : Bool := false
  /-- the value is written as a method -/
  isMethod : Bool := false
  /-- the name is the value too -/
  shorthand : Bool := false
  /-- it sets the prototype -/
  setsProto : Bool := false

/-- The node of a member. -/
def Member.node (m : Member) (start : Mark) : Parse Node :=
  Grammar.node start (.property m.kind m.computed m.isMethod m.shorthand)
    [m.key.withRole .key, m.value.withRole .value]

/-- A member whose name is a name, behind that name: shorthand, with a default if it turns
out to be a pattern. -/
def shorthandMember (g : Productions) (start : Mark) (key : Node) (name : String) :
    Parse Member := do
  let id ← node start (.identifier name) []
  if ← sees "=" then
    let sign ← ahead
    modifyContext fun c => { c with pendingDefault := some sign }
    let _ ← advance
    let right ← isolate g.assignment
    let value ← node start .assignmentPattern [id, right]
    return { key, value, shorthand := true }
  else return { key, value := id, shorthand := true }

/-- A member behind its name: with a colon, as a method, or shorthand.  `token` is its
first token, and `hasProto` tells whether the prototype is set already. -/
def memberTail (g : Productions) (start : Mark) (token : Token) (key : Node)
    (computed isAsync hasProto : Bool) : Parse Member := do
  if (← sees ":") && !isAsync then
    let setsProto := !computed && isPropertyNamed key "__proto__"
    if setsProto && hasProto then failAhead .duplicateProto
    let _ ← advance
    let value ← inherit g.assignment
    return { key, value, computed, setsProto }
  else if ← sees "(" then
    let value ← if isAsync then asyncMethod g else plainMethod g
    return { key, value, computed, isMethod := true }
  else
    match token.lexeme with
    | .identifier name => return { ← shorthandMember g start key name with computed }
    | _ => unexpected (← advance)

/-- An accessor behind the word `get` or `set`. -/
def accessor (g : Productions) (kind : PropertyKind) : Parse Member := do
  let computed ← sees "["
  let key ← propertyName g
  let value ←
    if kind = .getter then
      setYield false
      getter g
    else setter g
  return { key, value, kind, computed }

/-- A generator method behind its star. -/
def generatorMember (g : Productions) : Parse Member := do
  let computed ← sees "["
  let key ← propertyName g
  let value ← generatorMethod g
  return { key, value, computed, isMethod := true }

/-- A member of an object whose first token is a name. -/
def namedMember (g : Productions) (start : Mark) (token : Token) (name : String)
    (hasProto : Bool) : Parse Member := do
  let _ ← advance
  let computed ← sees "["
  let isAsync := !(← lineBreak) && name == "async" && !(← seesAny [":", "(", "*", ","])
  let key ← if isAsync then propertyName g else node start (.identifier name) []
  let nameFollows ← seesPropertyName
  if !isAsync && name == "get" && nameFollows then accessor g .getter
  else if !isAsync && name == "set" && nameFollows then accessor g .setter
  else memberTail g start token key computed isAsync hasProto

/-- A member of an object, and whether it sets the prototype. -/
def objectMember (g : Productions) (hasProto : Bool) : Parse (Node × Bool) := do
  let start ← here
  let token ← ahead
  let member ←
    match token.lexeme with
    | .identifier name => namedMember g start token name hasProto
    | .punctuator "*" =>
        let _ ← advance
        if ← seesPropertyName then generatorMember g else unexpected (← ahead)
    | _ =>
        let computed ← sees "["
        let key ← propertyName g
        memberTail g start token key computed false hasProto
  return (← member.node start, member.setsProto)

/-- The members of an object up to its closing brace; a comma may end them. -/
def objectMembers (g : Productions) : (fuel : Nat) → (hasProto : Bool) → List Node →
    Parse (List Node)
  | 0, _, _ => interrupt .nestsTooDeeply
  | fuel + 1, hasProto, reversed => do
      if ← sees "\x7d" then return reversed.reverse
      let (member, setsProto) ←
        if ← sees "..." then pure (← spread g, false) else objectMember g hasProto
      if !(← sees "\x7d") then expect ","
      objectMembers g fuel (hasProto || setsProto) (member.withRole .property :: reversed)

/-- An object literal. -/
def objectLiteral (g : Productions) : Parse Node := do
  let start ← here
  expect "\x7b"
  let members ← objectMembers g (← budget) false []
  expect "\x7d"
  node start .object members

/-! ## Classes -/

/-- What a class member turns out to be. -/
inductive ClassMemberKind where
  /-- a method; `generator` if a star stands before it -/
  | method (generator : Bool)
  /-- a getter or setter -/
  | accessor
  deriving DecidableEq

/-- A member of a class while it is read: the token that its faults are reported at, its
name if one was read, and what was said before the name. -/
structure ClassMemberHead where
  /-- the token that faults are reported at -/
  token : Token
  /-- the name -/
  key : Option Node := none
  /-- the name is an expression in brackets -/
  computed : Bool := false
  /-- the member belongs to the class itself -/
  isStatic : Bool := false
  /-- the method is async -/
  isAsync : Bool := false

/-- The head of a class member: a star, or a name with `static` and `async` before it. -/
def classMemberHead (g : Productions) : Parse ClassMemberHead := do
  let token ← ahead
  if ← accept "*" then return { token }
  let computed ← sees "["
  let key ← propertyName g
  let mut head : ClassMemberHead := { token, key := some key, computed }
  if key.name? = some "static" && ((← seesPropertyName) || (← sees "*")) then
    let token ← ahead
    let computed ← sees "["
    if ← accept "*" then head := { token, key := some key, computed, isStatic := true }
    else head := { token, key := some (← propertyName g), computed, isStatic := true }
  if head.token.isNamed "async" && !(← lineBreak) then
    let follower := (← ahead).lexeme.text
    if follower ≠ ":" && follower ≠ "(" && follower ≠ "*" then
      let token ← ahead
      let key ← propertyName g
      head := { head with token, key := some key, isAsync := true }
      if token.isNamed "constructor" then failAt token .constructorIsAsync
  return head

/-- The value of a class member behind its head, with its kind and its final name. -/
def classMemberValue (g : Productions) (head : ClassMemberHead) :
    Parse (ClassMemberKind × Node × Node × Bool) := do
  let nameFollows ← seesPropertyName
  if head.token.isNamed "get" && nameFollows then
    let member ← accessor g .getter
    return (.accessor, member.key, member.value, member.computed)
  else if head.token.isNamed "set" && nameFollows then
    let member ← accessor g .setter
    return (.accessor, member.key, member.value, member.computed)
  else if head.token.lexeme = .punctuator "*" && nameFollows then
    let member ← generatorMember g
    return (.method true, member.key, member.value, member.computed)
  else
    match head.key with
    | some key =>
        if ← sees "(" then
          let value ← if head.isAsync then asyncMethod g else plainMethod g
          return (.method false, key, value, head.computed)
        else unexpected (← ahead)
    | none => unexpected (← ahead)

/-- A member of a class, and whether it is the constructor. -/
def classMember (g : Productions) (hasConstructor : Bool) : Parse (Node × Bool) := do
  let start ← here
  let head ← classMemberHead g
  let (kind, key, value, computed) ← classMemberValue g head
  if !computed && head.isStatic && isPropertyNamed key "prototype" then
    failAt head.token .staticPrototype
  let isConstructor := !computed && !head.isStatic && isPropertyNamed key "constructor"
  if isConstructor then
    if kind ≠ .method false then failAt head.token .constructorIsAccessor
    if hasConstructor then failAt head.token .duplicateConstructor
  let member ← node start (.method computed head.isStatic)
    [key.withRole .key, value.withRole .value]
  return (member, isConstructor)

/-- The members of a class up to its closing brace; semicolons between them say nothing. -/
def classMembers (g : Productions) : (fuel : Nat) → (hasConstructor : Bool) → List Node →
    Parse (List Node)
  | 0, _, _ => interrupt .nestsTooDeeply
  | fuel + 1, hasConstructor, reversed => do
      if ← sees "\x7d" then return reversed.reverse
      else if ← accept ";" then classMembers g fuel hasConstructor reversed
      else
        let (member, isConstructor) ← classMember g hasConstructor
        classMembers g fuel (hasConstructor || isConstructor) (member :: reversed)

/-- A class; its code is strict.  `name` reads the name. -/
def classOf (g : Productions) (declared : Bool) (name : Parse (Option Node)) : Parse Node := do
  let start ← here
  let outer := (← context).strict
  modifyContext fun c => { c with strict := true }
  expectKeyword "class"
  let id ← name
  let parent ←
    if ← seesKeyword "extends" then
      let _ ← advance
      pure (some (← isolate g.operand))
    else pure none
  let bodyStart ← here
  expect "\x7b"
  let members ← classMembers g (← budget) false []
  expect "\x7d"
  let body ← node bodyStart .classBody members
  modifyContext fun c => { c with strict := outer }
  node start (.classLike declared) (id.toList ++ parent.toList ++ [body.withRole .body])

/-- A class declaration. -/
def classDeclaration (g : Productions) : Parse Node :=
  classOf g true do return some (← bindingName none)

/-- A class expression, whose name may be missing. -/
def classExpression (g : Productions) : Parse Node :=
  classOf g false do
    if (← ahead).isIdentifier then return some (← bindingName none) else return none

end EditionSurvey.Script.Grammar
