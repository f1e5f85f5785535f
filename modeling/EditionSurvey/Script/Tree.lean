/-
  Script/Tree.lean --- syntax trees of scripts.

  A node has a form, which says what construct it is and carries what is not a node
  (names, operators, flags), the role it plays in its parent, a span, and its parts in the
  order in which they are examined.  The placeholder for a parenthesised parameter list
  that no arrow followed has no span.
-/

set_option autoImplicit false

namespace EditionSurvey.Script

/-- Where a node stands: offsets of its first character and behind its last one, and the
line and column it is reported at.  The column counts from zero and can be negative for a
node that opens with a string over several lines. -/
structure Span where
  /-- offset of the first character -/
  start : Nat
  /-- offset behind the last character -/
  stop : Nat
  /-- the line, from one -/
  line : Int
  /-- the column, from zero -/
  column : Int
  deriving DecidableEq, Repr, Inhabited

/-- What a node is to its parent. -/
inductive Role where
  /-- the callee of a call -/
  | callee
  /-- an argument of a call -/
  | argument
  /-- a parameter of a function -/
  | param
  /-- the body of a function, class, loop or label -/
  | body
  /-- the name of a member -/
  | key
  /-- the value of a member -/
  | value
  /-- a member of an object literal or pattern -/
  | property
  /-- the name behind a dot, or the expression in brackets -/
  | name
  /-- any other part -/
  | part
  deriving DecidableEq, Repr, Inhabited

/-- What kind of member a property is. -/
inductive PropertyKind where
  /-- a value -/
  | init
  /-- a getter -/
  | getter
  /-- a setter -/
  | setter
  deriving DecidableEq, Repr, Inhabited

/-- What construct a node is. -/
inductive Form where
  /-- a whole script -/
  | program
  /-- statements in braces -/
  | block
  /-- a lone semicolon -/
  | emptyStatement
  /-- an expression as a statement -/
  | expressionStatement
  /-- a string that opens a body, as written between its quotes -/
  | directive (text : String)
  /-- a choice -/
  | ifStatement
  /-- a loop with its test before the body -/
  | whileLoop
  /-- a loop with its test behind the body -/
  | doWhileLoop
  /-- a counting loop -/
  | forLoop
  /-- a loop over keys -/
  | forInLoop
  /-- a loop over values -/
  | forOfLoop
  /-- leaving a loop, a choice or a label -/
  | breakStatement
  /-- going on with the next round -/
  | continueStatement
  /-- leaving a function -/
  | returnStatement
  /-- raising a value -/
  | throwStatement
  /-- a body that looks names up in a value -/
  | withStatement
  /-- a choice by cases -/
  | switchStatement
  /-- one case, or the default -/
  | switchCase (isDefault : Bool)
  /-- a body with a handler, an epilogue or both -/
  | tryStatement
  /-- the handler -/
  | catchClause
  /-- a statement with a label -/
  | labeled
  /-- a stop for a debugger -/
  | debuggerStatement
  /-- declarations behind `var`, `let` or `const` -/
  | variables (kind : String)
  /-- one declared name or pattern -/
  | declarator (hasInit : Bool)
  /-- a function with the word `function` -/
  | function (declared async generator : Bool)
  /-- an arrow function -/
  | arrow (async expression : Bool)
  /-- a class -/
  | classLike (declared : Bool)
  /-- the members of a class -/
  | classBody
  /-- a member of a class -/
  | method (computed isStatic : Bool)
  /-- a name -/
  | identifier (name : String)
  /-- a number, string or literal word as written; for a string also what it reads as -/
  | literal (raw : String) (text : Option String)
  /-- a regular expression literal -/
  | pattern (flags : String)
  /-- a template literal -/
  | template
  /-- a text part of a template, the last one or not -/
  | quasi (tail : Bool)
  /-- a template behind the function that reads it -/
  | taggedTemplate
  /-- the word `this` -/
  | this
  /-- the word `super` -/
  | super
  /-- the word `import` as a callee -/
  | importCall
  /-- the pair `new.target` -/
  | metaProperty
  /-- an array literal -/
  | array
  /-- an object literal -/
  | object
  /-- a member of an object literal or pattern -/
  | property (kind : PropertyKind) (computed isMethod shorthand : Bool)
  /-- a value whose elements are put in its place -/
  | spread
  /-- a pattern for the elements of a value -/
  | arrayPattern
  /-- a pattern for the members of a value -/
  | objectPattern
  /-- a pattern for all that is left -/
  | rest
  /-- a pattern with a default -/
  | assignmentPattern
  /-- expressions with commas between them -/
  | sequence
  /-- an operator before its operand -/
  | unary (operator : String)
  /-- an increment or decrement -/
  | update (operator : String)
  /-- waiting for a value -/
  | await
  /-- handing a value out of a generator -/
  | yield (hasArgument : Bool)
  /-- an operator between two operands -/
  | binary (operator : String)
  /-- an operator that may leave its second operand alone -/
  | logical (operator : String)
  /-- an assignment -/
  | assignment (operator : String)
  /-- a choice between two expressions -/
  | conditional
  /-- a call -/
  | call
  /-- a call that makes an object -/
  | new
  /-- a member of a value, by name or in brackets -/
  | member (computed : Bool)
  /-- a parenthesised parameter list that waits for its arrow -/
  | arrowHead (async : Bool)
  deriving DecidableEq, Repr, Inhabited

/-- A syntax tree. -/
inductive Node where
  /-- a construct with its place and its parts -/
  | mk (form : Form) (role : Role) (span : Option Span) (parts : List Node)
  deriving Repr, Inhabited

namespace Node

/-- What construct the node is. -/
def form : Node → Form
  | mk form .. => form

/-- What the node is to its parent. -/
def role : Node → Role
  | mk _ role .. => role

/-- Where the node stands. -/
def span : Node → Option Span
  | mk _ _ span _ => span

/-- The nodes held by the node, in the order in which they are examined. -/
def parts : Node → List Node
  | mk _ _ _ parts => parts

/-- The node in another role. -/
def withRole (role : Role) : Node → Node
  | mk form _ span parts => mk form role span parts

/-- The parts that play the role. -/
def partsAs (node : Node) (role : Role) : List Node :=
  node.parts.filter fun part => part.role = role

/-- Offset of the first character. -/
def start? (node : Node) : Option Nat := node.span.map (·.start)

/-- Offset behind the last character. -/
def stop? (node : Node) : Option Nat := node.span.map (·.stop)

/-- The name, if the node is an identifier. -/
def name? (node : Node) : Option String :=
  match node.form with
  | .identifier name => some name
  | _ => none

/-- Whether the node is an identifier. -/
def isIdentifier (node : Node) : Bool := node.name?.isSome

/-- Number of nodes of the tree. -/
def size : Node → Nat
  | mk _ _ _ parts => 1 + sizes parts
where
  /-- Number of nodes in a list of trees. -/
  sizes : List Node → Nat
    | [] => 0
    | node :: rest => size node + sizes rest

/-- The node itself and all nodes below it, each before its parts. -/
def preorder : Node → List Node
  | mk form role span parts => mk form role span parts :: preorders parts
where
  /-- The nodes of a list of trees, tree by tree. -/
  preorders : List Node → List Node
    | [] => []
    | node :: rest => preorder node ++ preorders rest

end Node

end EditionSurvey.Script
