/-
  Script/Feature.lean --- constructs that not every edition has, and the constructs that a
  node depends on.

  `features` lists them for one node.  Most follow from the form of the node; a trailing
  comma is found in the source, because the tree does not hold it.
-/
import EditionSurvey.Script.Tree
import EditionSurvey.Edition

set_option autoImplicit false

namespace EditionSurvey.Script

/-- A construct that came with some edition. -/
inductive Feature where
  /-- a function that may wait -/
  | asyncFunction
  /-- a function that hands values out one by one -/
  | generatorFunction
  /-- a comma behind the last parameter -/
  | parameterComma
  /-- a comma behind the last argument -/
  | argumentComma
  /-- a function written with an arrow -/
  | arrowFunction
  /-- a class as a declaration -/
  | classDeclaration
  /-- a class as an expression -/
  | classExpression
  /-- the parent of a class -/
  | superReference
  /-- a text with substitutions -/
  | templateLiteral
  /-- such a text behind a function that reads it -/
  | taggedTemplate
  /-- a pattern for elements -/
  | arrayDestructuring
  /-- a pattern for members -/
  | objectDestructuring
  /-- a value for what is missing -/
  | defaultValue
  /-- a pattern for all that is left -/
  | restElement
  /-- a value whose elements are put in its place -/
  | spreadElement
  /-- a loop over values -/
  | forOfLoop
  /-- handing a value out -/
  | yieldExpression
  /-- the constructor that was called -/
  | newTarget
  /-- waiting for a value -/
  | awaitExpression
  /-- a rest or a spread among the members of an object -/
  | objectRestSpread
  /-- a comma behind the last member of an object -/
  | objectComma
  /-- a variable of a block, by the word that declares it -/
  | blockDeclaration (kind : String)
  /-- a member written as a method -/
  | methodShorthand
  /-- a member whose name is its value -/
  | shorthandProperty
  /-- a name in brackets -/
  | computedName
  /-- a reserved word as a name -/
  | reservedName
  /-- a getter or setter -/
  | accessorProperty
  /-- a power -/
  | exponentiation
  /-- an assignment of a power -/
  | exponentiationAssignment
  /-- a number with a binary or octal mark -/
  | prefixedNumber
  /-- a flag of a regular expression -/
  | patternFlag (flag : Char)
  deriving DecidableEq, Repr, Inhabited

/-- How a construct is called. -/
def Feature.description : Feature → String
  | asyncFunction => "async function"
  | generatorFunction => "generator function"
  | parameterComma => "trailing comma in parameter list"
  | argumentComma => "trailing comma in argument list"
  | arrowFunction => "arrow function"
  | classDeclaration => "class declaration"
  | classExpression => "class expression"
  | superReference => "super"
  | templateLiteral => "template literal"
  | taggedTemplate => "tagged template"
  | arrayDestructuring => "array destructuring"
  | objectDestructuring => "object destructuring"
  | defaultValue => "default value"
  | restElement => "rest element"
  | spreadElement => "spread element"
  | forOfLoop => "for-of loop"
  | yieldExpression => "yield expression"
  | newTarget => "new.target"
  | awaitExpression => "await expression"
  | objectRestSpread => "object rest/spread"
  | objectComma => "trailing comma in object literal"
  | blockDeclaration kind => s!"'{kind}' declaration"
  | methodShorthand => "method shorthand"
  | shorthandProperty => "shorthand property"
  | computedName => "computed property name"
  | reservedName => "reserved word as property name"
  | accessorProperty => "accessor property"
  | exponentiation => "exponentiation operator"
  | exponentiationAssignment => "exponentiation assignment"
  | prefixedNumber => "binary/octal literal"
  | patternFlag flag => s!"regular expression flag '{flag}'"

/-- The edition that brought a construct. -/
def Feature.edition : Feature → Int
  | objectComma | reservedName | accessorProperty => 5
  | exponentiation | exponentiationAssignment => 7
  | asyncFunction | parameterComma | argumentComma | awaitExpression => 8
  | objectRestSpread => 9
  | _ => 6

/-- Words that the third edition does not admit as the name of a property. -/
def reservedPropertyNames : List String :=
  ["break", "case", "catch", "class", "const", "continue", "debugger", "default", "delete",
   "do", "else", "enum", "export", "extends", "false", "finally", "for", "function", "if",
   "import", "in", "instanceof", "new", "null", "return", "super", "switch", "this", "throw",
   "true", "try", "typeof", "var", "void", "while", "with"]

/-! ## Trailing commas -/

/-- Whether a bracketed comment that is open is closed somewhere. -/
def closesComment : List Char → Bool
  | [] => false
  | '*' :: '/' :: _ => true
  | _ :: rest => closesComment rest

/-- What a text is in, while its comments are left out. -/
inductive CommentState where
  /-- outside comments -/
  | outside
  /-- in a comment up to the line feed -/
  | line
  /-- in a bracketed comment that is closed later -/
  | block
  deriving DecidableEq

/-- Whether a comma stands in a text outside comments.  A bracketed comment that is not
closed is no comment. -/
def hasComma : CommentState → List Char → Bool
  | _, [] => false
  | .outside, ',' :: _ => true
  | .outside, '/' :: '*' :: rest =>
      if closesComment rest then hasComma .block rest else hasComma .outside ('*' :: rest)
  | .outside, '/' :: '/' :: rest => hasComma .line rest
  | .outside, _ :: rest => hasComma .outside rest
  | .line, '\n' :: rest => hasComma .outside rest
  | .line, _ :: rest => hasComma .line rest
  | .block, '*' :: '/' :: rest => hasComma .outside rest
  | .block, _ :: rest => hasComma .block rest

/-- Whether a comma follows the last of the items before the offset. -/
def trailingComma (source : Array Char) (items : List Node) (stop : Option Nat) : Bool :=
  match items.getLast?.bind Node.stop?, stop with
  | some from_, some stop => hasComma .outside (source.extract from_ stop).toList
  | _, _ => false

/-! ## Features of a node -/

/-- The features among the candidates whose condition holds. -/
def given (candidates : List (Bool × Feature)) : List Feature :=
  (candidates.filter (·.1)).map (·.2)

/-- Whether the node is a word that the third edition does not admit as a name. -/
def isReservedName (node : Node) : Bool :=
  (node.name?.map reservedPropertyNames.contains).getD false

/-- Whether some part in the role is such a word. -/
def hasReservedName (node : Node) (role : Role) : Bool :=
  (node.partsAs role).any isReservedName

/-- Whether a member of an object makes it a rest or spread. -/
def isRestOrSpread (node : Node) : Bool := node.form = .spread || node.form = .rest

/-- Whether a trailing comma stands behind the parameters of a function. -/
def hasParameterComma (source : Array Char) (node : Node) : Bool :=
  trailingComma source (node.partsAs .param) ((node.partsAs .body).head?.bind Node.start?)

/-- Whether a trailing comma stands behind the arguments of a call. -/
def hasArgumentComma (source : Array Char) (node : Node) : Bool :=
  trailingComma source (node.partsAs .argument) node.stop?

/-- Whether a number is written with a binary or octal mark. -/
def isPrefixedNumber (raw : String) : Bool :=
  match raw.toList with
  | '0' :: mark :: _ => "bBoO".toList.contains mark
  | _ => false

/-- The constructs that the node itself depends on, in the order in which they are
reported. -/
def features (source : Array Char) (node : Node) : List Feature :=
  match node.form with
  | .function _ isAsync isGenerator =>
      given [(isAsync, .asyncFunction), (isGenerator, .generatorFunction),
        (hasParameterComma source node, .parameterComma)]
  | .arrow isAsync _ =>
      given [(isAsync, .asyncFunction), (hasParameterComma source node, .parameterComma),
        (true, .arrowFunction)]
  | .call | .new => given [(hasArgumentComma source node, .argumentComma)]
  | .classLike declared => [if declared then .classDeclaration else .classExpression]
  | .super => [.superReference]
  | .template => [.templateLiteral]
  | .taggedTemplate => [.taggedTemplate]
  | .arrayPattern => [.arrayDestructuring]
  | .objectPattern =>
      given [(true, .objectDestructuring),
        ((node.partsAs .property).any isRestOrSpread, .objectRestSpread)]
  | .object =>
      given [((node.partsAs .property).any isRestOrSpread, .objectRestSpread),
        (trailingComma source (node.partsAs .property) node.stop?, .objectComma)]
  | .assignmentPattern => [.defaultValue]
  | .rest => [.restElement]
  | .spread => [.spreadElement]
  | .forOfLoop => [.forOfLoop]
  | .yield _ => [.yieldExpression]
  | .metaProperty => [.newTarget]
  | .await => [.awaitExpression]
  | .variables kind => given [(kind == "let" || kind == "const", .blockDeclaration kind)]
  | .property kind computed isMethod shorthand =>
      given [(isMethod, .methodShorthand), (!isMethod && shorthand, .shorthandProperty),
        (computed, .computedName), (!computed && hasReservedName node .key, .reservedName),
        (kind ≠ .init, .accessorProperty)]
  | .member computed => given [(!computed && hasReservedName node .name, .reservedName)]
  | .binary operator => given [(operator == "**", .exponentiation)]
  | .assignment operator => given [(operator == "**=", .exponentiationAssignment)]
  | .literal raw _ => given [(isPrefixedNumber raw, .prefixedNumber)]
  | .pattern flags =>
      if flags.toList.contains 'u' then [.patternFlag 'u']
      else if flags.toList.contains 'y' then [.patternFlag 'y']
      else []
  | _ => []

end EditionSurvey.Script
