/-
  Script/SyntaxError.lean --- why a script does not parse, and where.

  A cause is a constructor of `Fault`; its wording is `Fault.message`.  A `SyntaxError`
  is a fault with a line and a column.  Lines count from one (the empty script has only a
  line zero) and columns from one; a column is an integer, because it is counted from the
  line start of the token before, which may lie behind the token itself.
-/

set_option autoImplicit false

namespace EditionSurvey.Script

/-- Why a script is not a sentence of the grammar. -/
inductive Fault where
  /-- a token that no production admits here -/
  | unexpectedToken (text : String)
  /-- a construct that scripts do not have, reported without its token -/
  | unexpectedConstruct
  /-- the source ends inside a production -/
  | unexpectedEnd
  /-- an identifier that no production admits here -/
  | unexpectedIdentifier
  /-- a number that no production admits here -/
  | unexpectedNumber
  /-- a string that no production admits here -/
  | unexpectedString
  /-- a piece of a template that no production admits here -/
  | unexpectedQuasi (raw : String)
  /-- a word reserved for later editions -/
  | unexpectedReserved
  /-- a getter with parameters -/
  | getterArity
  /-- a setter without exactly one parameter -/
  | setterArity
  /-- a setter with a rest parameter -/
  | setterRest
  /-- a constructor that is an async method -/
  | constructorIsAsync
  /-- a constructor that is an accessor or a generator -/
  | constructorIsAccessor
  /-- a second constructor -/
  | duplicateConstructor
  /-- a static member named `prototype` -/
  | staticPrototype
  /-- a constant without a value -/
  | missingInitializer (kind : String)
  /-- a name bound twice by one catch parameter -/
  | duplicateBinding (name : String)
  /-- a second `__proto__` in one object literal -/
  | duplicateProto
  /-- an initializer in the head of an iteration over keys -/
  | loopInitializer (loop : String)
  /-- a generator as the body of a label -/
  | generatorInLegacyContext
  /-- `break` outside a loop or switch -/
  | illegalBreak
  /-- `continue` outside a loop -/
  | illegalContinue
  /-- `return` outside a function -/
  | illegalReturn
  /-- a strictness directive in a function whose parameters are not plain names -/
  | illegalStrictDirective
  /-- an escape inside a keyword -/
  | escapedKeyword
  /-- a `\x` without two hexadecimal digits -/
  | invalidHexEscape
  /-- assignment to something that is no place -/
  | invalidAssignmentTarget
  /-- iteration over keys into something that is no place -/
  | invalidForInTarget
  /-- iteration over values into something that is no place -/
  | invalidForOfTarget
  /-- a regular expression body that is not well formed -/
  | invalidPattern
  /-- a regular expression that is not closed on its line -/
  | unterminatedPattern
  /-- `let` as a name bound by `let` or `const` -/
  | letAsBinding
  /-- a second default clause in one switch -/
  | multipleDefaults
  /-- a line break after `throw` -/
  | newlineAfterThrow
  /-- a `try` with neither handler nor finalizer -/
  | missingCatchOrFinally
  /-- a parameter after the rest parameter -/
  | parameterAfterRest
  /-- a label inside a statement of the same label -/
  | labelRedeclared (name : String)
  /-- a jump to a label that is not in scope -/
  | unknownLabel (name : String)
  /-- a restricted name as catch parameter of strict code -/
  | strictCatchVariable
  /-- `delete` of a plain name in strict code -/
  | strictDelete
  /-- a function declaration where strict code admits only statements -/
  | strictFunction
  /-- a restricted name as name of a strict function -/
  | strictFunctionName
  /-- assignment to a restricted name in strict code -/
  | strictAssignment
  /-- a postfix step of a restricted name in strict code -/
  | strictPostfix
  /-- a prefix step of a restricted name in strict code -/
  | strictPrefix
  /-- `with` in strict code -/
  | strictWith
  /-- an octal number or escape in strict code -/
  | strictOctal
  /-- a parameter name used twice in strict code -/
  | strictDuplicateParameter
  /-- a restricted name as parameter of strict code -/
  | strictParameterName
  /-- a word reserved in strict code -/
  | strictReservedWord
  /-- a restricted name as variable of strict code -/
  | strictVariableName
  /-- an octal escape in a template -/
  | templateOctal
  deriving DecidableEq, Repr, Inhabited

/-- The wording of a fault. -/
def Fault.message : Fault → String
  | unexpectedToken text => s!"Unexpected token {text}"
  | unexpectedConstruct => "Unexpected token"
  | unexpectedEnd => "Unexpected end of input"
  | unexpectedIdentifier => "Unexpected identifier"
  | unexpectedNumber => "Unexpected number"
  | unexpectedString => "Unexpected string"
  | unexpectedQuasi raw => s!"Unexpected quasi {raw}"
  | unexpectedReserved => "Unexpected reserved word"
  | getterArity => "Getter must not have any formal parameters"
  | setterArity => "Setter must have exactly one formal parameter"
  | setterRest => "Setter function argument must not be a rest parameter"
  | constructorIsAsync => "Class constructor may not be an async method"
  | constructorIsAccessor => "Class constructor may not be an accessor"
  | duplicateConstructor => "A class may only have one constructor"
  | staticPrototype => "Classes may not have static property named prototype"
  | missingInitializer kind => s!"Missing initializer in {kind} declaration"
  | duplicateBinding name => s!"Duplicate binding {name}"
  | duplicateProto => "Duplicate __proto__ fields are not allowed in object literals"
  | loopInitializer loop => s!"{loop} loop variable declaration may not have an initializer"
  | generatorInLegacyContext => "Generator declarations are not allowed in legacy contexts"
  | illegalBreak => "Illegal break statement"
  | illegalContinue => "Illegal continue statement"
  | illegalReturn => "Illegal return statement"
  | illegalStrictDirective =>
      "Illegal 'use strict' directive in function with non-simple parameter list"
  | escapedKeyword => "Keyword must not contain escaped characters"
  | invalidHexEscape => "Invalid hexadecimal escape sequence"
  | invalidAssignmentTarget => "Invalid left-hand side in assignment"
  | invalidForInTarget => "Invalid left-hand side in for-in"
  | invalidForOfTarget => "Invalid left-hand side in for-loop"
  | invalidPattern => "Invalid regular expression"
  | unterminatedPattern => "Invalid regular expression: missing /"
  | letAsBinding => "let is disallowed as a lexically bound name"
  | multipleDefaults => "More than one default clause in switch statement"
  | newlineAfterThrow => "Illegal newline after throw"
  | missingCatchOrFinally => "Missing catch or finally after try"
  | parameterAfterRest => "Rest parameter must be last formal parameter"
  | labelRedeclared name => s!"Label '{name}' has already been declared"
  | unknownLabel name => s!"Undefined label '{name}'"
  | strictCatchVariable => "Catch variable may not be eval or arguments in strict mode"
  | strictDelete => "Delete of an unqualified identifier in strict mode."
  | strictFunction =>
      "In strict mode code, functions can only be declared at top level or inside a block"
  | strictFunctionName => "Function name may not be eval or arguments in strict mode"
  | strictAssignment => "Assignment to eval or arguments is not allowed in strict mode"
  | strictPostfix =>
      "Postfix increment/decrement may not have eval or arguments operand in strict mode"
  | strictPrefix =>
      "Prefix increment/decrement may not have eval or arguments operand in strict mode"
  | strictWith => "Strict mode code may not include a with statement"
  | strictOctal => "Octal literals are not allowed in strict mode."
  | strictDuplicateParameter => "Strict mode function may not have duplicate parameter names"
  | strictParameterName => "Parameter name eval or arguments is not allowed in strict mode"
  | strictReservedWord => "Use of future reserved word in strict mode"
  | strictVariableName => "Variable name may not be eval or arguments in strict mode"
  | templateOctal => "Octal literals are not allowed in template strings."

/-- A fault with the place it is reported at. -/
structure SyntaxError where
  /-- why the script does not parse -/
  fault : Fault
  /-- the line, from one -/
  line : Int
  /-- the column, from one -/
  column : Int
  deriving DecidableEq, Repr, Inhabited

/-- The text of an error names its line before the fault. -/
def SyntaxError.message (e : SyntaxError) : String :=
  s!"Line {e.line}: {e.fault.message}"

end EditionSurvey.Script
