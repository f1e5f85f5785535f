/-
  Script/Token.lean --- tokens of a script: what was written, and where.
-/
import EditionSurvey.Script.Character

set_option autoImplicit false

namespace EditionSurvey.Script

/-- What a token is, with the spelling that later stages look at. -/
inductive Lexeme where
  /-- the end of the source -/
  | endOfSource
  /-- a name, with its escapes resolved -/
  | identifier (name : String)
  /-- a reserved word -/
  | keyword (word : String)
  /-- `null` -/
  | nullWord
  /-- `true` or `false` -/
  | booleanWord (word : String)
  /-- a number as written; `octal` marks the legacy spelling with a leading zero -/
  | number (spelling : String) (octal : Bool)
  /-- a string as written and as read; `octal` marks an octal escape in it -/
  | string (spelling value : String) (octal : Bool)
  /-- a piece of a template as written; `head` if a backtick opens it and `tail` if one
  closes it -/
  | template (raw : String) (head tail : Bool)
  /-- a regular expression as written, and its flags -/
  | pattern (spelling flags : String)
  /-- an operator or a bracket -/
  | punctuator (mark : String)
  deriving DecidableEq, Repr, Inhabited

/-- A lexeme with its place.  `line` and `lineStart` describe the line on which the token
ends, which differs from the line of `start` for a string or template over several
lines. -/
structure Token where
  /-- what was written -/
  lexeme : Lexeme
  /-- offset of the first character -/
  start : Nat
  /-- offset behind the last character -/
  stop : Nat
  /-- line of the end -/
  line : Nat
  /-- offset at which that line starts -/
  lineStart : Nat
  deriving DecidableEq, Repr, Inhabited

/-- The text by which a token is compared and reported. -/
def Lexeme.text : Lexeme → String
  | .endOfSource => ""
  | .identifier name => name
  | .keyword word => word
  | .nullWord => "null"
  | .booleanWord word => word
  | .number spelling _ => spelling
  | .string _ value _ => value
  | .template raw _ _ => raw
  | .pattern spelling _ => spelling
  | .punctuator mark => mark

/-- Whether the token may stand as a name behind a dot. -/
def Lexeme.isName : Lexeme → Bool
  | .identifier _ | .keyword _ | .nullWord | .booleanWord _ => true
  | _ => false

/-- Whether the token may open the name of a property. -/
def Lexeme.opensPropertyName : Lexeme → Bool
  | .identifier _ | .keyword _ | .nullWord | .booleanWord _ | .number .. | .string .. => true
  | .punctuator mark => mark == "["
  | _ => false

/-- Whether the token is the name `word`. -/
def Token.isNamed (t : Token) (word : String) : Bool :=
  match t.lexeme with
  | .identifier name => name == word
  | _ => false

/-- Whether the token is a name. -/
def Token.isIdentifier (t : Token) : Bool :=
  match t.lexeme with
  | .identifier _ => true
  | _ => false

/-- Words that are reserved in every script. -/
def reservedWords : List String :=
  ["if", "in", "do", "var", "for", "new", "try", "let", "this", "else", "case", "void",
   "with", "enum", "while", "break", "catch", "throw", "const", "yield", "class", "super",
   "return", "typeof", "delete", "switch", "export", "import", "default", "finally",
   "extends", "function", "continue", "debugger", "instanceof"]

/-- Words that are reserved in strict code only. -/
def strictReservedWords : List String :=
  ["implements", "interface", "package", "private", "protected", "public", "static",
   "yield", "let"]

/-- Words that are reserved for later editions or for modules. -/
def futureReservedWords : List String := ["enum", "export", "import", "super"]

/-- Names that strict code may not bind or assign. -/
def restrictedNames : List String := ["eval", "arguments"]

/-- Whether strict code reserves the word. -/
def isStrictReserved (word : String) : Bool := strictReservedWords.contains word

/-- Whether strict code may not bind or assign the name. -/
def isRestricted (name : String) : Bool := restrictedNames.contains name

/-- The lexeme of a word: reserved words, the three literal words, and names. -/
def Lexeme.ofWord (word : String) : Lexeme :=
  if reservedWords.contains word then .keyword word
  else if word == "null" then .nullWord
  else if word == "true" || word == "false" then .booleanWord word
  else .identifier word

end EditionSurvey.Script
