/-
  Script/Scanner.lean --- the next token of a script.

  A scanner is a cursor with the open braces around it: a closing brace ends a template
  substitution or a block, whichever was opened last.  `Scanner.lex` gives the token that
  starts at the cursor; blanks before it have been skipped.  Each reader below stands for
  one class of tokens and fails with the place that the fault is reported at.
-/
import EditionSurvey.Script.Cursor
import EditionSurvey.Script.Token
import EditionSurvey.Script.Pattern

set_option autoImplicit false

namespace EditionSurvey.Script

/-- What an open brace belongs to. -/
inductive Brace where
  /-- a block, an object or a class -/
  | block
  /-- a substitution in a template -/
  | substitution
  deriving DecidableEq, Repr

/-- A place in the source with the braces open around it. -/
structure Scanner where
  /-- the place -/
  cursor : Cursor
  /-- open braces, innermost first -/
  braces : List Brace
  /-- number of characters of the source -/
  size : Nat
  deriving DecidableEq, Repr, Inhabited

/-- The scanner at the start of a source.  An empty source has no line. -/
def Scanner.start (source : List Char) : Scanner where
  cursor := { rest := source, offset := 0, line := if source.isEmpty then 0 else 1, lineStart := 0 }
  braces := []
  size := source.length

/-- The token between two places. -/
def Cursor.token (start stop : Cursor) (lexeme : Lexeme) : Token where
  lexeme := lexeme
  start := start.offset
  stop := stop.offset
  line := stop.line
  lineStart := stop.lineStart

/-- The text between two places. -/
def Cursor.spelling (start stop : Cursor) : String := String.ofList (start.textTo stop)

/-! ## Escapes -/

/-- Up to `count` hexadecimal digits: their value if there are `count`, and the place
behind the ones that were there. -/
def Cursor.hexDigits (c : Cursor) : (count : Nat) → (value : Nat) → Option Nat × Cursor
  | 0, value => (some value, c)
  | count + 1, value =>
      match hexValue? c.peek with
      | some d => Cursor.hexDigits c.next count (value * 16 + d)
      | none => (none, c)

/-- The digits of a braced code point: the value, the first character that is no digit,
and the place behind it. -/
def bracedDigits (c : Cursor) (value : Nat) : List Char → Nat × Option Char × Cursor
  | [] => (value, none, c)
  | d :: rest =>
      match hexValue? d with
      | some v => bracedDigits c.next (value * 16 + v) rest
      | none => (value, some d, c.next)

/-- A code point in braces, behind the opening brace. -/
def Cursor.bracedPoint (c : Cursor) : Except SyntaxError (Nat × Cursor) :=
  if c.peek = '\x7d' then .error c.illegal
  else
    match bracedDigits c 0 c.rest with
    | (value, some '\x7d', after) =>
        if value ≤ 0x10FFFF then .ok (value, after) else .error after.illegal
    | (_, _, after) => .error after.illegal

/-- The character of a code point; a surrogate has none and reads as the replacement
character.  A name with a surrogate could not be printed, so what is said of printing is said of
scripts that escape none (`FileTree.ScriptsPaired`). -/
def charOfPoint (point : Nat) : Char :=
  if point.isValidChar then Char.ofNat point else '\uFFFD'

/-- An escaped character of a word, behind its backslash.  A code of four digits must
satisfy the test; a code point in braces need not. -/
def Cursor.wordEscape (c : Cursor) (admits : Nat → Bool) : Except SyntaxError (Char × Cursor) :=
  if c.peek ≠ 'u' then .error c.illegal
  else if c.next.peek = '\x7b' then do
    let (point, after) ← c.next.next.bracedPoint
    return (charOfPoint point, after)
  else
    match c.next.hexDigits 4 0 with
    | (some point, after) =>
        if point ≠ 0x5C && admits point then .ok (charOfPoint point, after)
        else .error after.illegal
    | (none, after) => .error after.illegal

/-! ## Words -/

/-- The rest of a word with escapes; `reversed` is what was read of it. -/
def escapedWord : (fuel : Nat) → Cursor → List Char → Except SyntaxError (List Char × Cursor)
  | 0, c, reversed => .ok (reversed.reverse, c)
  | fuel + 1, c, reversed =>
      match c.rest with
      | [] => .ok (reversed.reverse, c)
      | d :: _ =>
          if d = '\\' then do
            let (e, after) ← c.next.wordEscape isIdentifierPartPoint
            escapedWord fuel after (e :: reversed)
          else if isIdentifierPart d then escapedWord fuel c.next (d :: reversed)
          else .ok (reversed.reverse, c)

/-- The letters of a word that starts here, and the place behind it. -/
def Scanner.wordLetters (s : Scanner) : Except SyntaxError (List Char × Cursor) :=
  let c := s.cursor
  let after := c.next.skipWhile fun d => isIdentifierPart d && d ≠ '\\'
  if c.peek = '\\' then do
    let (e, after) ← c.next.wordEscape isIdentifierStartPoint
    escapedWord s.size after [e]
  else if after.peek = '\\' then escapedWord (s.size + 1) c []
  else .ok (c.textTo after, after)

/-- A name or a reserved word.  A word of one letter is a name, and a reserved word is
written without escapes. -/
def Scanner.word (s : Scanner) : Except SyntaxError (Token × Scanner) := do
  let (letters, after) ← s.wordLetters
  let word := String.ofList letters
  let lexeme := if letters.length = 1 then .identifier word else Lexeme.ofWord word
  match lexeme with
  | .identifier _ => pure ()
  | _ =>
      if s.cursor.offset + letters.length ≠ after.offset then
        throw { fault := .escapedKeyword, line := after.line,
                column := (s.cursor.offset : Int) - after.lineStart + 1 }
  return (s.cursor.token after lexeme, { s with cursor := after })

/-! ## Punctuators -/

/-- Punctuators of two to four characters that start with none of the brackets. -/
def longPunctuators : List String :=
  [">>>=", "===", "!==", ">>>", "<<=", ">>=", "**=", "&&", "||", "==", "!=", "+=", "-=", "*=",
   "/=", "++", "--", "<<", ">>", "&=", "|=", "^=", "%=", "<=", ">=", "=>", "**"]

/-- Whether the source goes on with the text. -/
def Cursor.startsWith (c : Cursor) (text : String) : Bool := text.toList.isPrefixOf c.rest

/-- The longest punctuator that starts here. -/
def Cursor.punctuator? (c : Cursor) : Option String :=
  let first := c.peek
  if "(){};,[]:?~".toList.contains first then some (String.singleton first)
  else if first = '.' then some (if c.startsWith "..." then "..." else ".")
  else
    match longPunctuators.find? c.startsWith with
    | some mark => some mark
    | none =>
        if "<>=!+-*%&|^/".toList.contains first then some (String.singleton first) else none

/-- A punctuator.  An opening brace opens a block; a closing one closes what was opened
last. -/
def Scanner.punctuator (s : Scanner) : Except SyntaxError (Token × Scanner) :=
  match s.cursor.punctuator? with
  | none => .error s.cursor.illegal
  | some mark =>
      let after := s.cursor.skip mark.length
      let braces :=
        if mark == "\x7b" then Brace.block :: s.braces
        else if mark == "\x7d" then s.braces.tail
        else s.braces
      .ok (s.cursor.token after (.punctuator mark), { s with cursor := after, braces })

/-! ## Numbers -/

/-- Behind a number there is no name; behind a binary or legacy number no digit either. -/
def Cursor.endNumber (c : Cursor) (digitsToo : Bool) : Except SyntaxError Cursor :=
  if isIdentifierStart c.peek || (digitsToo && isDecimalDigit c.peek) then .error c.illegal
  else .ok c

/-- At least one digit of a class. -/
def Cursor.someDigits (c : Cursor) (isDigit : Char → Bool) : Except SyntaxError Cursor :=
  let after := c.skipWhile isDigit
  if after.offset = c.offset then .error after.illegal else .ok after

/-- Whether a number with a leading zero is octal, from the digit behind the zero: the
first character that is no octal digit is no `8` or `9`. -/
def readsAsOctal : List Char → Bool
  | [] => true
  | c :: rest =>
      if c = '8' || c = '9' then false
      else if isOctalDigit c then readsAsOctal rest
      else true

/-- The part of a decimal number from its point on. -/
def Cursor.fraction (c : Cursor) : Except SyntaxError Cursor :=
  let c := if c.peek = '.' then c.next.skipWhile isDecimalDigit else c
  if c.peek = 'e' || c.peek = 'E' then
    let c := c.next
    let c := if c.peek = '+' || c.peek = '-' then c.next else c
    if isDecimalDigit c.peek then (c.skipWhile isDecimalDigit).endNumber false
    else .error c.illegal
  else c.endNumber false

/-- The place behind a number, and whether it has the legacy octal spelling. -/
def Cursor.number (c : Cursor) : Except SyntaxError (Cursor × Bool) := do
  if c.peek = '0' then
    let mark := c.next.peek
    if mark = 'x' || mark = 'X' then
      return (← (← c.next.next.someDigits isHexDigit).endNumber false, false)
    else if mark = 'b' || mark = 'B' then
      return (← (← c.next.next.someDigits fun d => d = '0' || d = '1').endNumber true, false)
    else if mark = 'o' || mark = 'O' then
      return (← (← c.next.next.someDigits isOctalDigit).endNumber true, false)
    else if isOctalDigit mark && readsAsOctal c.rest.tail.tail then
      return (← (c.next.skipWhile isOctalDigit).endNumber true, true)
  return (← (c.skipWhile isDecimalDigit).fraction, false)

/-- A number. -/
def Scanner.number (s : Scanner) : Except SyntaxError (Token × Scanner) := do
  let (after, octal) ← s.cursor.number
  return (s.cursor.token after (.number (s.cursor.spelling after) octal),
    { s with cursor := after })

/-! ## Strings -/

/-- The value of an octal digit. -/
def octalValue (c : Char) : Nat := c.toNat - '0'.toNat

/-- An octal escape, behind its first digit: the character, whether the escape is more
than a lone zero, and the place behind it.  Three digits are read from `0` to `3` on. -/
def Cursor.octalEscape (c : Cursor) (first : Char) : Char × Bool × Cursor :=
  if isOctalDigit c.peek then
    let value := octalValue first * 8 + octalValue c.peek
    let c := c.next
    if first ≤ '3' && isOctalDigit c.peek then
      (Char.ofNat (value * 8 + octalValue c.peek), true, c.next)
    else (Char.ofNat value, true, c)
  else (Char.ofNat (octalValue first), first ≠ '0', c)

/-- The character of an escape of one letter. -/
def simpleEscape (c : Char) : Char :=
  match c with
  | 'n' => '\n'
  | 'r' => '\r'
  | 't' => '\t'
  | 'b' => '\x08'
  | 'f' => '\x0c'
  | 'v' => '\x0b'
  | _ => c

/-- A code point behind `\u`. -/
def Cursor.pointEscape (c : Cursor) : Except SyntaxError (Char × Cursor) :=
  if c.peek = '\x7b' then do
    let (point, after) ← c.next.bracedPoint
    return (charOfPoint point, after)
  else
    match c.hexDigits 4 0 with
    | (some point, after) => .ok (charOfPoint point, after)
    | (none, after) => .error after.illegal

/-- A code of two digits behind `\x`. -/
def Cursor.byteEscape (c : Cursor) : Except SyntaxError (Char × Cursor) :=
  match c.hexDigits 2 0 with
  | (some point, after) => .ok (charOfPoint point, after)
  | (none, after) => .error (after.fault .invalidHexEscape)

/-- What was read of a string. -/
structure StringText where
  /-- the characters, last first -/
  reversed : List Char := []
  /-- whether an octal escape was read -/
  octal : Bool := false

/-- The inside of a string, up to its closing quote.  The first component of the result
tells whether there was one. -/
def stringText (quote : Char) : (fuel : Nat) → Cursor → StringText →
    Except SyntaxError (Bool × StringText × Cursor)
  | 0, c, text => .ok (false, text, c)
  | fuel + 1, c, text =>
      match c.rest with
      | [] => .ok (false, text, c)
      | d :: _ =>
          let c := c.next
          if d = quote then .ok (true, text, c)
          else if d = '\\' then
            let e := c.peek
            let c := c.next
            if isLineTerminator e then stringText quote fuel (c.afterTerminator e) text
            else if e = 'u' then do
              let (f, c) ← c.pointEscape
              stringText quote fuel c { text with reversed := f :: text.reversed }
            else if e = 'x' then do
              let (f, c) ← c.byteEscape
              stringText quote fuel c { text with reversed := f :: text.reversed }
            else if e = '8' || e = '9' then .error c.illegal
            else if isOctalDigit e then
              let (f, octal, c) := c.octalEscape e
              stringText quote fuel c
                { reversed := f :: text.reversed, octal := text.octal || octal }
            else stringText quote fuel c { text with reversed := simpleEscape e :: text.reversed }
          else if isLineTerminator d then .ok (false, text, c)
          else stringText quote fuel c { text with reversed := d :: text.reversed }

/-- A string.  One that is not closed is reported at its start, on the line reached. -/
def Scanner.string (s : Scanner) : Except SyntaxError (Token × Scanner) := do
  let (closed, text, after) ← stringText s.cursor.peek s.size s.cursor.next {}
  if !closed then throw { after with offset := s.cursor.offset : Cursor }.illegal
  let value := String.ofList text.reversed.reverse
  return (s.cursor.token after (.string (s.cursor.spelling after) value text.octal),
    { s with cursor := after })

/-! ## Templates -/

/-- How a piece of a template ends. -/
inductive TemplateEnd where
  /-- with a backtick -/
  | tail
  /-- with the opening of a substitution -/
  | substitution
  deriving DecidableEq

/-- The place behind an escape in a template, from behind the backslash.  A malformed `\u`
stands for itself. -/
def Cursor.templateEscape (c : Cursor) : Except SyntaxError Cursor :=
  let e := c.peek
  let c := c.next
  if isLineTerminator e then .ok (c.afterTerminator e)
  else if e = 'u' then
    if c.peek = '\x7b' then do
      let (_, after) ← c.next.bracedPoint
      return after
    else
      match c.hexDigits 4 0 with
      | (some _, after) => .ok after
      | (none, _) => .ok c
  else if e = 'x' then do
    let (_, after) ← c.byteEscape
    return after
  else if e = '0' then
    if isDecimalDigit c.peek then .error (c.fault .templateOctal) else .ok c
  else if isOctalDigit e then .error (c.fault .templateOctal)
  else .ok c

/-- The inside of a piece of a template, up to its end. -/
def templateText : (fuel : Nat) → Cursor → Except SyntaxError (TemplateEnd × Cursor)
  | 0, c => .error c.illegal
  | fuel + 1, c =>
      match c.rest with
      | [] => .error c.illegal
      | d :: _ =>
          let c := c.next
          if d = '`' then .ok (.tail, c)
          else if d = '$' && c.peek = '\x7b' then .ok (.substitution, c.next)
          else if d = '\\' then do templateText fuel (← c.templateEscape)
          else if isLineTerminator d then templateText fuel (c.afterTerminator d)
          else templateText fuel c

/-- A piece of a template, from its backtick or from the brace that closes a
substitution. -/
def Scanner.template (s : Scanner) : Except SyntaxError (Token × Scanner) := do
  let head := s.cursor.peek = '`'
  let (ending, after) ← templateText (s.size + 1) s.cursor.next
  let width := match ending with
    | .tail => 1
    | .substitution => 2
  let raw := (s.cursor.rest.drop 1).take (after.offset - width - (s.cursor.offset + 1))
  let outer := if head then s.braces else s.braces.tail
  let braces := match ending with
    | .tail => outer
    | .substitution => .substitution :: outer
  return (s.cursor.token after (.template (String.ofList raw) head (ending = .tail)),
    { s with cursor := after, braces })

/-! ## Regular expressions -/

/-- The body of a regular expression from behind its opening slash, up to its closing one.
`bracket` tells whether a slash is a member of a bracket. -/
def patternText : (fuel : Nat) → (bracket : Bool) → Cursor → Except SyntaxError Cursor
  | 0, _, c => .error (c.fault .unterminatedPattern)
  | fuel + 1, bracket, c =>
      match c.rest with
      | [] => .error (c.fault .unterminatedPattern)
      | d :: _ =>
          let c := c.next
          if d = '\\' then
            let e := c.peek
            let c := c.next
            if isLineTerminator e then .error (c.fault .unterminatedPattern)
            else patternText fuel bracket c
          else if isLineTerminator d then .error (c.fault .unterminatedPattern)
          else if bracket then patternText fuel (d ≠ ']') c
          else if d = '/' then .ok c
          else patternText fuel (d = '[') c

/-- The flags of a regular expression: characters of a word, without escapes.  A backslash
at the very end of the source counts as a flag. -/
def Cursor.patternFlags (c : Cursor) : Except SyntaxError Cursor :=
  let after := c.skipWhile fun d => isIdentifierPart d && d ≠ '\\'
  if after.peek = '\\' then
    let after := after.next
    if after.atEnd then .ok after
    else if after.peek = 'u' then
      match after.next.hexDigits 4 0 with
      | (some _, stop) => .error stop.illegal
      | (none, _) => .error after.next.illegal
    else .error after.illegal
  else .ok after

/-- A regular expression, from its opening slash. -/
def Scanner.pattern (s : Scanner) : Except SyntaxError (Token × Scanner) := do
  let afterBody ← patternText (s.size + 1) false s.cursor.next
  let after ← afterBody.patternFlags
  let body := (s.cursor.textTo afterBody).tail.dropLast
  if !Pattern.accepts body then throw (after.fault .invalidPattern)
  let lexeme := .pattern (s.cursor.spelling after) (afterBody.spelling after)
  return (s.cursor.token after lexeme, { s with cursor := after })

/-! ## Any token -/

/-- The token that starts at the cursor. -/
def Scanner.lex (s : Scanner) : Except SyntaxError (Token × Scanner) :=
  let c := s.cursor
  if c.atEnd then .ok (c.token c .endOfSource, s)
  else
    let first := c.peek
    if isIdentifierStart first then s.word
    else if first = '\'' || first = '"' then s.string
    else if isDecimalDigit first || (first = '.' && isDecimalDigit c.peekNext) then s.number
    else if first = '`' || (first = '\x7d' && s.braces.head? = some .substitution) then s.template
    else s.punctuator

/-- Skip blanks, then read a token. -/
def Scanner.next (s : Scanner) : Except SyntaxError (Token × Scanner) := do
  let cursor ← s.cursor.skipBlanks
  Scanner.lex { s with cursor }

end EditionSurvey.Script
