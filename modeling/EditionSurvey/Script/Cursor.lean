/-
  Script/Cursor.lean --- a place in the source text: what is left to read, and the
  offset, line and line start reached.

  Reading past the end gives the null character and still counts an offset, so a cursor
  is total.  `skipBlanks` moves over blanks, line ends and comments.
-/
import EditionSurvey.Script.Character
import EditionSurvey.Script.SyntaxError

set_option autoImplicit false

namespace EditionSurvey.Script

/-- A place in the source. -/
structure Cursor where
  /-- the characters that are left -/
  rest : List Char
  /-- offset of the next character -/
  offset : Nat
  /-- current line, from one -/
  line : Nat
  /-- offset at which the current line starts -/
  lineStart : Nat
  deriving DecidableEq, Repr, Inhabited

namespace Cursor

/-- Whether all characters are read. -/
def atEnd (c : Cursor) : Bool := c.rest.isEmpty

/-- The next character, or the null character at the end. -/
def peek (c : Cursor) : Char := c.rest.headD '\x00'

/-- The character behind the next one, or the null character. -/
def peekNext (c : Cursor) : Char := c.rest.tail.headD '\x00'

/-- Move over `n` characters of the current line. -/
def skip (c : Cursor) (n : Nat) : Cursor :=
  { c with rest := c.rest.drop n, offset := c.offset + n }

/-- Move over one character of the current line. -/
def next (c : Cursor) : Cursor :=
  { c with rest := c.rest.tail, offset := c.offset + 1 }

/-- Begin a new line here. -/
def newLine (c : Cursor) : Cursor :=
  { c with line := c.line + 1, lineStart := c.offset }

/-- Move over a line end that starts with `c`; a carriage return takes a line feed with
it. -/
def afterTerminator (cursor : Cursor) (terminator : Char) : Cursor :=
  if terminator = '\r' && cursor.peek = '\n' then cursor.next.newLine else cursor.newLine

/-- Move to the first character that fails the test. -/
def skipWhile (p : Char → Bool) (c : Cursor) : Cursor :=
  go c.rest c.offset
where
  /-- The loop of `skipWhile`. -/
  go : List Char → Nat → Cursor
    | [], offset => { c with rest := [], offset }
    | d :: rest, offset =>
        if p d then go rest (offset + 1) else { c with rest := d :: rest, offset }

/-- The text between two places of which the first is not behind the second. -/
def textTo (start stop : Cursor) : List Char :=
  start.rest.take (stop.offset - start.offset)

/-- A fault at this place. -/
def fault (c : Cursor) (f : Fault) : SyntaxError :=
  { fault := f, line := c.line, column := (c.offset : Int) - c.lineStart + 1 }

/-- The fault of a text that is no token. -/
def illegal (c : Cursor) : SyntaxError := c.fault (.unexpectedToken "ILLEGAL")

end Cursor

/-- What lies between two tokens, while it is read. -/
inductive Gap where
  /-- between comments; `opening` if nothing but blanks and comments stands before on this
  line, so that `-->` opens a comment -/
  | blank (opening : Bool)
  /-- in a comment that ends with its line -/
  | line (opening : Bool)
  /-- in a bracketed comment -/
  | block (opening : Bool)
  deriving DecidableEq, Repr

/-- Move over blanks, line ends and comments.  A line comment opens with `//`, with `<!--`,
or with `-->` at the start of a line; it ends behind its line end.  Only an unclosed
bracketed comment fails, at the end of the source. -/
def skipGap : Gap → List Char → Nat → Nat → Nat → Except SyntaxError Cursor
  | .block _, [], offset, line, lineStart =>
      .error ({ rest := [], offset, line, lineStart : Cursor }).illegal
  | _, [], offset, line, lineStart => .ok { rest := [], offset, line, lineStart }
  | .blank opening, c :: rest, offset, line, lineStart =>
      if isWhiteSpace c then skipGap (.blank opening) rest (offset + 1) line lineStart
      else if isLineTerminator c then
        match c, rest with
        | '\r', '\n' :: more => skipGap (.blank true) more (offset + 2) (line + 1) (offset + 2)
        | _, more => skipGap (.blank true) more (offset + 1) (line + 1) (offset + 1)
      else
        match c, rest with
        | '/', '/' :: more => skipGap (.line true) more (offset + 2) line lineStart
        | '/', '*' :: more => skipGap (.block opening) more (offset + 2) line lineStart
        | '-', '-' :: '>' :: more =>
            if opening then skipGap (.line opening) more (offset + 3) line lineStart
            else .ok { rest := c :: rest, offset, line, lineStart }
        | '<', '!' :: '-' :: '-' :: more =>
            skipGap (.line opening) more (offset + 4) line lineStart
        | _, _ => .ok { rest := c :: rest, offset, line, lineStart }
  | .line opening, c :: rest, offset, line, lineStart =>
      if isLineTerminator c then
        match c, rest with
        | '\r', '\n' :: more =>
            skipGap (.blank opening) more (offset + 2) (line + 1) (offset + 2)
        | _, more => skipGap (.blank opening) more (offset + 1) (line + 1) (offset + 1)
      else skipGap (.line opening) rest (offset + 1) line lineStart
  | .block opening, c :: rest, offset, line, lineStart =>
      if isLineTerminator c then
        match c, rest with
        | '\r', '\n' :: more =>
            skipGap (.block opening) more (offset + 2) (line + 1) (offset + 2)
        | _, more => skipGap (.block opening) more (offset + 1) (line + 1) (offset + 1)
      else
        match c, rest with
        | '*', '/' :: more => skipGap (.blank opening) more (offset + 2) line lineStart
        | _, more => skipGap (.block opening) more (offset + 1) line lineStart
termination_by structural _ rest => rest

/-- Move to the next token or the end. -/
def Cursor.skipBlanks (c : Cursor) : Except SyntaxError Cursor :=
  skipGap (.blank (c.offset = 0)) c.rest c.offset c.line c.lineStart

end EditionSurvey.Script
