/-
  Yaml/Scalar.lean --- writing a text in a YAML file.

  A text is written as it is if it can be read back from that.  Otherwise it stands in
  single quotes, and in double quotes with escapes if it holds characters that have to be
  escaped or blanks next to a line break.  A line that has run past its width is folded at
  the next blank; what follows is indented.
-/
import EditionSurvey.Value.Shown
import EditionSurvey.Yaml.Ambiguous

set_option autoImplicit false

namespace EditionSurvey.Yaml

/-- The width past which lines are folded. -/
def lineWidth : Nat := 80

/-- A character that ends a line. -/
def isBreak (c : Char) : Bool := c = '\n' || c = '\x85' || c = '\u2028' || c = '\u2029'

/-- A character that may follow a mark that would otherwise be part of a text. -/
def isSeparating (c : Char) : Bool :=
  c = '\x00' || c = ' ' || c = '\t' || c = '\r' || isBreak c

/-- A character that can only be written by an escape. -/
def isSpecial (c : Char) : Bool :=
  let n := c.toNat
  !(c = '\n' || (0x20 ≤ n && n ≤ 0x7E) || n = 0x85 ||
    ((0xA0 ≤ n && n ≤ 0xD7FF) || (0xE000 ≤ n && n ≤ 0xFFFD) || (0x10000 ≤ n && n < 0x10FFFF)) &&
      n ≠ 0xFEFF)

/-! ## Forms -/

/-- How a text is written. -/
inductive Form where
  /-- as it is -/
  | plain
  /-- in single quotes -/
  | single
  /-- in double quotes -/
  | double
  deriving DecidableEq, Repr

/-- Whether the characters at hand are separated from what comes before. -/
def startsSeparated : List Char → Bool
  | [] => true
  | c :: _ => isSeparating c

/-- A character that has a meaning at the start of a text. -/
def isOpeningMark (c : Char) : Bool := "#,[]\x7b\x7d&*!|>'\"%@".toList.contains c || c.toNat = 0x60

/-- Whether a mark at the start of a text has a meaning. -/
def opensWithMark : List Char → Bool
  | [] => false
  | c :: rest =>
      isOpeningMark c || ((c = '?' || c = ':' || c = '-') && startsSeparated rest)

/-- Whether a text holds a colon before a gap or a number sign behind one; `separated` tells
whether a gap stands before the characters at hand. -/
def hasInnerMark (separated : Bool) : List Char → Bool
  | [] => false
  | c :: rest =>
      (c = ':' && startsSeparated rest) || (c = '#' && separated) ||
        hasInnerMark (isSeparating c) rest

/-- Whether a text starts like the end of a document. -/
def startsLikeDocument (cs : List Char) : Bool :=
  ['-', '-', '-'].isPrefixOf cs || ['.', '.', '.'].isPrefixOf cs

/-- Whether a text holds a mark that has a meaning where it is. -/
def hasMark (cs : List Char) : Bool :=
  startsLikeDocument cs || opensWithMark cs || hasInnerMark (startsSeparated (cs.take 1)) (cs.drop 1)

/-- Whether two characters of two classes stand next to each other. -/
def hasPair (first second : Char → Bool) : List Char → Bool
  | a :: b :: rest => (first a && second b) || hasPair first second (b :: rest)
  | _ => false

/-- A blank. -/
def isSpace (c : Char) : Bool := c = ' '

/-- Whether a text starts or ends with a blank or a line break. -/
def hasOuterGap (cs : List Char) : Bool :=
  (cs.head?.any fun c => isSpace c || isBreak c) || (cs.getLast?.any fun c => isSpace c || isBreak c)

/-- How a text has to be written. -/
def formOf (cs : List Char) : Form :=
  if cs.any isSpecial || hasPair isSpace isBreak cs || hasPair isBreak isSpace cs then .double
  else if isAmbiguous cs || hasOuterGap cs || cs.any isBreak || hasMark cs then .single
  else .plain

/-! ## Writing -/

/-- A new line with an indentation. -/
def foldLine (indent : Nat) : List Char := '\n' :: List.replicate indent ' '

/-- Write a text as it is.  `column` is where the line has got to, and `behindSpace` tells
whether a blank stands before the characters at hand.  A line is folded at a single blank. -/
def writePlain (indent column : Nat) (behindSpace : Bool) : List Char → List Char
  | [] => []
  | c :: rest =>
      if c = ' ' && !behindSpace && !(rest.head? = some ' ') && lineWidth < column then
        foldLine indent ++ writePlain indent indent true rest
      else c :: writePlain indent (column + 1) (c = ' ') rest

/-- What stands before a character in a text in single quotes. -/
inductive Before where
  /-- nothing -/
  | start
  /-- a blank -/
  | space
  /-- a line break -/
  | lineBreak
  /-- any other character -/
  | other
  deriving DecidableEq, Repr

/-- What a character is to the one behind it. -/
def Before.of (c : Char) : Before :=
  if c = ' ' then .space else if isBreak c then .lineBreak else .other

/-- Write a text inside single quotes.  A quote is written twice, and a line break opens with
an empty line.  A line is folded at a single blank inside the text. -/
def writeSingle (indent column : Nat) (before : Before) : List Char → List Char
  | [] => []
  | c :: rest =>
      if c = ' ' && before ≠ .start && before ≠ .space && !rest.isEmpty &&
          !(rest.head? = some ' ') && lineWidth < column then
        foldLine indent ++ writeSingle indent indent .space rest
      else if isBreak c then
        let opening := if c = '\n' && before ≠ .lineBreak then ['\n'] else []
        if rest.head?.any isBreak then
          opening ++ c :: writeSingle indent 0 .lineBreak rest
        else
          opening ++ c :: (List.replicate indent ' ' ++ writeSingle indent indent .lineBreak rest)
      else if c = '\'' then '\'' :: '\'' :: writeSingle indent (column + 2) .other rest
      else c :: writeSingle indent (column + 1) (.of c) rest

/-- The letters of escapes. -/
def escapeLetters : List (Char × Char) :=
  [('\x00', '0'), ('\x07', 'a'), ('\x08', 'b'), ('\t', 't'), ('\n', 'n'), ('\x0b', 'v'),
    ('\x0c', 'f'), ('\r', 'r'), ('\x1b', 'e'), ('"', '"'), ('\\', '\\'), ('\x85', 'N'),
    ('\u2028', 'L'), ('\u2029', 'P')]

/-- A number in hexadecimal with capital letters. -/
def capitalHex (width n : Nat) : List Char := (hexText width n).map Char.toUpper

/-- A character that is written as it is in double quotes. -/
def isOpen (c : Char) : Bool :=
  let n := c.toNat
  c ≠ '"' && c ≠ '\\' && c ≠ '\u2028' && c ≠ '\u2029' && c ≠ '\ufeff' &&
    ((0x20 ≤ n && n ≤ 0x7E) || (0xA0 ≤ n && n ≤ 0xD7FF) || (0xE000 ≤ n && n ≤ 0xFFFD))

/-- The escape of a character. -/
def escapeOf (c : Char) : List Char :=
  match escapeLetters.lookup c with
  | some letter => ['\\', letter]
  | none =>
      let n := c.toNat
      if n ≤ 0xFF then '\\' :: 'x' :: capitalHex 2 n
      else if n ≤ 0xFFFF then '\\' :: 'u' :: capitalHex 4 n
      else '\\' :: 'U' :: capitalHex 8 n

/-- What stands before a character in a text in double quotes. -/
inductive Flow where
  /-- nothing -/
  | start
  /-- a character as it is, or a fold -/
  | open
  /-- an escape -/
  | escape
  deriving DecidableEq, Repr

/-- Fold a text in double quotes.  A blank at the start of a line is marked by a backslash. -/
def foldDouble (indent : Nat) (rest : List Char) : List Char :=
  '\\' :: (foldLine indent ++ if rest.head? = some ' ' then ['\\'] else [])

/-- Where the line has got to behind `foldDouble`. -/
def columnBehindFold (indent : Nat) (rest : List Char) : Nat :=
  if rest.head? = some ' ' then indent + 1 else indent

/-- Write a text inside double quotes.  A line is folded at a blank and next to an escape, but
not at the first or last character. -/
def writeDouble (indent column : Nat) (before : Flow) : List Char → List Char
  | [] => []
  | c :: rest =>
      let inner := before ≠ .start && !rest.isEmpty
      if isOpen c then
        if inner && (c = ' ' || before = .escape) && lineWidth < column then
          foldDouble indent (c :: rest) ++
            c :: writeDouble indent (columnBehindFold indent (c :: rest) + 1) .open rest
        else c :: writeDouble indent (column + 1) .open rest
      else
        let escape := escapeOf c
        let reached := column + escape.length
        if inner && lineWidth + 1 < reached then
          escape ++ foldDouble indent rest ++
            writeDouble indent (columnBehindFold indent rest) .escape rest
        else escape ++ writeDouble indent reached .escape rest

/-- Write a text behind a mark that ends at a column. -/
def writeText (indent column : Nat) (cs : List Char) : List Char :=
  match formOf cs with
  | .plain => ' ' :: writePlain indent (column + 1) false cs
  | .single => ' ' :: '\'' :: (writeSingle indent (column + 2) .start cs ++ ['\''])
  | .double => ' ' :: '"' :: (writeDouble indent (column + 2) .start cs ++ ['"'])

end EditionSurvey.Yaml
