/-
  Value/Reader.lean --- reading a value from a data file.

  The format is JSON with the names of the numbers that are not finite.  Reading functions
  take the characters that are left and return a value with the characters that are then
  left, so the position of a fault is known from the number of characters left.  Of two
  members of one name the last one counts, in the place of the first.
-/
import EditionSurvey.Value.Basic

set_option autoImplicit false

namespace EditionSurvey

/-- What is wrong with the text of a data file. -/
inductive Malformation where
  /-- a value is missing -/
  | value
  /-- the name of a member is missing -/
  | memberName
  /-- the colon behind the name of a member is missing -/
  | colon
  /-- a comma or a closing bracket is missing -/
  | comma
  /-- something follows the value -/
  | extra
  /-- a text has no closing quote -/
  | unterminated
  /-- a text holds a control character -/
  | control
  /-- a text holds an unknown escape -/
  | escape
  /-- a text holds an escape by number without four digits -/
  | numberedEscape
  /-- the file starts with a byte order mark -/
  | byteOrderMark
  deriving DecidableEq, Repr

/-- The description of a malformation. -/
def Malformation.text : Malformation → String
  | .value => "Expecting value"
  | .memberName => "Expecting property name enclosed in double quotes"
  | .colon => "Expecting ':' delimiter"
  | .comma => "Expecting ',' delimiter"
  | .extra => "Extra data"
  | .unterminated => "Unterminated string starting at"
  | .control => "Invalid control character at"
  | .escape => "Invalid \\escape"
  | .numberedEscape => "Invalid \\uXXXX escape"
  | .byteOrderMark => "Unexpected UTF-8 BOM (decode using utf-8-sig)"

/-- A malformation and where it is. -/
structure MalformedText where
  /-- what is wrong -/
  malformation : Malformation
  /-- the line, from one -/
  line : Nat
  /-- the column, from one -/
  column : Nat
  /-- the number of characters before -/
  position : Nat
  deriving DecidableEq, Repr

/-- A malformation as a sentence. -/
def MalformedText.message (m : MalformedText) : String :=
  s!"{m.malformation.text}: line {m.line} column {m.column} (char {m.position})"

/-- Why no value could be read. -/
inductive ReadingFault where
  /-- the text is malformed where `left` characters are left -/
  | malformed (malformation : Malformation) (left : Nat)
  /-- a whole number has too many digits -/
  | numberTooLong (digits : Nat)
  /-- lists and objects nest too deep -/
  | nestsTooDeep
  deriving DecidableEq, Repr

namespace Reader

/-- What a reading function yields: a value and the characters left. -/
abbrev Reading (α : Type) := Except ReadingFault (α × List Char)

/-- Refuse a text where the given characters are left. -/
def refuse {α : Type} (malformation : Malformation) (left : List Char) : Except ReadingFault α :=
  .error (.malformed malformation left.length)

/-- The four blanks. -/
def isBlank (c : Char) : Bool := c = ' ' || c = '\t' || c = '\n' || c = '\r'

/-- Skip blanks. -/
def skipBlanks (cs : List Char) : List Char := cs.dropWhile isBlank

/-! ## Texts -/

/-- The value of a hexadecimal digit. -/
def hexDigit? (c : Char) : Option Nat :=
  if c.isDigit then some (c.toNat - 48)
  else if 'a' ≤ c ∧ c ≤ 'f' then some (c.toNat - 87)
  else if 'A' ≤ c ∧ c ≤ 'F' then some (c.toNat - 55)
  else none

/-- The number that four hexadecimal digits write. -/
def hexNumber? (a b c d : Char) : Option Nat := do
  return (((← hexDigit? a) * 16 + (← hexDigit? b)) * 16 + (← hexDigit? c)) * 16 + (← hexDigit? d)

/-- The character of an escape by letter. -/
def escapedChar? : Char → Option Char
  | '"' => some '"'
  | '\\' => some '\\'
  | '/' => some '/'
  | 'b' => some '\x08'
  | 'f' => some '\x0c'
  | 'n' => some '\n'
  | 'r' => some '\r'
  | 't' => some '\t'
  | _ => none

/-- The first half of a pair of units. -/
def isHighUnit (n : Nat) : Bool := 0xD800 ≤ n && n ≤ 0xDBFF

/-- The second half of a pair of units. -/
def isLowUnit (n : Nat) : Bool := 0xDC00 ≤ n && n ≤ 0xDFFF

/-- The character of a unit.  Half of a pair alone stands for no character, and the replacement
character takes its place.  This is where a text of characters says less than one of units: two
halves read alike, and a text with a half could neither be part of a path nor be printed.  What is
said of paths and of printing is said of files in which all halves are paired
(`FileTree.ManifestsPaired`). -/
def charOfUnit (n : Nat) : Char := if 0xD800 ≤ n && n ≤ 0xDFFF then '\ufffd' else Char.ofNat n

/-- The character of a pair of units. -/
def charOfPair (high low : Nat) : Char :=
  Char.ofNat (0x10000 + (high - 0xD800) * 0x400 + (low - 0xDC00))

/-- Read the second unit of a pair: an escape by number that is not the end of the file.
Nothing is read if no such escape follows or if it is no second unit. -/
def readLowUnit? (cs : List Char) : Except ReadingFault (Option (Nat × List Char)) :=
  match cs with
  | '\\' :: 'u' :: a :: b :: c :: d :: next :: rest =>
      match hexNumber? a b c d with
      | none => refuse .numberedEscape ('u' :: a :: b :: c :: d :: next :: rest)
      | some n => .ok (if isLowUnit n then some (n, next :: rest) else none)
  | _ => .ok none

/-- Read what follows the `u` of an escape by number. -/
def readUnit (cs : List Char) : Reading Char :=
  match cs with
  | a :: b :: c :: d :: next :: rest =>
      match hexNumber? a b c d with
      | none => refuse .numberedEscape ('u' :: cs)
      | some n =>
          if isHighUnit n then
            match readLowUnit? (next :: rest) with
            | .error fault => .error fault
            | .ok (some (low, left)) => .ok (charOfPair n low, left)
            | .ok none => .ok (charOfUnit n, next :: rest)
          else .ok (charOfUnit n, next :: rest)
  | _ => refuse .numberedEscape ('u' :: cs)

/-- Read a text from behind its opening quote.  `opening` is what was left at the quote, and
`done` what was read, last character first. -/
def readText (opening : List Char) : (fuel : Nat) → (done : List Char) → List Char → Reading String
  | 0, _, _ => refuse .unterminated opening
  | _ + 1, _, [] => refuse .unterminated opening
  | _ + 1, done, '"' :: rest => .ok (String.ofList done.reverse, rest)
  | _ + 1, _, ['\\'] => refuse .unterminated opening
  | fuel + 1, done, '\\' :: 'u' :: rest =>
      match readUnit rest with
      | .error fault => .error fault
      | .ok (c, left) => readText opening fuel (c :: done) left
  | fuel + 1, done, '\\' :: c :: rest =>
      match escapedChar? c with
      | none => refuse .escape ('\\' :: c :: rest)
      | some e => readText opening fuel (e :: done) rest
  | fuel + 1, done, c :: rest =>
      if c.toNat ≤ 0x1F then refuse .control (c :: rest)
      else readText opening fuel (c :: done) rest

/-! ## Numbers -/

/-- The largest number of digits of a whole number. -/
def digitLimit : Nat := 4300

/-- The number that digits write. -/
def digitsValue (digits : List Char) : Nat :=
  digits.foldl (fun n c => n * 10 + (c.toNat - 48)) 0

/-- Read the whole part of a number: a zero alone, or digits that do not start with one. -/
def readWhole? (cs : List Char) : Option (List Char × List Char) :=
  match cs with
  | '0' :: rest => some (['0'], rest)
  | c :: _ => if c.isDigit then some (cs.span Char.isDigit) else none
  | [] => none

/-- Read a fraction: a point and at least one digit.  Without them nothing is read. -/
def readFraction (cs : List Char) : List Char × List Char :=
  match cs with
  | '.' :: rest =>
      match rest.span Char.isDigit with
      | ([], _) => ([], cs)
      | (digits, left) => (digits, left)
  | _ => ([], cs)

/-- Read the digits of an exponent with its sign.  Without a digit nothing is read. -/
def readExponentDigits? (cs : List Char) : Option (Int × List Char) :=
  let (negative, digits) :=
    match cs with
    | '-' :: rest => (true, rest)
    | '+' :: rest => (false, rest)
    | _ => (false, cs)
  match digits.span Char.isDigit with
  | ([], _) => none
  | (ds, left) =>
      let n := Int.ofNat (digitsValue ds)
      some (if negative then -n else n, left)

/-- Read an exponent, if there is one. -/
def readExponent? : List Char → Option (Int × List Char)
  | 'e' :: rest => readExponentDigits? rest
  | 'E' :: rest => readExponentDigits? rest
  | _ => none

/-- Read a number.  A whole number has a limited number of digits; `start` is what was left
before its sign. -/
def readUnsigned (start : List Char) (negative : Bool) (cs : List Char) : Reading Value :=
  match readWhole? cs with
  | none => refuse .value start
  | some (whole, behindWhole) =>
      let (fraction, behindFraction) := readFraction behindWhole
      let exponent? := readExponent? behindFraction
      if fraction.isEmpty && exponent?.isNone && digitLimit < whole.length then
        .error (.numberTooLong whole.length)
      else
        let n := Int.ofNat (digitsValue (whole ++ fraction))
        let mantissa := if negative then -n else n
        match exponent? with
        | some (exponent, left) => .ok (.number ⟨mantissa, exponent - fraction.length⟩, left)
        | none => .ok (.number ⟨mantissa, -Int.ofNat fraction.length⟩, behindFraction)

/-- Read a number with its sign. -/
def readNumber : List Char → Reading Value
  | '-' :: rest => readUnsigned ('-' :: rest) true rest
  | cs => readUnsigned cs false cs

/-! ## Values -/

/-- What is left behind a word, if the characters start with it. -/
def behindWord? (word : String) (cs : List Char) : Option (List Char) :=
  if word.toList.isPrefixOf cs then some (cs.drop word.length) else none

/-- Words that stand for values. -/
def words : List (String × Value) :=
  [("null", .null), ("true", .bool true), ("false", .bool false), ("NaN", .notFinite "nan"),
    ("Infinity", .notFinite "inf"), ("-Infinity", .notFinite "-inf")]

/-- Read a word or a number. -/
def readAtom (cs : List Char) : Reading Value :=
  match words.findSome? fun entry => (behindWord? entry.1 cs).map fun left => (entry.2, left) with
  | some result => .ok result
  | none => readNumber cs

/-- How deep lists and objects may nest. -/
def nestingLimit : Nat := 960

mutual

/-- Read a value; `levels` is how deep it may still nest. -/
def readValue : (fuel levels : Nat) → List Char → Reading Value
  | 0, _, cs => refuse .value cs
  | fuel + 1, levels, cs =>
      match cs with
      | '"' :: rest =>
          match readText cs (rest.length + 1) [] rest with
          | .ok (s, left) => .ok (.string s, left)
          | .error fault => .error fault
      | '[' :: rest =>
          match levels with
          | 0 => .error .nestsTooDeep
          | levels + 1 =>
              match skipBlanks rest with
              | ']' :: left => .ok (.list [], left)
              | items => readItems fuel levels [] items
      | '{' :: rest =>
          match levels with
          | 0 => .error .nestsTooDeep
          | levels + 1 =>
              match skipBlanks rest with
              | '}' :: left => .ok (.object [], left)
              | members => readMembers fuel levels [] members
      | _ => readAtom cs

/-- Read the items of a list up to its bracket; `done` has those read, last first. -/
def readItems : (fuel levels : Nat) → (done : List Value) → List Char → Reading Value
  | 0, _, _, cs => refuse .value cs
  | fuel + 1, levels, done, cs =>
      match readValue fuel levels cs with
      | .error fault => .error fault
      | .ok (v, left) =>
          match skipBlanks left with
          | ']' :: rest => .ok (.list (v :: done).reverse, rest)
          | ',' :: rest => readItems fuel levels (v :: done) (skipBlanks rest)
          | other => refuse .comma other

/-- Read the members of an object up to its brace; `done` has those read. -/
def readMembers :
    (fuel levels : Nat) → (done : List (String × Value)) → List Char → Reading Value
  | 0, _, _, cs => refuse .value cs
  | fuel + 1, levels, done, cs =>
      match cs with
      | '"' :: rest =>
          match readText cs (rest.length + 1) [] rest with
          | .error fault => .error fault
          | .ok (name, behindName) =>
              match skipBlanks behindName with
              | ':' :: behindColon =>
                  match readValue fuel levels (skipBlanks behindColon) with
                  | .error fault => .error fault
                  | .ok (v, left) =>
                      let members := setMember done name v
                      match skipBlanks left with
                      | '}' :: behind => .ok (.object members, behind)
                      | ',' :: behind => readMembers fuel levels members (skipBlanks behind)
                      | other => refuse .comma other
              | other => refuse .colon other
      | _ => refuse .memberName cs

end

/-- Read a file that holds one value. -/
def readFile (cs : List Char) : Except ReadingFault Value :=
  match cs with
  | '\ufeff' :: _ => refuse .byteOrderMark cs
  | _ =>
      match readValue (2 * cs.length + 2) nestingLimit (skipBlanks cs) with
      | .error fault => .error fault
      | .ok (v, left) =>
          match skipBlanks left with
          | [] => .ok v
          | extra => refuse .extra extra

/-- A malformation with line and column in its file. -/
def locate (file : List Char) (malformation : Malformation) (left : Nat) : MalformedText :=
  let before := file.take (file.length - left)
  { malformation := malformation
    line := before.count '\n' + 1
    column := (before.reverse.takeWhile (· ≠ '\n')).length + 1
    position := before.length }

end Reader

end EditionSurvey
