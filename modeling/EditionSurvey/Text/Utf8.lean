/-
  Text/Utf8.lean --- from bytes to characters.

  `decode?` refuses bytes that are not well formed and says where they are.  `decodeLossy`
  puts the replacement character in the place of every longest run of bytes that could
  start a character and does not go on as one.  `unifyLineEnds` makes every line end a line
  feed.
-/

set_option autoImplicit false

namespace EditionSurvey.Text

/-- Why bytes are no character. -/
inductive Utf8Flaw where
  /-- no character starts with the byte -/
  | invalidStart
  /-- a byte does not go on with the character -/
  | invalidContinuation
  /-- the bytes end inside a character -/
  | unexpectedEnd
  deriving DecidableEq, Repr

/-- The description of a flaw. -/
def Utf8Flaw.text : Utf8Flaw → String
  | .invalidStart => "invalid start byte"
  | .invalidContinuation => "invalid continuation byte"
  | .unexpectedEnd => "unexpected end of data"

/-- Bytes that are no character, and where they are. -/
structure Utf8Fault where
  /-- the number of bytes before -/
  position : Nat
  /-- the bytes -/
  bytes : List UInt8
  /-- what is wrong with them -/
  flaw : Utf8Flaw
  deriving DecidableEq, Repr

/-- A byte in hexadecimal, in two digits. -/
def byteText (b : UInt8) : String :=
  let digit := fun (n : Nat) => Nat.digitChar n
  String.ofList [digit (b.toNat / 16), digit (b.toNat % 16)]

/-- A fault as a sentence. -/
def Utf8Fault.message (fault : Utf8Fault) : String :=
  match fault.bytes with
  | [b] =>
      s!"'utf-8' codec can't decode byte 0x{byteText b} in position {fault.position}: {fault.flaw.text}"
  | bytes =>
      s!"'utf-8' codec can't decode bytes in position {fault.position}-{fault.position + bytes.length - 1}: {fault.flaw.text}"

/-- What the bytes at hand start with. -/
inductive Utf8Step where
  /-- a character of `length` bytes -/
  | char (c : Char) (length : Nat)
  /-- `length` bytes that are no character -/
  | flawed (flaw : Utf8Flaw) (length : Nat)
  deriving DecidableEq, Repr

/-- A byte inside a character. -/
def isContinuation (b : UInt8) : Bool := 0x80 ≤ b && b ≤ 0xBF

/-- The bytes that may follow the first byte of a character. -/
def mayFollow (first second : UInt8) : Bool :=
  if first = 0xE0 then 0xA0 ≤ second && second ≤ 0xBF
  else if first = 0xED then 0x80 ≤ second && second ≤ 0x9F
  else if first = 0xF0 then 0x90 ≤ second && second ≤ 0xBF
  else if first = 0xF4 then 0x80 ≤ second && second ≤ 0x8F
  else isContinuation second

/-- The number of bytes of a character that starts with the byte; zero if none does. -/
def lengthOfFirst (b : UInt8) : Nat :=
  if b ≤ 0x7F then 1
  else if b < 0xC2 then 0
  else if b < 0xE0 then 2
  else if b < 0xF0 then 3
  else if b < 0xF5 then 4
  else 0

/-- The six bits of a byte inside a character. -/
def lowBits (b : UInt8) : Nat := b.toNat % 64

/-- What bytes start with, for a first byte of a character of three bytes. -/
def stepThree (a : UInt8) : List UInt8 → Utf8Step
  | [] => .flawed .unexpectedEnd 1
  | b :: rest =>
      if !mayFollow a b then .flawed .invalidContinuation 1
      else match rest with
        | [] => .flawed .unexpectedEnd 2
        | c :: _ =>
            if !isContinuation c then .flawed .invalidContinuation 2
            else .char (Char.ofNat ((a.toNat % 16 * 64 + lowBits b) * 64 + lowBits c)) 3

/-- What bytes start with, for a first byte of a character of four bytes. -/
def stepFour (a : UInt8) : List UInt8 → Utf8Step
  | [] => .flawed .unexpectedEnd 1
  | b :: rest =>
      if !mayFollow a b then .flawed .invalidContinuation 1
      else match rest with
        | [] => .flawed .unexpectedEnd 2
        | c :: rest =>
            if !isContinuation c then .flawed .invalidContinuation 2
            else match rest with
              | [] => .flawed .unexpectedEnd 3
              | d :: _ =>
                  if !isContinuation d then .flawed .invalidContinuation 3
                  else
                    let high := (a.toNat % 8 * 64 + lowBits b) * 64 + lowBits c
                    .char (Char.ofNat (high * 64 + lowBits d)) 4

/-- What bytes start with. -/
def utf8Step (a : UInt8) (rest : List UInt8) : Utf8Step :=
  match lengthOfFirst a with
  | 1 => .char (Char.ofNat a.toNat) 1
  | 2 =>
      match rest with
      | [] => .flawed .unexpectedEnd 1
      | b :: _ =>
          if isContinuation b then .char (Char.ofNat (a.toNat % 32 * 64 + lowBits b)) 2
          else .flawed .invalidContinuation 1
  | 3 => stepThree a rest
  | 4 => stepFour a rest
  | _ => .flawed .invalidStart 1

/-- The number of bytes that a step takes. -/
def Utf8Step.length : Utf8Step → Nat
  | .char _ n => n
  | .flawed _ n => n

/-- Decode with `done` decoded, last character first. -/
def decodeLossyFrom (done : List Char) : List UInt8 → List Char
  | [] => done.reverse
  | a :: rest =>
      match utf8Step a rest with
      | .char c n => decodeLossyFrom (c :: done) (rest.drop (n - 1))
      | .flawed _ n => decodeLossyFrom ('\ufffd' :: done) (rest.drop (n - 1))
termination_by bytes => bytes.length
decreasing_by all_goals (simp only [List.length_drop, List.length_cons]; omega)

/-- Decode bytes; what is no character becomes the replacement character. -/
def decodeLossy (bytes : List UInt8) : List Char := decodeLossyFrom [] bytes

/-- Decode from a position with `done` decoded, last character first. -/
def decodeFrom (done : List Char) (position : Nat) : List UInt8 → Except Utf8Fault (List Char)
  | [] => .ok done.reverse
  | a :: rest =>
      match utf8Step a rest with
      | .char c n => decodeFrom (c :: done) (position + n) (rest.drop (n - 1))
      | .flawed flaw n => .error ⟨position, (a :: rest).take n, flaw⟩
termination_by bytes => bytes.length
decreasing_by all_goals (simp only [List.length_drop, List.length_cons]; omega)

/-- Decode bytes that are well formed. -/
def decode? (bytes : List UInt8) : Except Utf8Fault (List Char) := decodeFrom [] 0 bytes

/-- Make every line end a line feed, with `done` made so, last character first. -/
def unifyLineEndsFrom (done : List Char) : List Char → List Char
  | [] => done.reverse
  | '\r' :: '\n' :: rest => unifyLineEndsFrom ('\n' :: done) rest
  | '\r' :: rest => unifyLineEndsFrom ('\n' :: done) rest
  | c :: rest => unifyLineEndsFrom (c :: done) rest

/-- Make every line end a line feed. -/
def unifyLineEnds (cs : List Char) : List Char := unifyLineEndsFrom [] cs

example : decodeLossy [0xE2, 0x82, 0x41, 0xFF] = ['\ufffd', 'A', '\ufffd'] := by cbv
example : decode? [0x41, 0xC3, 0xA9] = .ok ['A', 'é'] := by cbv
example : decode? [0x41, 0xE2, 0x82] = .error ⟨1, [0xE2, 0x82], .unexpectedEnd⟩ := by cbv
example : unifyLineEnds ['\r', '\n', '\r', '\r'] = ['\n', '\n', '\n'] := by decide

end EditionSurvey.Text
