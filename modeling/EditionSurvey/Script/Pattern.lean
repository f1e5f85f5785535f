/-
  Script/Pattern.lean --- which regular expression bodies are well formed.

  A body is read once, from left to right, by `Pattern.alternatives` and
  `Pattern.sequence`.  Nothing is built: a reader keeps only what later rules ask for,
  namely the width of what was read (a look-behind must have one width), whether the last
  item may be repeated, and the groups seen so far (a back-reference names a closed
  group).  `Pattern.isWellFormed` is the result.

  Beyond the common core the dialect has possessive repetition (`a++`), atomic groups
  (`(?>a)`), named groups (`(?P<n>a)`), comments, inline flags and conditionals; it has no
  unknown letter escapes, and `[]a]` holds a bracket.
-/
import EditionSurvey.Script.Character
import EditionSurvey.Text.Integer

set_option autoImplicit false

namespace EditionSurvey.Script.Pattern

open EditionSurvey.Text

/-- A character of a body, alone or behind a backslash. -/
inductive Symbol where
  /-- a character that stands for itself or for an operator -/
  | plain (point : Nat)
  /-- a character behind a backslash -/
  | escaped (point : Nat)
  deriving DecidableEq, Repr

/-- Pair every backslash with the character behind it.  A backslash at the end has none. -/
def symbols? : List Nat → Option (List Symbol)
  | [] => some []
  | 0x5C :: [] => none
  | 0x5C :: point :: rest => (symbols? rest).map (.escaped point :: ·)
  | point :: rest => (symbols? rest).map (.plain point :: ·)

/-- How many characters an item matches, at least and at most. -/
structure Width where
  /-- the least number -/
  least : Nat
  /-- the greatest number -/
  most : Nat
  deriving DecidableEq, Repr, Inhabited

/-- Widths are counted up to this bound. -/
def widthCap : Nat := 0x10000000000000000

/-- The largest repetition count, which also stands for "any number". -/
def repeatCap : Nat := 0xffffffff

/-- The width of two items in a row. -/
def Width.add (a b : Width) : Width :=
  { least := min (a.least + b.least) widthCap, most := min (a.most + b.most) widthCap }

/-- The width of a choice. -/
def Width.either (a b : Width) : Width :=
  { least := min a.least b.least, most := max a.most b.most }

/-- The width of an item that is repeated. -/
def Width.times (w : Width) (least most : Nat) : Width :=
  { least := min (w.least * least) widthCap
    most := if most = repeatCap && w.most ≠ 0 then widthCap else min (w.most * most) widthCap }

/-- Whether and how an item may be repeated. -/
inductive ItemKind where
  /-- a place between characters, which cannot be repeated -/
  | anchor
  /-- an item that is repeated already -/
  | repeated
  /-- anything else -/
  | plain
  deriving DecidableEq, Repr

/-- An item that was read. -/
structure Item where
  /-- whether it may be repeated -/
  kind : ItemKind
  /-- what it matches -/
  width : Width
  deriving DecidableEq, Repr

/-- One character. -/
def Item.unit : Item := ⟨.plain, ⟨1, 1⟩⟩

/-- A place between characters. -/
def Item.anchor : Item := ⟨.anchor, ⟨0, 0⟩⟩

/-- An item that matches no character and may be repeated. -/
def Item.empty : Item := ⟨.plain, ⟨0, 0⟩⟩

/-- Inline flags, as far as they bear on well-formedness. -/
structure Flags where
  /-- ASCII classes -/
  ascii : Bool := false
  /-- Unicode classes -/
  unicode : Bool := false
  /-- blanks and comments between items -/
  verbose : Bool := false
  /-- no repetition at all -/
  template : Bool := false
  /-- ignore case -/
  ignoreCase : Bool := false
  /-- anchors at every line -/
  multiline : Bool := false
  /-- the dot matches line ends -/
  dotAll : Bool := false
  deriving DecidableEq, Repr, Inhabited

/-- What the reader knows. -/
structure Reader where
  /-- symbols that are left -/
  rest : List Symbol
  /-- width of each group by number, from the whole body at zero; `none` while open -/
  groups : List (Option Width) := [none]
  /-- named groups -/
  names : List (String × Nat) := []
  /-- number of groups when the outermost open look-behind began -/
  lookBehind : Option Nat := none
  /-- groups that conditionals refer to by number -/
  conditions : List Nat := []
  /-- flags of the whole body -/
  flags : Flags := {}
  /-- whether something is repeated -/
  repeats : Bool := false
  deriving Repr, Inhabited

/-- A reading step, which fails on an ill-formed body. -/
abbrev Check (α : Type) : Type := StateT Reader Option α

/-- The body is ill formed. -/
def reject {α : Type} : Check α := fun _ => none

/-- Continue only if the condition holds. -/
def require (condition : Bool) : Check Unit := if condition then pure () else reject

/-- The next symbol, left in place. -/
def peek : Check (Option Symbol) := do return (← get).rest.head?

/-- The next symbol. -/
def next : Check (Option Symbol) := do
  let reader ← get
  set { reader with rest := reader.rest.tail }
  return reader.rest.head?

/-- Take the character if it is next. -/
def accept (c : Char) : Check Bool := do
  if (← peek) = some (.plain c.toNat) then
    let _ ← next
    return true
  else return false

/-- Whether the symbol is this character, standing for itself. -/
def Symbol.is (s : Symbol) (c : Char) : Bool := s = .plain c.toNat

/-- The value of a symbol as a digit of the base, which is at most sixteen. -/
def Symbol.digit? (s : Symbol) (base : Nat) : Option Nat :=
  match s with
  | .plain n =>
      if n < 0x80 then (hexValue? (Char.ofNat n)).filter (· < base) else none
  | .escaped _ => none

/-- Take at most `limit` digits of the base; give their number and their value. -/
def takeDigits (base : Nat) : (limit : Nat) → (count value : Nat) → Check (Nat × Nat)
  | 0, count, value => return (count, value)
  | limit + 1, count, value => do
      match (← peek).bind (·.digit? base) with
      | some d =>
          let _ ← next
          takeDigits base limit (count + 1) (value * base + d)
      | none => return (count, value)

/-- Exactly `count` hexadecimal digits, with their value. -/
def hexEscape (count : Nat) : Check Nat := do
  let (found, value) ← takeDigits 16 count 0 0
  require (found = count)
  return value

/-- The escaped letters that stand for one character everywhere. -/
def isControlEscape (c : Char) : Bool := "afnrtv\\".toList.contains c

/-- The escaped letters that stand for a class of characters. -/
def isClassEscape (c : Char) : Bool := "dDsSwW".toList.contains c

/-- Escapes that read alike inside and outside a bracket: the code of a letter escape with
digits, or of a character that stands for itself.  Unknown letters are rejected. -/
def commonEscape (point : Nat) : Check Nat := do
  if point < 0x80 then
    let c := Char.ofNat point
    if c = 'x' then hexEscape 2
    else if c = 'u' then hexEscape 4
    else if c = 'U' then
      let value ← hexEscape 8
      require (value < 0x110000)
      return value
    else if isAsciiLetter c then reject
    else return point
  else return point

/-- The code of a control escape. -/
def controlCode (c : Char) : Nat :=
  match c with
  | 'a' => 0x07
  | 'f' => 0x0C
  | 'n' => 0x0A
  | 'r' => 0x0D
  | 't' => 0x09
  | 'v' => 0x0B
  | _ => 0x5C

/-- An escape inside a bracket: the code of one character, or `none` for a class. -/
def bracketEscape (point : Nat) : Check (Option Nat) := do
  if point < 0x80 then
    let c := Char.ofNat point
    if isControlEscape c then return some (controlCode c)
    else if c = 'b' then return some 0x08
    else if isClassEscape c then return none
    else if isOctalDigit c then
      let (_, value) ← takeDigits 8 2 0 (c.toNat - '0'.toNat)
      require (value ≤ 0o377)
      return some value
    else if isDecimalDigit c then reject
    else return some (← commonEscape point)
  else return some point

/-- A member of a bracket: the code of one character, or `none` for a class. -/
def bracketMember : Symbol → Check (Option Nat)
  | .plain point => return some point
  | .escaped point => bracketEscape point

/-- The members of a bracket up to its end.  A closing bracket that comes first is a
member; a range has characters at both ends, in order. -/
def bracketMembers : (fuel : Nat) → (first : Bool) → Check Unit
  | 0, _ => reject
  | fuel + 1, first => do
      match ← next with
      | none => reject
      | some symbol =>
          if symbol.is ']' && !first then return ()
          let low ← bracketMember symbol
          if ← accept '-' then
            match ← next with
            | none => reject
            | some symbol =>
                if symbol.is ']' then return ()
                match low, ← bracketMember symbol with
                | some low, some high =>
                    require (low ≤ high)
                    bracketMembers fuel false
                | _, _ => reject
          else bracketMembers fuel false

/-- Whether a group is closed. -/
def Reader.isClosed (reader : Reader) (group : Nat) : Bool :=
  match reader.groups[group]? with
  | some (some _) => true
  | _ => false

/-- Inside a look-behind only groups closed before it may be referred to. -/
def requireBeforeLookBehind (group : Nat) : Check Unit := do
  let reader ← get
  match reader.lookBehind with
  | none => return ()
  | some limit => require (reader.isClosed group && group < limit)

/-- A reference to a closed group. -/
def backReference (group : Nat) : Check Item := do
  match (← get).groups[group]? with
  | some (some width) =>
      requireBeforeLookBehind group
      return ⟨.plain, width⟩
  | _ => reject

/-- An escape with a digit other than zero: three octal digits are a character, anything
else refers to a group by one or two digits. -/
def digitEscape (first : Nat) : Check Item := do
  match (← peek).bind (·.digit? 10) with
  | none => backReference first
  | some second =>
      let _ ← next
      match (← peek).bind (·.digit? 8) with
      | some third =>
          if first < 8 && second < 8 then
            let _ ← next
            require (first * 64 + second * 8 + third ≤ 0o377)
            return .unit
          else backReference (first * 10 + second)
      | none => backReference (first * 10 + second)

/-- An escape outside a bracket. -/
def escapeItem (point : Nat) : Check Item := do
  if point < 0x80 then
    let c := Char.ofNat point
    if "AbBZ".toList.contains c then return .anchor
    else if isClassEscape c || isControlEscape c then return .unit
    else if c = '0' then
      let _ ← takeDigits 8 2 0 0
      return .unit
    else if isDecimalDigit c then digitEscape (c.toNat - '0'.toNat)
    else
      let _ ← commonEscape point
      return .unit
  else return .unit

/-- The symbols up to the closing character, which is taken.  There must be one. -/
def nameUntil (close : Char) : (fuel : Nat) → List Nat → Check (List Nat)
  | 0, _ => reject
  | fuel + 1, reversed => do
      match ← next with
      | none => reject
      | some (.plain point) =>
          if point = close.toNat then
            require (!reversed.isEmpty)
            return reversed.reverse
          else nameUntil close fuel (point :: reversed)
      | some (.escaped point) => nameUntil close fuel (point :: 0x5C :: reversed)

/-- Whether the characters form the name of a group. -/
def isGroupName (points : List Nat) : Bool :=
  let startsName (n : Nat) := isIdentifierStartPoint n && n ≠ 0x24 && n ≠ 0x5C
  let continuesName (n : Nat) :=
    isIdentifierPartPoint n && n ≠ 0x24 && n ≠ 0x5C && n ≠ 0x200C && n ≠ 0x200D
  match points with
  | [] => false
  | first :: rest => startsName first && rest.all continuesName

/-- A text of code points. -/
def textOf (points : List Nat) : String := String.ofList (points.map Char.ofNat)

/-- One more symbol than the body can have, which bounds every loop. -/
def budget : Check Nat := do return (← get).rest.length + 1

/-- The name of a group, up to the closing character. -/
def groupName (close : Char) : Check String := do
  let points ← nameUntil close (← budget) []
  require (isGroupName points)
  return textOf points

/-- Open a capturing group and give its number. -/
def openGroup (name : Option String) : Check Nat := do
  let reader ← get
  let number := reader.groups.length
  match name with
  | none => set { reader with groups := reader.groups ++ [none] }
  | some name =>
      require ((reader.names.lookup name).isNone)
      set { reader with
        groups := reader.groups ++ [none], names := (name, number) :: reader.names }
  return number

/-- Close a capturing group. -/
def closeGroup (number : Nat) (width : Width) : Check Unit :=
  modify fun reader => { reader with groups := reader.groups.set number (some width) }

/-- Turn one flag on. -/
def Flags.turnOn (flags : Flags) (c : Char) : Option Flags :=
  match c with
  | 'a' => some { flags with ascii := true }
  | 'u' => some { flags with unicode := true }
  | 'x' => some { flags with verbose := true }
  | 't' => some { flags with template := true }
  | 'i' => some { flags with ignoreCase := true }
  | 'm' => some { flags with multiline := true }
  | 's' => some { flags with dotAll := true }
  | _ => none

/-- The flags of either set. -/
def Flags.union (a b : Flags) : Flags where
  ascii := a.ascii || b.ascii
  unicode := a.unicode || b.unicode
  verbose := a.verbose || b.verbose
  template := a.template || b.template
  ignoreCase := a.ignoreCase || b.ignoreCase
  multiline := a.multiline || b.multiline
  dotAll := a.dotAll || b.dotAll

/-- Whether a flag is in both sets. -/
def Flags.meets (a b : Flags) : Bool :=
  (a.ascii && b.ascii) || (a.unicode && b.unicode) || (a.verbose && b.verbose) ||
    (a.template && b.template) || (a.ignoreCase && b.ignoreCase) ||
    (a.multiline && b.multiline) || (a.dotAll && b.dotAll)

/-- The character a symbol stands for, if it stands for itself and is ASCII. -/
def Symbol.char? : Symbol → Option Char
  | .plain n => if n < 0x80 then some (Char.ofNat n) else none
  | .escaped _ => none

/-- The flags that are turned on, from the letter `c`, up to the character behind them. -/
def flagsOn : (fuel : Nat) → Char → Flags → Check (Flags × Char)
  | 0, _, _ => reject
  | fuel + 1, c, flags => do
      match flags.turnOn c with
      | none => reject
      | some flags =>
          require (!(flags.ascii && flags.unicode))
          match (← next).bind (·.char?) with
          | none => reject
          | some c =>
              if c = ')' || c = '-' || c = ':' then return (flags, c)
              else flagsOn fuel c flags

/-- The flags that are turned off, from the letter `c`, up to the colon. -/
def flagsOff : (fuel : Nat) → Char → Flags → Check Flags
  | 0, _, _ => reject
  | fuel + 1, c, flags => do
      match flags.turnOn c with
      | none => reject
      | some flags =>
          require (!flags.ascii && !flags.unicode)
          match (← next).bind (·.char?) with
          | none => reject
          | some ':' => return flags
          | some c => flagsOff fuel c flags

/-- What inline flags apply to. -/
inductive FlagScope where
  /-- the whole body -/
  | body (on : Flags)
  /-- the group that they open -/
  | group (on off : Flags)

/-- Inline flags from the letter or minus sign `c`. -/
def inlineFlags (c : Char) : Check FlagScope := do
  let fuel ← budget
  let (on, close) ← if c = '-' then pure (({} : Flags), '-') else flagsOn fuel c {}
  if close = ')' then return .body on
  require (!on.template)
  if close = ':' then return .group on {}
  match (← next).bind (·.char?) with
  | none => reject
  | some c =>
      let off ← flagsOff fuel c {}
      require (!off.template && !on.meets off)
      return .group on off

/-- Readers for what stands inside a group. -/
structure Inner where
  /-- alternatives up to the end of the group; the argument tells whether blanks and
  comments are skipped -/
  alternatives : Bool → Check Width
  /-- a sequence up to a bar or the end of the group -/
  sequence : Bool → Check Width

/-- The end of a group. -/
def closeParenthesis : Check Unit := do require (← accept ')')

/-- A comment group, up to its closing parenthesis. -/
def skipComment : (fuel : Nat) → Check Unit
  | 0 => reject
  | fuel + 1 => do
      match ← next with
      | none => reject
      | some symbol => if symbol.is ')' then return () else skipComment fuel

/-- A capturing group behind its opening. -/
def capturingGroup (inner : Inner) (verbose : Bool) (name : Option String) : Check Item := do
  let number ← openGroup name
  let width ← inner.alternatives verbose
  closeParenthesis
  closeGroup number width
  return ⟨.plain, width⟩

/-- A group without a number behind its opening. -/
def plainGroup (inner : Inner) (verbose : Bool) : Check Item := do
  let width ← inner.alternatives verbose
  closeParenthesis
  return ⟨.plain, width⟩

/-- A look-ahead behind its opening. -/
def lookAhead (inner : Inner) (verbose : Bool) : Check Item := do
  let _ ← inner.alternatives verbose
  closeParenthesis
  return .empty

/-- A look-behind behind its opening; it matches one number of characters. -/
def lookBehind (inner : Inner) (verbose : Bool) : Check Item := do
  match ← next with
  | none => reject
  | some symbol =>
      require (symbol.is '=' || symbol.is '!')
      let outer := (← get).lookBehind
      modify fun reader =>
        { reader with lookBehind := some (outer.getD reader.groups.length) }
      let width ← inner.alternatives verbose
      if outer.isNone then modify fun reader => { reader with lookBehind := none }
      closeParenthesis
      require (width.least = width.most && width.least ≤ repeatCap)
      return .empty

/-- The group that a conditional asks for, by name or by number. -/
def conditionGroup : Check Nat := do
  let points ← nameUntil ')' (← budget) []
  if isGroupName points then
    match (← get).names.lookup (textOf points) with
    | some group => return group
    | none => reject
  else
    match readInteger? (points.map Char.ofNat) with
    | some (Int.ofNat group) =>
        require (group ≠ 0 && group < 0x3fffffff)
        modify fun reader => { reader with conditions := group :: reader.conditions }
        return group
    | _ => reject

/-- A conditional behind its opening. -/
def conditional (inner : Inner) (verbose : Bool) : Check Item := do
  let group ← conditionGroup
  requireBeforeLookBehind group
  let yes ← inner.sequence verbose
  let no ←
    if ← accept '|' then
      let no ← inner.sequence verbose
      require ((← peek) ≠ some (.plain '|'.toNat))
      pure no
    else pure ⟨0, 0⟩
  closeParenthesis
  return ⟨.plain, yes.either no⟩

/-- What a parenthesis opened. -/
inductive Opened where
  /-- an item -/
  | item (item : Item)
  /-- nothing: a comment -/
  | nothing
  /-- flags for the whole body -/
  | flags (on : Flags)

/-- The extension groups behind the letter `P`: a named group or a reference to one. -/
def namedExtension (inner : Inner) (verbose : Bool) : Check Item := do
  if ← accept '<' then
    let name ← groupName '>'
    capturingGroup inner verbose (some name)
  else if ← accept '=' then
    let name ← groupName ')'
    match (← get).names.lookup name with
    | some group => backReference group
    | none => reject
  else reject

/-- A group, behind its opening parenthesis. -/
def group (inner : Inner) (verbose : Bool) : Check Opened := do
  if !(← accept '?') then return .item (← capturingGroup inner verbose none)
  match (← next).bind (·.char?) with
  | none => reject
  | some 'P' => return .item (← namedExtension inner verbose)
  | some ':' => return .item (← plainGroup inner verbose)
  | some '>' => return .item (← plainGroup inner verbose)
  | some '#' => do
      skipComment (← budget)
      return .nothing
  | some '=' => return .item (← lookAhead inner verbose)
  | some '!' => return .item (← lookAhead inner verbose)
  | some '<' => return .item (← lookBehind inner verbose)
  | some '(' => return .item (← conditional inner verbose)
  | some c =>
      match ← inlineFlags c with
      | .body on => return .flags on
      | .group on off => return .item (← plainGroup inner ((verbose || on.verbose) && !off.verbose))

/-- Decimal digits, as many as there are. -/
def decimalDigits? : Check (Option Nat) := do
  let (count, value) ← takeDigits 10 (← budget) 0 0
  return if count = 0 then none else some value

/-- The bounds behind an opening brace, or `none` if the brace stands for itself. -/
def braceBounds : Check (Option (Nat × Nat)) := do
  if (← peek) = some (.plain '\x7d'.toNat) then return none
  let start ← get
  let low ← decimalDigits?
  let high ← if ← accept ',' then decimalDigits? else pure low
  if ← accept '\x7d' then
    let least := low.getD 0
    let most := high.getD repeatCap
    require ((low.isNone || least < repeatCap) && (high.isNone || most < repeatCap))
    require (high.isNone || least ≤ most)
    return some (least, most)
  else
    set start
    return none

/-- Repeat the last item.  A mark behind the bounds makes the repetition lazy or
possessive. -/
def repeatItem (last : Option Item) (least most : Nat) : Check Item := do
  match last with
  | none => reject
  | some item =>
      require (item.kind = .plain)
      if !(← accept '?') then let _ ← accept '+'
      modify fun reader => { reader with repeats := true }
      return ⟨.repeated, item.width.times least most⟩

/-- Blanks that are skipped between items when the body is written verbosely. -/
def isVerboseBlank (c : Char) : Bool :=
  c = ' ' || c = '\t' || c = '\n' || c = '\r' || c = '\x0b' || c = '\x0c'

/-- A comment between items, up to the end of its line. -/
def skipVerboseComment : (fuel : Nat) → Check Unit
  | 0 => return ()
  | fuel + 1 => do
      match ← next with
      | none => return ()
      | some symbol => if symbol.is '\n' then return () else skipVerboseComment fuel

/-- What was read of a sequence: the width before the last item, and the last item. -/
structure Progress where
  /-- width of all items but the last -/
  before : Width := ⟨0, 0⟩
  /-- the last item -/
  last : Option Item := none

/-- Width of all items so far. -/
def Progress.width (p : Progress) : Width :=
  match p.last with
  | none => p.before
  | some item => p.before.add item.width

/-- Put an item behind the others. -/
def Progress.push (p : Progress) (item : Item) : Progress :=
  { before := p.width, last := some item }

/-- Put the repetition of the last item in its place. -/
def Progress.repeatLast (p : Progress) (least most : Nat) : Check Progress := do
  return { p with last := some (← repeatItem p.last least most) }

/-- Items up to a bar or a closing parenthesis, which stays.  `start` tells whether the
sequence opens the whole body, where flags for the body may stand; from there on they
decide whether blanks are skipped. -/
def items (inner : Inner) (start : Bool) : (fuel : Nat) → (verbose : Bool) → Progress →
    Check Progress
  | 0, _, _ => reject
  | fuel + 1, verbose, p => do
      match ← peek with
      | none => return p
      | some (.escaped point) =>
          let _ ← next
          items inner start fuel verbose (p.push (← escapeItem point))
      | some (.plain point) =>
          if point = '|'.toNat || point = ')'.toNat then return p
          let _ ← next
          if 0x80 ≤ point then items inner start fuel verbose (p.push .unit)
          else
            let c := Char.ofNat point
            if verbose && isVerboseBlank c then items inner start fuel verbose p
            else if verbose && c = '#' then
              skipVerboseComment (← budget)
              items inner start fuel verbose p
            else
              match c with
              | '[' =>
                  let _ ← accept '^'
                  bracketMembers (← budget) true
                  items inner start fuel verbose (p.push .unit)
              | '?' => items inner start fuel verbose (← p.repeatLast 0 1)
              | '*' => items inner start fuel verbose (← p.repeatLast 0 repeatCap)
              | '+' => items inner start fuel verbose (← p.repeatLast 1 repeatCap)
              | '\x7b' =>
                  match ← braceBounds with
                  | none => items inner start fuel verbose (p.push .unit)
                  | some (least, most) =>
                      items inner start fuel verbose (← p.repeatLast least most)
              | '^' => items inner start fuel verbose (p.push .anchor)
              | '$' => items inner start fuel verbose (p.push .anchor)
              | '(' =>
                  match ← group inner verbose with
                  | .item item => items inner start fuel verbose (p.push item)
                  | .nothing => items inner start fuel verbose p
                  | .flags on =>
                      require (start && p.last.isNone)
                      modify fun reader => { reader with flags := reader.flags.union on }
                      items inner start fuel (← get).flags.verbose p
              | _ => items inner start fuel verbose (p.push .unit)

/-- The width of a sequence. -/
def sequence (inner : Inner) (start verbose : Bool) : Check Width := do
  return (← items inner start (← budget) verbose {}).width

/-- Further alternatives, each behind a bar. -/
def moreAlternatives (inner : Inner) (outermost : Bool) : (fuel : Nat) → (verbose : Bool) →
    Width → Check Width
  | 0, _, _ => reject
  | fuel + 1, verbose, width => do
      if ← accept '|' then
        let reader ← get
        let verbose := if outermost then reader.flags.verbose else verbose
        let other ← sequence inner false verbose
        moreAlternatives inner outermost fuel verbose (width.either other)
      else return width

/-- One or more alternatives. -/
def alternatives (inner : Inner) (outermost verbose : Bool) : Check Width := do
  let width ← sequence inner outermost verbose
  moreAlternatives inner outermost (← budget) verbose width

/-- Readers for the inside of a group, with that many levels of groups below it. -/
def level : (depth : Nat) → Inner
  | 0 => { alternatives := fun _ => reject, sequence := fun _ => reject }
  | depth + 1 =>
      { alternatives := alternatives (level depth) false
        sequence := sequence (level depth) false }

/-- How deep groups may nest. -/
def groupDepth : Nat := 300

/-- A whole body: nothing is left, conditionals refer to groups that exist, and the flags
agree with each other and with what was read. -/
def body : Check Unit := do
  let _ ← alternatives (level groupDepth) true false
  let reader ← get
  require reader.rest.isEmpty
  require (reader.conditions.all (· < reader.groups.length))
  require (!(reader.flags.ascii && reader.flags.unicode))
  require (!(reader.flags.template && reader.repeats))

/-- Whether a body is well formed. -/
def isWellFormed (points : List Nat) : Bool :=
  match symbols? points with
  | none => false
  | some symbols => (body.run { rest := symbols }).isSome

/-! ## Unicode escapes

Before it is checked, a body has its Unicode escapes replaced: up to U+FFFF by the
character itself, which then has the meaning it has when written plainly, and beyond that
by U+FFFF.  Surrogates in a row become U+FFFF as well. -/

/-- Hexadecimal digits in braces: their value and what follows, if there is at least one
digit and the brace is closed. -/
def bracedHex? : List Nat → (found : Bool) → (value : Nat) → Option (Nat × List Nat)
  | [], _, _ => none
  | n :: rest, found, value =>
      if n = 0x7D then if found then some (value, rest) else none
      else
        match Symbol.digit? (.plain n) 16 with
        | some d => bracedHex? rest true (value * 16 + d)
        | none => none

/-- Four hexadecimal digits: their value and what follows. -/
def fourHex? : List Nat → Option (Nat × List Nat)
  | a :: b :: c :: d :: rest => do
      let a ← Symbol.digit? (.plain a) 16
      let b ← Symbol.digit? (.plain b) 16
      let c ← Symbol.digit? (.plain c) 16
      let d ← Symbol.digit? (.plain d) 16
      return (((a * 16 + b) * 16 + c) * 16 + d, rest)
  | _ => none

/-- The Unicode escape that starts here, behind its backslash. -/
def unicodeEscape? : List Nat → Option (Nat × List Nat)
  | 0x75 :: 0x7B :: rest => bracedHex? rest false 0
  | 0x75 :: rest => fourHex? rest
  | _ => none

/-- Replace Unicode escapes.  `skip` counts characters of an escape that is already
replaced.  A code beyond U+10FFFF is an error. -/
def replaceEscapes : List Nat → (skip : Nat) → Option (List Nat)
  | [], _ => some []
  | _ :: rest, skip + 1 => replaceEscapes rest skip
  | n :: rest, 0 =>
      if n = 0x5C then
        match unicodeEscape? rest with
        | some (value, after) =>
            if 0x10FFFF < value then none
            else
              (replaceEscapes rest (rest.length - after.length)).map
                ((if value ≤ 0xFFFF then value else 0xFFFF) :: ·)
        | none => (replaceEscapes rest 0).map (n :: ·)
      else (replaceEscapes rest 0).map (n :: ·)

/-- Replace each leading surrogate and the trailing one behind it. -/
def replaceSurrogates : List Nat → List Nat
  | a :: b :: rest =>
      if 0xD800 ≤ a && a ≤ 0xDBFF && 0xDC00 ≤ b && b ≤ 0xDFFF then
        0xFFFF :: replaceSurrogates rest
      else a :: replaceSurrogates (b :: rest)
  | points => points

/-- Whether a regular expression body, as it stands in the source, is well formed. -/
def accepts (text : List Char) : Bool :=
  match replaceEscapes (text.map Char.toNat) 0 with
  | none => false
  | some points => isWellFormed (replaceSurrogates points)

end EditionSurvey.Script.Pattern
