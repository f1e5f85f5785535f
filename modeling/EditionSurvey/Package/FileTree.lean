/-
  Package/FileTree.lean --- files and directories.

  A file tree is what a survey can see of a file system, without links and with every file
  readable.  A path is followed component by component: double dots lead to the directory
  that holds the one that was reached, a single dot to the same one, and only a directory
  can be entered.
-/
import EditionSurvey.Package.Fault
import EditionSurvey.Value.Basic

set_option autoImplicit false

namespace EditionSurvey

/-- A file or a directory. -/
inductive FileNode where
  /-- a file with its content -/
  | file (bytes : List UInt8)
  /-- a directory with its entries -/
  | directory (entries : List (String × FileNode))
  deriving Inhabited

/-- A file tree and the current directory. -/
structure FileTree where
  /-- the directory at the top -/
  top : FileNode
  /-- the components of the current directory -/
  here : List String := []
  deriving Inhabited

/-- The largest number of bytes in a name. -/
def nameLimit : Nat := 255

/-- The number of bytes that a path must not reach. -/
def pathLimit : Nat := 4096

namespace FileNode

/-- Follow components from a node; `above` are the directories over it, nearest first. -/
def follow (above : List FileNode) (node : FileNode) : List String → Except FileFailure FileNode
  | [] => .ok node
  | name :: rest =>
      match node with
      | .file _ => .error .notADirectory
      | .directory entries =>
          if name = ".." then
            match above with
            | [] => follow [] node rest
            | up :: above => follow above up rest
          else if name = "." then follow above node rest
          else if nameLimit < name.utf8ByteSize then .error .nameTooLong
          else match entries.lookup name with
            | none => .error .missing
            | some next => follow (node :: above) next rest

/-- Put a node at a place below a node.  Directories on the way that are missing are made, and
nothing is put below a file. -/
def put (node item : FileNode) : List String → FileNode
  | [] => item
  | name :: rest =>
      match node with
      | .file bytes => .file bytes
      | .directory entries =>
          let inner := (entries.lookup name).getD (.directory [])
          .directory (setMember entries name (put inner item rest))

mutual

/-- The contents of all files of a name below a node. -/
def contentsNamed (name : String) : FileNode → List (List UInt8)
  | .file _ => []
  | .directory entries => contentsNamedIn name entries

/-- The contents of all files of a name among entries and below them. -/
def contentsNamedIn (name : String) : List (String × FileNode) → List (List UInt8)
  | [] => []
  | entry :: rest => contentsNamedAt name entry ++ contentsNamedIn name rest

/-- The contents of all files of a name at an entry and below it. -/
def contentsNamedAt (name : String) : String × FileNode → List (List UInt8)
  | (key, node) =>
      match node with
      | .file bytes => if key = name then [bytes] else []
      | .directory _ => contentsNamed name node

end

end FileNode

namespace FileTree

/-- Whether a path holds the character zero. -/
def hasZero (path : Path) : Bool := path.parts.any fun part => part.toList.contains '\x00'

/-- The components from the top to a path. -/
def fromTop (tree : FileTree) (path : Path) : List String :=
  if path.anchor = .here then tree.here ++ path.parts else path.parts

/-- What is at a path. -/
def find (tree : FileTree) (path : Path) : Except Fault FileNode :=
  if hasZero path then .error .zeroInPath
  else if pathLimit ≤ path.toString.utf8ByteSize then .error (.file .nameTooLong)
  else (tree.top.follow [] (tree.fromTop path)).mapError .file

/-- A path is not looked up, or its components are followed. -/
theorem find_cases (tree : FileTree) (path : Path) :
    (hasZero path = true ∧ tree.find path = .error .zeroInPath) ∨
      (pathLimit ≤ path.toString.utf8ByteSize ∧ tree.find path = .error (.file .nameTooLong)) ∨
      (hasZero path = false ∧ path.toString.utf8ByteSize < pathLimit ∧
        tree.find path = (tree.top.follow [] (tree.fromTop path)).mapError .file) := by
  unfold find
  split
  · next hzero => exact .inl ⟨hzero, rfl⟩
  · next hzero =>
      split
      · next hlong => exact .inr (.inl ⟨hlong, rfl⟩)
      · next hlong => exact .inr (.inr ⟨by simpa using hzero, Nat.lt_of_not_le hlong, rfl⟩)

/-- The components of a text that names a place; a slash at the end asks for a directory. -/
def placeComponents (text : List Char) : List String :=
  let names := ((Text.cutAt '/' text).filter (· ≠ [])).map String.ofList
  if text.getLast? = some '/' then names ++ ["."] else names

/-- What is at the place that a text names, if there is anything.  The text is taken as it is
written. -/
def findPlace (tree : FileTree) (text : String) : Except Fault (Option FileNode) :=
  let cs := text.toList
  if cs.contains '\x00' then .error .zeroInPath
  else if cs.isEmpty || pathLimit ≤ text.utf8ByteSize then .ok none
  else
    let start := if cs.head? = some '/' then [] else tree.here
    .ok (tree.top.follow [] (start ++ placeComponents cs)).toOption

/-- Whether there is something at a path that passes a test.  There is nothing at a path that
leads nowhere, but a name that is too long cannot be looked up. -/
def test (tree : FileTree) (path : Path) (holds : FileNode → Bool) : Except Fault Bool :=
  match tree.find path with
  | .ok node => .ok (holds node)
  | .error (.file .nameTooLong) => .error (.file .nameTooLong)
  | .error _ => .ok false

/-- Whether there is a file at a path. -/
def isFile (tree : FileTree) (path : Path) : Except Fault Bool :=
  tree.test path fun node => match node with
    | .file _ => true
    | .directory _ => false

/-- Whether there is a directory at a path. -/
def isDirectory (tree : FileTree) (path : Path) : Except Fault Bool :=
  tree.test path fun node => match node with
    | .file _ => false
    | .directory _ => true

/-- The content of a file. -/
def read (tree : FileTree) (path : Path) : Except Fault (Except FileFailure (List UInt8)) :=
  match tree.find path with
  | .ok (.file bytes) => .ok (.ok bytes)
  | .ok (.directory _) => .ok (.error .isADirectory)
  | .error (.file failure) => .ok (.error failure)
  | .error fault => .error fault

/-- The absolute path of a path. -/
def resolve (tree : FileTree) (path : Path) : Except Fault Path :=
  if hasZero path then .error .zeroInPath else .ok (path.resolve tree.here)

/-- Put a file at a path.  Its directory has to exist, and nothing but a file may be there. -/
def write (tree : FileTree) (path : Path) (bytes : List UInt8) : Except Fault FileTree :=
  match tree.find path with
  | .ok (.directory _) => .error (.file .isADirectory)
  | .error (.file .missing) =>
      if path.name = ".." then .error (.file .missing)
      else match tree.find path.parent with
        | .ok (.directory _) => .ok (place path)
        | .ok (.file _) => .error (.file .notADirectory)
        | .error fault => .error fault
  | .error fault => .error fault
  | .ok (.file _) => .ok (place path)
where
  /-- The tree with the file at the place that the path leads to. -/
  place (path : Path) : FileTree :=
    { tree with top := tree.top.put (.file bytes) (Path.follow [] (tree.fromTop path)) }

end FileTree

end EditionSurvey
