/-
  Package/Path.lean --- paths of files and directories.

  A path is a list of components under an anchor.  Empty components and single dots are
  dropped when a path is read; double dots stay, because what they mean is decided when the
  path is followed.  `resolve` is the one operation that removes them, by the components
  alone.
-/
import EditionSurvey.Text.Cut

set_option autoImplicit false

namespace EditionSurvey

/-- Where a path starts. -/
inductive Anchor where
  /-- at the current directory -/
  | here
  /-- at the top -/
  | top
  /-- at the top, written with exactly two slashes -/
  | doubleTop
  deriving DecidableEq, Repr, Inhabited

/-- How an anchor is written. -/
def Anchor.text : Anchor → String
  | .here => ""
  | .top => "/"
  | .doubleTop => "//"

/-- A path. -/
structure Path where
  /-- where it starts -/
  anchor : Anchor := .here
  /-- the components below the anchor -/
  parts : List String := []
  deriving DecidableEq, Repr, Inhabited

namespace Path

/-- The components that a text names. -/
def components (text : List Char) : List String :=
  ((Text.cutAt '/' text).filter fun word => word ≠ [] && word ≠ ['.']).map String.ofList

/-- The anchor that a text names. -/
def anchorOf : List Char → Anchor
  | '/' :: '/' :: '/' :: _ => .top
  | '/' :: '/' :: _ => .doubleTop
  | '/' :: _ => .top
  | _ => .here

/-- Read a path. -/
def ofString (text : String) : Path where
  anchor := anchorOf text.toList
  parts := components text.toList

/-- Write a path; the current directory is a dot. -/
def toString (path : Path) : String :=
  match path.anchor, path.parts with
  | .here, [] => "."
  | anchor, parts => anchor.text ++ "/".intercalate parts

instance : ToString Path := ⟨toString⟩

/-- A path under another one; one with an anchor of its own stands for itself. -/
def append (base below : Path) : Path :=
  match below.anchor with
  | .here => { base with parts := base.parts ++ below.parts }
  | _ => below

instance : Append Path := ⟨append⟩

/-- The path of an entry of a directory. -/
def child (directory : Path) (name : String) : Path :=
  { directory with parts := directory.parts ++ [name] }

/-- The last component, empty for an anchor alone. -/
def name (path : Path) : String := path.parts.getLast?.getD ""

/-- The path without its last component. -/
def parent (path : Path) : Path := { path with parts := path.parts.dropLast }

/-- The paths above a path, nearest first. -/
def ancestors (path : Path) : List Path :=
  (List.range path.parts.length).reverse.map fun n => { path with parts := path.parts.take n }

/-- From the last dot of a name on; a dot at either end of the name does not count. -/
def suffixOf (name : List Char) : List Char :=
  match name.reverse.span (· ≠ '.') with
  | ([], _) => []
  | (_, []) => []
  | (_, [_]) => []
  | (ending, _) => '.' :: ending.reverse

/-- The suffix of a path. -/
def suffix (path : Path) : String := String.ofList (suffixOf path.name.toList)

/-- The path whose last component is written with more at its end. -/
def extend (path : Path) (ending : String) : Path := path.parent.child (path.name ++ ending)

/-- The place that a component leads to by its name alone: double dots remove what stands before
them, and a single dot stays. -/
def step (place : List String) (part : String) : List String :=
  if part = ".." then place.dropLast else if part = "." then place else place ++ [part]

/-- Follow components by their names alone. -/
def follow (start : List String) (parts : List String) : List String := parts.foldl step start

/-- The absolute path that a path names when read in a directory. -/
def resolve (directory : List String) (path : Path) : Path where
  anchor := .top
  parts := follow (if path.anchor = .here then directory else []) path.parts

theorem append_of_anchor_here {base below : Path} (h : below.anchor = .here) :
    base ++ below = { base with parts := base.parts ++ below.parts } := by
  show append base below = _
  simp [append, h]

theorem follow_cons (start : List String) (part : String) (parts : List String) :
    follow start (part :: parts) = follow (step start part) parts := rfl

example : (ofString "a//b/./c/..").toString = "a/b/c/.." := by decide
example : (ofString "./").toString = "." ∧ (ofString "//x/").toString = "//x" := by decide
example : (ofString "..css").suffix = ".css" ∧ (ofString ".css").suffix = "" := by decide
example : (resolve ["r"] (ofString "../a/./b/..")).toString = "/a" := by decide

end Path

end EditionSurvey
