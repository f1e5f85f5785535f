/-
  Package/Discovery.lean --- the scripts below a directory.

  Everything below the directory is looked at, at any depth.  Scripts count unless they are
  below a directory that holds no sources of its own, and are in the order of their
  components.
-/
import EditionSurvey.Package.FileTree

set_option autoImplicit false

namespace EditionSurvey

/-- The directories that are not looked into. -/
def skippedNames : List String :=
  [".git", ".hg", ".svn", "node_modules", ".cache", ".nyc_output", "coverage"]

/-- The suffixes of scripts. -/
def scriptSuffixes : List String := [".js", ".cjs"]

/-- The path of an item below a directory. -/
def scriptPath (directory : Path) (components : List String) : Path :=
  { directory with parts := directory.parts ++ components }

mutual

/-- The items below a node, each with its components. -/
def FileNode.items : FileNode → List (List String × FileNode)
  | .file _ => []
  | .directory entries => itemsIn entries

/-- The items among entries and below them, each with its components. -/
def itemsIn : List (String × FileNode) → List (List String × FileNode)
  | [] => []
  | entry :: rest => itemsAt entry ++ itemsIn rest

/-- The items at an entry and below it, each with its components. -/
def itemsAt : String × FileNode → List (List String × FileNode)
  | (name, node) => ([name], node) :: node.items.map fun item => (name :: item.1, item.2)

end

/-- Whether an item below a directory is listed as a script.  No letter outside ASCII is folded
into one of the suffixes. -/
def isListed (directory : Path) : List String × FileNode → Bool
  | (_, .directory _) => false
  | (components, .file _) =>
      scriptSuffixes.contains (scriptPath directory components).suffix.toLower &&
        !components.any skippedNames.contains

/-- Whether an item below a directory cannot be looked at, because its path is too long. -/
def isOverlong (directory : Path) (components : List String) : Bool :=
  pathLimit ≤ (scriptPath directory components).toString.utf8ByteSize

/-- The order of components. -/
def componentsLe : List String → List String → Bool
  | [], _ => true
  | _ :: _, [] => false
  | a :: as, b :: bs => if a = b then componentsLe as bs else decide (a < b)

/-- The components of the scripts below a directory; below anything else there are none.  Every
item is looked at, those that are skipped too. -/
def FileTree.scriptsBelow (tree : FileTree) (directory : Path) : Except Fault (List (List String)) := do
  if ← tree.isDirectory directory then
    let node ← tree.find directory
    if node.items.any fun item => isOverlong directory item.1 then
      throw (.file .nameTooLong)
    return ((node.items.filter (isListed directory)).map Prod.fst).mergeSort componentsLe
  else return []

/-- The scripts below a directory. -/
def FileTree.discoverScripts (tree : FileTree) (directory : Path) : Except Fault (List Path) := do
  return (← tree.scriptsBelow directory).map (scriptPath directory)

end EditionSurvey
