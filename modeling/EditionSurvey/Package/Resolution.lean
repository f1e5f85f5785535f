/-
  Package/Resolution.lean --- where packages are and what their entries are.

  A package is looked for in the `node_modules` of a directory and of those above it,
  except in one that is itself called `node_modules`.  Its entry is what its exports or
  its main file lead to, or else its index file.  An entry may be named without its
  suffix, or by a directory with an index file.
-/
import EditionSurvey.Package.Exports
import EditionSurvey.Package.Reading

set_option autoImplicit false

namespace EditionSurvey

/-- The name of a directory of installed packages. -/
def installedName : String := "node_modules"

/-- The suffixes that an entry may be named without. -/
def entrySuffixes : List String := [".js", ".json", ".node"]

/-- The names of index files. -/
def indexNames : List String := entrySuffixes.map ("index" ++ ·)

/-- The first path that passes a test; a test that fails ends the search. -/
def firstPassing (test : Path → Except Fault Bool) : List Path → Except Fault (Option Path)
  | [] => .ok none
  | path :: rest =>
      match test path with
      | .error fault => .error fault
      | .ok true => .ok (some path)
      | .ok false => firstPassing test rest

namespace FileTree

/-- The directories in which a package may be installed for a directory, nearest first. -/
def candidates (resolved : Path) (name : String) : List Path :=
  ((resolved :: resolved.ancestors).filter fun base => base.name ≠ installedName).map
    fun base => base.child installedName ++ Path.ofString name

/-- The directory in which a package is installed; without one, where it would be. -/
def findDirectory (tree : FileTree) (name : String) (searchRoot : Path) : Except Fault Path := do
  let resolved ← tree.resolve searchRoot
  let found ← firstPassing tree.isDirectory (candidates resolved name)
  return found.getD (resolved.child installedName ++ Path.ofString name)

/-- The file that a path names, with or without its suffix. -/
def asFile (tree : FileTree) (path : Path) : Except Fault (Option Path) := do
  if ← tree.isFile path then return some path
  if path.name = "" then throw (.emptyName path)
  firstPassing tree.isFile (entrySuffixes.map path.extend)

/-- The index file of a directory. -/
def asDirectory (tree : FileTree) (path : Path) : Except Fault (Option Path) := do
  if ← tree.isDirectory path then firstPassing tree.isFile (indexNames.map path.child)
  else return none

/-- The file that a target of a package leads to. -/
def followTarget (tree : FileTree) (directory : Path) (target : String) :
    Except Fault (Option Path) := do
  let path ← tree.resolve (directory ++ Path.ofString target)
  match ← tree.asFile path with
  | some file => return some file
  | none => tree.asDirectory path

/-- The first file that a target of a package leads to, or its index file. -/
def entryAmong (tree : FileTree) (directory : Path) : List String → Except Fault (Option Path)
  | [] => tree.asDirectory directory
  | target :: rest => do
      match ← tree.followTarget directory target with
      | some file => return some file
      | none => tree.entryAmong directory rest

end FileTree

/-- What a manifest names as entry: the target of its exports, then its main file. -/
def Manifest.targets (manifest : Manifest) : List String :=
  ((exportTarget? manifest.exports).toList ++ manifest.main.toList).filter (· ≠ "")

namespace FileTree

/-- The entry of the package in a directory. -/
def entryOfDirectory (tree : FileTree) (directory : Path) : Logged (Option Path) := do
  let targets :=
    match ← tree.readManifest directory with
    | .ok manifest => manifest.targets
    | .error _ => []
  Logged.ofExcept (tree.entryAmong directory targets)

/-- The first entry among candidate directories. -/
def entryAmongCandidates (tree : FileTree) (name : String) : List Path → Logged (Option Path)
  | [] => pure none
  | candidate :: rest => do
      if ← Logged.ofExcept (tree.isDirectory candidate) then
        match ← tree.entryOfDirectory candidate with
        | some entry => do
            Logged.write .debug .resolver s!"Resolved {name} -> {entry}"
            pure (some entry)
        | none => tree.entryAmongCandidates name rest
      else tree.entryAmongCandidates name rest

/-- The entry of a package, searched from a directory. -/
def resolveEntry (tree : FileTree) (name : String) (searchRoot : Path) :
    Logged (Except ResolutionFailure Path) := do
  let resolved ← Logged.ofExcept (tree.resolve searchRoot)
  match ← tree.entryAmongCandidates name (candidates resolved name) with
  | some entry => pure (.ok entry)
  | none => pure (.error ⟨name, searchRoot⟩)

end FileTree

end EditionSurvey
