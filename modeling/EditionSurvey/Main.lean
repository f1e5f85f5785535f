/-
  Main.lean --- the command.

  The files that a survey may ask for are read first: those below the current directory,
  those below the paths among the arguments, and the installed packages above.  Then the
  survey is done on what was read, and its results are printed and written.
-/
import EditionSurvey.Command.Execute

set_option autoImplicit false

namespace EditionSurvey.Command

/-- Read what is at a place.  A directory that holds itself is not entered again; `above` are
the real paths of the directories over the place. -/
partial def scan (above : List String) (place : String) : IO (Option FileNode) := do
  let real ← try some <$> IO.FS.realPath place catch _ => pure none
  let some real := real | return none
  if above.contains real.toString then return some (.directory [])
  let entries ← try some <$> real.readDir catch _ => pure none
  match entries with
  | none =>
      let bytes ← try some <$> IO.FS.readBinFile place catch _ => pure none
      return bytes.map fun b => .file b.toList
  | some entries =>
      let mut nodes : List (String × FileNode) := []
      for entry in entries do
        if let some node ← scan (real.toString :: above) entry.path.toString then
          nodes := (entry.fileName, node) :: nodes
      return some (.directory nodes)

/-- Add what is at a place to a tree. -/
def addPlace (tree : FileTree) (place : Path) : IO FileTree := do
  let resolved := place.resolve tree.here
  match ← scan [] resolved.toString with
  | some node => return { tree with top := tree.top.put node resolved.parts }
  | none => return tree

/-- The places that are read: those among the arguments, each with the installed packages above
it, and the current directory last. -/
def placesOf (arguments : Arguments) (here : Path) : List Path :=
  let given := arguments.gifts.filterMap fun gift => match gift with
    | (.packageName, .text s) => some (Path.ofString s)
    | (.resolvePath, .text s) => some (Path.ofString s)
    | (.target, .text s) => some (Path.ofString s)
    | _ => none
  let above := (here :: given).flatMap fun path =>
    (path.resolve here.parts).ancestors.map (·.child installedName)
  above ++ given ++ [here]

/-- Add the directory that a file is to be written to, if it exists. -/
def addOutput (tree : FileTree) (output : Path) : IO FileTree := do
  let directory := (output.resolve tree.here).parent
  let known ← try (← IO.FS.realPath directory.toString).isDir catch _ => pure false
  match known, tree.find directory with
  | true, .error _ => return { tree with top := tree.top.put (.directory []) directory.parts }
  | _, _ => return tree

/-- Read the files that a survey may ask for. -/
def readTree (args : List String) : IO FileTree := do
  let here := Path.ofString (← IO.currentDir).toString
  let arguments := (readArguments args).toOption.getD {}
  let mut tree : FileTree := { top := .directory [], here := here.parts }
  for place in placesOf arguments here do
    tree ← addPlace tree place
  for gift in arguments.gifts do
    match gift with
    | (.output, .text s) => tree ← addOutput tree (.ofString s)
    | _ => pure ()
  return tree

end EditionSurvey.Command

open EditionSurvey.Command

/-- Do what the arguments ask for. -/
def main (args : List String) : IO UInt32 := do
  let tree ← readTree args
  let effects := execute tree (← IO.getEnv "ES_COMPAT_VERSION") args
  IO.print effects.out
  IO.eprint effects.err
  if let some (path, bytes) := effects.written then
    IO.FS.writeBinFile path.toString ⟨bytes.toArray⟩
  if let some fault := effects.fault then
    IO.eprintln fault.message
  return effects.status.toUInt32
