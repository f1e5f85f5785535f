/-
  Package/Reading.lean --- reading manifests and scripts from files.

  Line ends are made line feeds first.  A script may hold bytes that are no characters; a
  manifest may not, and one that does ends the run.
-/
import EditionSurvey.Package.FileTree
import EditionSurvey.Package.Log
import EditionSurvey.Package.Manifest

set_option autoImplicit false

namespace EditionSurvey

/-- The name of the file that holds the manifest of a directory. -/
def manifestName : String := "package.json"

/-- The manifest that a text holds, or the reason why it holds none. -/
def manifestOfText (text : List Char) : Except Fault (Except ManifestFlaw Manifest) :=
  match Reader.readFile text with
  | .error (.malformed m left) => .ok (.error (.malformed (Reader.locate text m left)))
  | .error (.numberTooLong digits) => .error (.numberTooLong digits)
  | .error .nestsTooDeep => .error .nestsTooDeep
  | .ok (.object members) => .ok ((Manifest.ofMembers members).mapError .fieldTypes)
  | .ok _ => .ok (.error .notAnObject)

/-- The manifest that bytes hold, or the reason why they hold none. -/
def manifestOfBytes (bytes : List UInt8) : Except Fault (Except ManifestFlaw Manifest) :=
  match Text.decode? bytes with
  | .error fault => .error (.undecodable fault)
  | .ok text => manifestOfText (Text.unifyLineEnds text)

namespace FileTree

/-- The manifest of a directory, or the reason why it has none. -/
def manifestAt (tree : FileTree) (directory : Path) :
    Except Fault (Except ManifestFlaw Manifest) :=
  match tree.read (directory.child manifestName) with
  | .error fault => .error fault
  | .ok (.error failure) => .ok (.error (.file failure))
  | .ok (.ok bytes) => manifestOfBytes bytes

/-- Read the manifest of a directory. -/
def readManifest (tree : FileTree) (directory : Path) :
    Logged (Except ManifestFailure Manifest) := do
  match ← Logged.ofExcept (tree.manifestAt directory) with
  | .error flaw => pure (.error ⟨directory, flaw⟩)
  | .ok manifest => do
      Logged.write .debug .manifest
        s!"Read manifest {directory.child manifestName} ({manifest.dependencies.length} deps, {manifest.peerDependencies.length} peer deps)"
      pure (.ok manifest)

/-- The text of a script. -/
def scriptText (bytes : List UInt8) : String :=
  String.ofList (Text.unifyLineEnds (Text.decodeLossy bytes))

/-- Read a script. -/
def readScript (tree : FileTree) (path : Path) : Except Fault (Except ReadFailure String) :=
  match tree.read path with
  | .error fault => .error fault
  | .ok (.error failure) => .ok (.error ⟨path, failure⟩)
  | .ok (.ok bytes) => .ok (.ok (scriptText bytes))

/-- The names of dependencies that bytes mention as a manifest. -/
def namesInManifest (bytes : List UInt8) : List String :=
  match manifestOfBytes bytes with
  | .ok (.ok manifest) => manifest.dependencyNames true
  | _ => []

/-- The names of dependencies that any manifest of the tree mentions. -/
def dependencyNames (tree : FileTree) : List String :=
  inOrder ((tree.top.contentsNamed manifestName).flatMap namesInManifest)

end FileTree

end EditionSurvey
