/-
  Survey/Catalog.lean --- a survey of packages that are listed in a table.

  A catalog lists packages with their dependencies and entries, without any files behind
  them.  A package has a directory of its name below `/pkgs`, and a directory or an entry
  belongs to the package that the last component of the directory names.
-/
import EditionSurvey.Survey.Walk

set_option autoImplicit false

namespace EditionSurvey

/-- A package of a catalog. -/
structure CatalogPackage where
  /-- what it needs; a package without has no manifest -/
  dependencies : Option (List String) := none
  /-- what its users have to bring along -/
  peers : List String := []
  /-- its entry, relative to its directory -/
  entry : Option String := none
  /-- the text of its entry -/
  source : Option String := none
  deriving Repr, Inhabited

/-- Packages by name. -/
structure Catalog where
  /-- the packages -/
  packages : List (String × CatalogPackage)

namespace Catalog

/-- The package of a name. -/
def find? (catalog : Catalog) (name : String) : Option CatalogPackage :=
  catalog.packages.lookup name

/-- The directory of the package of a name. -/
def directoryOf (name : String) : Path := Path.ofString "/pkgs" ++ Path.ofString name

/-- The manifest of a package. -/
def CatalogPackage.manifest? (package : CatalogPackage) : Option Manifest :=
  package.dependencies.map fun names =>
    { dependencies := names.map (·, "*"), peerDependencies := package.peers.map (·, "*") }

/-- The manifest in a directory. -/
def manifestIn (catalog : Catalog) (directory : Path) : Except ManifestFailure Manifest :=
  match (catalog.find? directory.name).bind CatalogPackage.manifest? with
  | some manifest => .ok manifest
  | none => .error ⟨directory, .file .missing⟩

/-- The text of the script at a path. -/
def sourceAt (catalog : Catalog) (path : Path) : Except ReadFailure String :=
  match (catalog.find? path.parent.name).bind CatalogPackage.source with
  | some source => .ok source
  | none => .error ⟨path, .missing⟩

/-- What a survey of a catalog relies on. -/
def surroundings (catalog : Catalog) : Surroundings where
  manifest directory := pure (catalog.manifestIn directory)
  resolve name searchRoot := pure <|
    match (catalog.find? name).bind CatalogPackage.entry with
    | some entry => .ok (directoryOf name ++ Path.ofString entry)
    | none => .error ⟨name, searchRoot⟩
  locate name _ := pure (directoryOf name)
  read path := pure (catalog.sourceAt path)

/-- All names that packages of a catalog need or want to be brought along. -/
def mentioned (catalog : Catalog) : List String :=
  inOrder (catalog.packages.flatMap fun entry => entry.2.dependencies.getD [] ++ entry.2.peers)

/-- A survey of a catalog. -/
def survey (catalog : Catalog) (options : Options) : Survey :=
  { options, surroundings := catalog.surroundings }

/-- Visit the dependencies of a package of a catalog. -/
def walk (catalog : Catalog) (options : Options) (root : String) (depth : Int) : Run Unit :=
  (catalog.survey options).walk (Survey.stepsFor catalog.mentioned.length) root
    (directoryOf root) depth

end Catalog

end EditionSurvey
