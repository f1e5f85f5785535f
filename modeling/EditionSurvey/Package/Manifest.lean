/-
  Package/Manifest.lean --- what a package says about itself.

  A manifest is an object with known members; the others are of no interest.  The
  dependencies of a package are named in code point order.
-/
import EditionSurvey.Package.Fault
import EditionSurvey.Value.Reader

set_option autoImplicit false

namespace EditionSurvey

/-- A manifest. -/
structure Manifest where
  /-- the name of the package -/
  name : Option String := none
  /-- its version -/
  version : Option String := none
  /-- its entry, if the exports select none -/
  main : Option String := none
  /-- its exports: a text, a list, an object or nothing -/
  exports : Value := .null
  /-- what it needs, with the versions that do -/
  dependencies : List (String × String) := []
  /-- what its users have to bring along, with the versions that do -/
  peerDependencies : List (String × String) := []
  deriving Inhabited

/-! ## Dependency names -/

/-- Keep one of each run of equal names. -/
def withoutRepeats : List String → List String
  | a :: b :: rest => if a = b then withoutRepeats (b :: rest) else a :: withoutRepeats (b :: rest)
  | names => names

/-- The names in code point order, each once. -/
def inOrder (names : List String) : List String :=
  withoutRepeats (names.mergeSort fun a b => decide (a ≤ b))

/-- The names of the packages that a package needs. -/
def Manifest.dependencyNames (manifest : Manifest) (includePeer : Bool) : List String :=
  let peers := if includePeer then manifest.peerDependencies.map Prod.fst else []
  inOrder (manifest.dependencies.map Prod.fst ++ peers)

theorem mem_withoutRepeats {name : String} {names : List String} :
    name ∈ withoutRepeats names ↔ name ∈ names := by
  fun_induction withoutRepeats names with
  | case1 a rest ih => simp [ih]
  | case2 a b rest _ ih => simp [ih]
  | case3 => rfl

theorem mem_inOrder {name : String} {names : List String} : name ∈ inOrder names ↔ name ∈ names := by
  simp [inOrder, mem_withoutRepeats]

theorem pairwise_lt_withoutRepeats {names : List String} (h : names.Pairwise (· ≤ ·)) :
    (withoutRepeats names).Pairwise (· < ·) := by
  fun_induction withoutRepeats names with
  | case1 a rest ih => exact ih h.tail
  | case2 a b rest hne ih =>
      obtain ⟨hfirst, hrest⟩ := List.pairwise_cons.1 h
      refine List.pairwise_cons.2 ⟨fun x hx => ?_, ih hrest⟩
      have hab : a < b := Std.lt_of_le_of_ne (hfirst b List.mem_cons_self) hne
      rcases List.mem_cons.1 (mem_withoutRepeats.1 hx) with rfl | hx
      · exact hab
      · exact Std.lt_of_lt_of_le hab ((List.pairwise_cons.1 hrest).1 x hx)
  | case3 names hshort =>
      match names, hshort with
      | [], _ => exact List.Pairwise.nil
      | [a], _ => exact List.pairwise_singleton _ a
      | a :: b :: rest, hshort => exact absurd rfl (hshort a b rest)

/-- The names come in strictly ascending order, and none twice. -/
theorem pairwise_lt_inOrder (names : List String) : (inOrder names).Pairwise (· < ·) := by
  apply pairwise_lt_withoutRepeats
  have htrans : ∀ a b c : String, decide (a ≤ b) = true → decide (b ≤ c) = true →
      decide (a ≤ c) = true := by
    simpa using fun a b c => String.le_trans
  have htotal : ∀ a b : String, (decide (a ≤ b) || decide (b ≤ a)) = true := by
    simpa using String.le_total
  exact (List.pairwise_mergeSort htrans htotal names).imp of_decide_eq_true

theorem nodup_inOrder (names : List String) : (inOrder names).Nodup :=
  (pairwise_lt_inOrder names).imp String.ne_of_lt

/-! ## From a value -/

/-- The text that a member may hold. -/
def optionalText (members : List (String × Value)) (name : String) : Except Nat (Option String) :=
  match members.lookup name with
  | none => .ok none
  | some .null => .ok none
  | some (.string s) => .ok (some s)
  | some _ => .error 1

/-- The member in which exports may be: a text, a list, an object or nothing.  Anything else
is wrong in three ways. -/
def exportsOf (members : List (String × Value)) : Except Nat Value :=
  match members.lookup "exports" with
  | none => .ok .null
  | some .null => .ok .null
  | some (.string s) => .ok (.string s)
  | some (.list items) => .ok (.list items)
  | some (.object inner) => .ok (.object inner)
  | some _ => .error 3

/-- The texts among named values, and the number of values that are none. -/
def textsOf : List (String × Value) → List (String × String) × Nat
  | [] => ([], 0)
  | (name, .string s) :: rest => ((name, s) :: (textsOf rest).1, (textsOf rest).2)
  | _ :: rest => ((textsOf rest).1, (textsOf rest).2 + 1)

/-- A table of versions, if there is one. -/
def versionsOf : Option Value → Except Nat (List (String × String))
  | none => .ok []
  | some (.object members) =>
      match textsOf members with
      | (versions, 0) => .ok versions
      | (_, faults) => .error faults
  | some _ => .error 1

/-- The member that names what users have to bring along; it has two spellings. -/
def peersOf (members : List (String × Value)) : Option Value :=
  (members.lookup "peerDependencies").or (members.lookup "peer_dependencies")

/-- The number of faults of a field. -/
def faultCount {α : Type} : Except Nat α → Nat
  | .ok _ => 0
  | .error n => n

/-- The manifest that an object holds, or the number of its faults. -/
def Manifest.ofMembers (members : List (String × Value)) : Except Nat Manifest :=
  let name := optionalText members "name"
  let version := optionalText members "version"
  let main := optionalText members "main"
  let exports := exportsOf members
  let dependencies := versionsOf (members.lookup "dependencies")
  let peerDependencies := versionsOf (peersOf members)
  match name, version, main, exports, dependencies, peerDependencies with
  | .ok name, .ok version, .ok main, .ok exports, .ok dependencies, .ok peerDependencies =>
      .ok { name, version, main, exports, dependencies, peerDependencies }
  | _, _, _, _, _, _ =>
      .error (faultCount name + faultCount version + faultCount main + faultCount exports +
        faultCount dependencies + faultCount peerDependencies)

/-! ## Failures -/

/-- Why a directory yields no manifest. -/
inductive ManifestFlaw where
  /-- the file cannot be had -/
  | file (failure : FileFailure)
  /-- it holds no value -/
  | malformed (text : MalformedText)
  /-- it holds a value that is no object -/
  | notAnObject
  /-- its members have wrong types -/
  | fieldTypes (count : Nat)
  deriving DecidableEq, Repr

/-- The description of a flaw. -/
def ManifestFlaw.text : ManifestFlaw → String
  | .file failure => failure.text
  | .malformed m => "invalid JSON: " ++ m.message
  | .notAnObject => "top-level value is not an object"
  | .fieldTypes count => s!"unexpected field types: {count} error(s)"

/-- A directory that yields no manifest. -/
structure ManifestFailure where
  /-- the directory -/
  directory : Path
  /-- why -/
  flaw : ManifestFlaw
  deriving DecidableEq, Repr

/-- A manifest failure as a sentence. -/
def ManifestFailure.message (failure : ManifestFailure) : String :=
  s!"Cannot read manifest in {failure.directory}: {failure.flaw.text}"

/-- A name that leads to no entry. -/
structure ResolutionFailure where
  /-- the name -/
  name : String
  /-- where the search started -/
  searchRoot : Path
  deriving DecidableEq, Repr

/-- A resolution failure as a sentence. -/
def ResolutionFailure.message (failure : ResolutionFailure) : String :=
  s!"Cannot resolve '{failure.name}' from {failure.searchRoot}"

/-- A script that cannot be read. -/
structure ReadFailure where
  /-- the script -/
  path : Path
  /-- why -/
  failure : FileFailure
  deriving DecidableEq, Repr

/-- A read failure as a sentence. -/
def ReadFailure.message (failure : ReadFailure) : String :=
  s!"Cannot read {failure.path}: {failure.failure.text}"

end EditionSurvey
