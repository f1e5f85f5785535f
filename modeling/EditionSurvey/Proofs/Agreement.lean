/-
  Proofs/Agreement.lean --- file trees that no survey of a package tells apart.

  Two trees agree when they have the same files and directories, when the manifests in one
  directory say the same, and when an entry that may be read has the same text.  What a manifest
  does not say, and what is in a file that is no entry, does not matter.  Then names lead to the
  same directories and entries, and a survey does exactly the same on both, with the same log
  (`checkPackage_agreed`).
-/
import EditionSurvey.Proofs.Rearrangement
import EditionSurvey.Survey.Check

set_option autoImplicit false

namespace EditionSurvey

/-! ## Trees that agree -/

/-- The path leads somewhere from the current directory, and not just to it. -/
def Path.Proper (path : Path) : Prop := path.anchor = .here → path.parts ≠ []

theorem Path.proper_child (directory : Path) (name : String) : (directory.child name).Proper := by
  intro _
  simp [Path.child]

namespace FileTree

/-- Two trees have the same files and directories, the same manifests as far as these matter, and
the same scripts. -/
structure Agree (first second : FileTree) : Prop where
  /-- the same files -/
  isFile : first.isFile = second.isFile
  /-- the same directories -/
  isDirectory : first.isDirectory = second.isDirectory
  /-- the same current directory -/
  resolve : first.resolve = second.resolve
  /-- manifests that say the same, or the same reason why there is none -/
  manifestAt : ∀ directory, Alike (Alike Manifest.Equivalent) (first.manifestAt directory)
    (second.manifestAt directory)
  /-- the same texts of scripts -/
  readScript : ∀ path, path.Proper → isNonSource path = false →
    first.readScript path = second.readScript path
  /-- the same names in all manifests -/
  dependencyNames : first.dependencyNames = second.dependencyNames

/-! ## Where names lead -/

theorem mem_of_firstPassing {test : Path → Except Fault Bool} {paths : List Path} {path : Path}
    (h : firstPassing test paths = .ok (some path)) : path ∈ paths := by
  fun_induction firstPassing test paths with
  | case1 => cases h
  | case2 => cases h
  | case3 first rest =>
      obtain rfl := Option.some.inj (Except.ok.inj h)
      exact List.mem_cons_self
  | case4 first rest _ ih => exact List.mem_cons_of_mem _ (ih h)

/-- What is found is not just the current directory. -/
def FindsProper (answer : Except Fault (Option Path)) : Prop :=
  ∀ path, answer = .ok (some path) → path.Proper

theorem FindsProper.of_firstPassing {test : Path → Except Fault Bool} {paths : List Path}
    (h : ∀ path ∈ paths, path.Proper) : FindsProper (firstPassing test paths) :=
  fun path hpath => h path (mem_of_firstPassing hpath)

theorem FindsProper.bind {α : Type} {answer : Except Fault α}
    {next : α → Except Fault (Option Path)} (h : ∀ a, answer = .ok a → FindsProper (next a)) :
    FindsProper (answer >>= next) := by
  cases answer with
  | error fault => exact fun _ hpath => by cases hpath
  | ok a => exact h a rfl

theorem FindsProper.of_some {path : Path} (h : path.Proper) : FindsProper (.ok (some path)) := by
  rintro _ ⟨⟩
  exact h

theorem findsProper_none : FindsProper (.ok none) := fun _ h => by cases h

theorem findsProper_error (fault : Fault) : FindsProper (.error fault) := fun _ h => by cases h

theorem findsProper_asFile (tree : FileTree) {path : Path} (hpath : path.Proper) :
    FindsProper (tree.asFile path) := by
  refine FindsProper.bind fun found _ => ?_
  split
  · exact .of_some hpath
  · show FindsProper (if path.name = "" then _ else _)
    split
    · exact findsProper_error _
    · refine .of_firstPassing fun file hfile => ?_
      obtain ⟨ending, _, rfl⟩ := List.mem_map.mp hfile
      exact Path.proper_child _ _

theorem findsProper_asDirectory (tree : FileTree) (path : Path) :
    FindsProper (tree.asDirectory path) := by
  refine FindsProper.bind fun found _ => ?_
  split
  · refine .of_firstPassing fun file hfile => ?_
    obtain ⟨name, _, rfl⟩ := List.mem_map.mp hfile
    exact Path.proper_child path name
  · exact findsProper_none

/-- No target leads to the current directory as such: its path is resolved before it is probed, and
a resolved path is absolute. -/
theorem findsProper_followTarget (tree : FileTree) (directory : Path) (target : String) :
    FindsProper (tree.followTarget directory target) := by
  refine FindsProper.bind fun path hpath => ?_
  have hproper : path.Proper := by
    unfold resolve at hpath
    split at hpath
    · cases hpath
    · obtain rfl := Except.ok.inj hpath
      exact fun hanchor => by cases hanchor
  refine FindsProper.bind fun file hfile => ?_
  cases file with
  | none => exact findsProper_asDirectory tree path
  | some file => exact .of_some (findsProper_asFile tree hproper file hfile)

theorem findsProper_entryAmong (tree : FileTree) (directory : Path) (targets : List String) :
    FindsProper (tree.entryAmong directory targets) := by
  induction targets with
  | nil => exact findsProper_asDirectory tree directory
  | cons target rest ih =>
      refine FindsProper.bind fun file hfile => ?_
      cases file with
      | none => exact ih
      | some file => exact .of_some (findsProper_followTarget tree directory target file hfile)

variable {first second : FileTree} (h : Agree first second)

include h

theorem asFile_eq : first.asFile = second.asFile := by
  funext path
  rw [asFile, asFile, h.isFile]

theorem asDirectory_eq : first.asDirectory = second.asDirectory := by
  funext path
  rw [asDirectory, asDirectory, h.isFile, h.isDirectory]

theorem followTarget_eq : first.followTarget = second.followTarget := by
  funext directory target
  rw [followTarget, followTarget, asFile_eq h, asDirectory_eq h, h.resolve]

theorem entryAmong_eq (directory : Path) (targets : List String) :
    first.entryAmong directory targets = second.entryAmong directory targets := by
  induction targets with
  | nil => rw [entryAmong, entryAmong, asDirectory_eq h]
  | cons target rest ih => rw [entryAmong, entryAmong, followTarget_eq h, ih]

/-- Manifests are read at the same cost, and say the same where they can be read. -/
theorem readManifest_agreed (directory : Path) :
    (first.readManifest directory).log = (second.readManifest directory).log ∧
      Alike (Alike Manifest.Equivalent) (first.readManifest directory).result
        (second.readManifest directory).result := by
  have hmanifest := h.manifestAt directory
  unfold readManifest
  revert hmanifest
  generalize first.manifestAt directory = found
  generalize second.manifestAt directory = other
  rintro (⟨hsame | flaw⟩ | fault)
  · refine ⟨?_, .ok (.ok hsame)⟩
    rw [Logged.bind_of_ok _ rfl, Logged.bind_of_ok _ rfl]
    simp only [hsame.dependencies.length_eq, hsame.peerDependencies.length_eq]
    rfl
  · exact ⟨rfl, .ok (.error _)⟩
  · exact ⟨rfl, .error _⟩

/-- An entry is found by the targets of the manifest, and these are the same. -/
theorem entryOfDirectory_eq : first.entryOfDirectory = second.entryOfDirectory := by
  funext directory
  obtain ⟨hlog, hresult⟩ := readManifest_agreed h directory
  unfold entryOfDirectory
  revert hlog hresult
  rcases first.readManifest directory with ⟨log, answer⟩
  rcases second.readManifest directory with ⟨others, other⟩
  rintro rfl (⟨hsame | failure⟩ | fault)
  · rw [Logged.bind_of_ok _ rfl, Logged.bind_of_ok _ rfl]
    simp only [hsame.targets_eq, entryAmong_eq h]
  · rw [Logged.bind_of_ok _ rfl, Logged.bind_of_ok _ rfl]
    simp only [entryAmong_eq h]
  · rfl

theorem entryAmongCandidates_eq (name : String) (candidates : List Path) :
    first.entryAmongCandidates name candidates = second.entryAmongCandidates name candidates := by
  induction candidates with
  | nil => rfl
  | cons candidate rest ih =>
      rw [entryAmongCandidates, entryAmongCandidates, h.isDirectory, entryOfDirectory_eq h, ih]

theorem resolveEntry_eq : first.resolveEntry = second.resolveEntry := by
  funext name searchRoot
  unfold resolveEntry
  simp only [h.resolve, entryAmongCandidates_eq h]

theorem findDirectory_eq : first.findDirectory = second.findDirectory := by
  funext name searchRoot
  rw [findDirectory, findDirectory, h.resolve, h.isDirectory]

theorem locateRoot_eq : first.locateRoot = second.locateRoot := by
  funext options
  rw [locateRoot, locateRoot, h.resolve, h.isFile, findDirectory_eq h]

omit h

theorem proper_of_entryOfDirectory {tree : FileTree} {directory path : Path}
    (h : (tree.entryOfDirectory directory).result = .ok (some path)) : path.Proper := by
  obtain ⟨_, _, h⟩ := Logged.exists_of_bind_ok h
  exact findsProper_entryAmong tree directory _ path h

theorem proper_of_entryAmongCandidates {tree : FileTree} {name : String} {candidates : List Path}
    {path : Path} (h : (tree.entryAmongCandidates name candidates).result = .ok (some path)) :
    path.Proper := by
  induction candidates with
  | nil => cases h
  | cons candidate rest ih =>
      obtain ⟨found, _, h⟩ := Logged.exists_of_bind_ok h
      split at h
      · obtain ⟨entry, hentry, h⟩ := Logged.exists_of_bind_ok h
        cases entry with
        | none => exact ih h
        | some entry =>
            obtain ⟨_, _, h⟩ := Logged.exists_of_bind_ok h
            obtain rfl := Option.some.inj (Except.ok.inj h)
            exact proper_of_entryOfDirectory hentry
      · exact ih h

theorem proper_of_resolveEntry {tree : FileTree} {name : String} {searchRoot path : Path}
    (h : (tree.resolveEntry name searchRoot).result = .ok (.ok path)) : path.Proper := by
  obtain ⟨resolved, _, h⟩ := Logged.exists_of_bind_ok h
  obtain ⟨entry, hentry, h⟩ := Logged.exists_of_bind_ok h
  cases entry with
  | none => cases h
  | some entry =>
      obtain rfl := Except.ok.inj (Except.ok.inj h)
      exact proper_of_entryAmongCandidates hentry

end FileTree

/-! ## Surveys of trees that agree -/

namespace Survey

variable {first second : FileTree} {options : Options}

/-- Of the files, a judgement looks at the text of the entry only. -/
theorem evaluate_eq_of_readScript {entry : Option Path}
    (hread : ∀ path ∈ entry, isNonSource path = false →
      first.readScript path = second.readScript path) :
    (first.survey options).evaluate entry = (second.survey options).evaluate entry := by
  cases entry with
  | none => rfl
  | some path =>
      rw [evaluate, evaluate]
      split
      · rfl
      · next hsource =>
          have hasked : (first.survey options).surroundings.read path =
              (second.survey options).surroundings.read path :=
            congrArg Logged.ofExcept (hread path rfl (by simpa using hsource))
          unfold judge
          rw [hasked]
          rfl

theorem classify_eq_of_readScript (name : String) {entry : Option Path}
    (hread : ∀ path ∈ entry, isNonSource path = false →
      first.readScript path = second.readScript path) (depth : Int) :
    (first.survey options).classify name entry depth =
      (second.survey options).classify name entry depth := by
  unfold classify classifyNew
  rw [evaluate_eq_of_readScript hread]
  rfl

variable (h : FileTree.Agree first second)

include h

theorem classify_agreed (name : String) {entry : Option Path} (hentry : ∀ path ∈ entry, path.Proper)
    (depth : Int) :
    (first.survey options).classify name entry depth =
      (second.survey options).classify name entry depth :=
  classify_eq_of_readScript name
    (fun path hpath hsource => h.readScript path (hentry path hpath) hsource) depth

theorem openPackage_agreed (name : String) (directory : Path) (depth : Int) :
    Run.Lockstep Eq Eq ((first.survey options).openPackage name directory depth)
      ((second.survey options).openPackage name directory depth) := by
  obtain ⟨hlog, hresult⟩ := FileTree.readManifest_agreed h directory
  refine Run.lockstep_bind (Run.lockstep_ask hresult ?_) ?_
  · rintro p _ rfl
    show p.extend
      (.call (.manifest directory) :: (first.readManifest directory).log.map .record) = _
    rw [hlog]
    rfl
  · rintro _ _ (hsame | failure)
    · refine Run.lockstep_pure (congrArg some ?_)
      rw [hsame.dependencyNames_eq]
      rfl
    · exact Run.lockstep_refl _

theorem entryOf_agreed (name : String) :
    (first.survey options).entryOf name = (second.survey options).entryOf name := by
  have hresolve : (first.survey options).surroundings.resolve =
      (second.survey options).surroundings.resolve := FileTree.resolveEntry_eq h
  unfold entryOf
  rw [hresolve]
  rfl

/-- A visit does the same on trees that agree: it resolves the name alike, judges the same entry, and
opens what needs to be opened. -/
theorem visit_agreed (name : String) (depth : Int) :
    Run.Lockstep Eq Eq ((first.survey options).visit name depth)
      ((second.survey options).visit name depth) := by
  have hdescend : ∀ state : PackageState, Run.Lockstep Eq Eq
      ((first.survey options).descend name state depth)
      ((second.survey options).descend name state depth) := by
    intro state
    have hlocate : (first.survey options).surroundings.locate =
        (second.survey options).surroundings.locate := by
      funext name searchRoot
      exact congrArg (fun find => Logged.ofExcept (find name searchRoot))
        (FileTree.findDirectory_eq h)
    rw [descend, descend, hlocate]
    split
    · refine Run.lockstep_bind (Run.lockstep_refl _) ?_
      rintro directory _ rfl
      exact openPackage_agreed h name directory _
    · exact Run.lockstep_refl _
  have hnew : Run.Lockstep Eq Eq ((first.survey options).visitNew name depth)
      ((second.survey options).visitNew name depth) := by
    rw [visitNew, visitNew, ← entryOf_agreed h name]
    refine Run.lockstep_bind ((Run.lockstep_refl _).with_result (blind_entryOf _ _)) ?_
    rintro entry _ ⟨rfl, hentry⟩
    have hproper : ∀ path ∈ entry, path.Proper := by
      rintro path ⟨⟩
      exact FileTree.proper_of_resolveEntry (resolve_of_entryOf hentry)
    rw [classify_agreed h name hproper]
    refine Run.lockstep_bind (Run.lockstep_refl _) ?_
    rintro state _ rfl
    exact hdescend state
  refine Run.lockstep_bind Run.lockstep_get ?_
  rintro p _ rfl
  split
  · exact Run.lockstep_refl _
  · exact hnew

theorem startPackage_agreed :
    Run.Lockstep Eq Eq (startPackage first options) (startPackage second options) := by
  have hroot : ∀ directory, Run.Lockstep Eq (fun m n => ∀ place, ownName m place = ownName n place)
      (rootManifest first directory) (rootManifest second directory) := by
    intro directory
    obtain ⟨hlog, hresult⟩ := FileTree.readManifest_agreed h directory
    refine Run.lockstep_bind (Run.lockstep_perform hresult ?_) ?_
    · rintro p _ rfl
      rw [hlog]
    · rintro _ _ (hsame | failure)
      · refine Run.lockstep_pure fun place => ?_
        simp only [ownName, Option.bind_some, hsame.name]
      · exact Run.lockstep_bind (Run.lockstep_refl _) fun _ _ _ => Run.lockstep_pure fun _ => rfl
  unfold startPackage
  rw [FileTree.locateRoot_eq h, FileTree.entryOfDirectory_eq h]
  refine Run.lockstep_bind (Run.lockstep_refl _) ?_
  rintro ⟨asked, directory⟩ _ rfl
  refine Run.lockstep_bind (Run.lockstep_refl _) fun _ _ _ => ?_
  refine Run.lockstep_bind (hroot directory) fun manifest other hname => ?_
  rw [hname directory]
  refine Run.lockstep_bind ((Run.lockstep_refl _).with_result (Run.blind_perform _)) ?_
  rintro entry _ ⟨rfl, hentry⟩
  have hproper : ∀ path ∈ entry, path.Proper := by
    rintro path ⟨⟩
    exact FileTree.proper_of_entryOfDirectory ((Run.result_perform _).symm.trans hentry)
  rw [classify_agreed h _ hproper]
  exact Run.lockstep_refl _

/-- A survey of a package does the same on trees that agree. -/
theorem checkPackage_agreed :
    Run.Lockstep Eq Eq (checkPackage first options) (checkPackage second options) := by
  unfold checkPackage
  rw [h.dependencyNames]
  refine Run.lockstep_bind (startPackage_agreed h) ?_
  rintro ⟨name, directory⟩ _ rfl
  refine Run.lockstep_bind
    (walk_lockstep (openPackage_agreed h name directory 1) (visit_agreed h) _) ?_
  rintro _ _ rfl
  exact Run.lockstep_refl _

end Survey

end EditionSurvey
