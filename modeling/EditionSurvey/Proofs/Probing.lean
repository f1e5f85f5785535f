/-
  Proofs/Probing.lean --- what keeps the entry and the directory of a package from being found.

  A look-up joins texts of manifests and names of packages to paths, and asks what is there.
  Three things end it: a text that holds the character zero is resolved, a target leads to a
  path that has no name and so cannot be written with a suffix, or a path that is asked for is
  too long (`TargetTrouble`, `SearchTrouble`).  Nothing else does: without such texts, a look-up
  yields a path, or says that there is none (`lookups_answer`).

  A path is a text of characters.  Half of a pair that a manifest escapes alone is no character
  and ends a look-up in a way of its own, so such manifests are left out (`ManifestsPaired`).
-/
import EditionSurvey.Proofs.Faults
import EditionSurvey.Proofs.Halves
import EditionSurvey.Proofs.Termination

set_option autoImplicit false

namespace EditionSurvey

/-! ## The character zero -/

theorem flatten_cutAt (separator : Char) (text : List Char) :
    (Text.cutAt separator text).flatten = text.filter (· ≠ separator) := by
  fun_induction Text.cutAt separator text with
  | case1 => rfl
  | case2 rest ih => simpa using ih
  | case3 c rest hne hnil => exact absurd hnil (Text.cutAt_ne_nil _ _)
  | case4 c rest hne piece pieces hcut ih =>
      rw [hcut] at ih
      simpa [hne] using ih

namespace FileTree

/-- A path that is read from a text holds a zero exactly if the text does. -/
theorem hasZero_ofString (text : String) :
    hasZero (.ofString text) = true ↔ '\x00' ∈ text.toList := by
  have hcut : '\x00' ∈ text.toList ↔ ∃ word ∈ Text.cutAt '/' text.toList, '\x00' ∈ word := by
    rw [← List.mem_flatten, flatten_cutAt]
    simp
  rw [hcut]
  simp only [hasZero, Path.ofString, Path.components, List.any_map, List.any_eq_true,
    List.mem_filter, Function.comp_apply, String.toList_ofList, List.contains_iff_mem]
  constructor
  · rintro ⟨word, ⟨hword, _⟩, hzero⟩
    exact ⟨word, hword, hzero⟩
  · rintro ⟨word, hword, hzero⟩
    refine ⟨word, ⟨hword, ?_⟩, hzero⟩
    have hempty : word ≠ [] := List.ne_nil_of_mem hzero
    have hdot : word ≠ ['.'] := by
      rintro rfl
      simp at hzero
    simp [hempty, hdot]

theorem hasZero_append {base below : Path} (hbase : hasZero base = false)
    (h : hasZero (base ++ below) = true) : hasZero below = true := by
  by_cases hanchor : below.anchor = .here
  · rw [Path.append_of_anchor_here hanchor, hasZero, List.any_append, Bool.or_eq_true] at h
    exact h.resolve_left (by simpa [hasZero] using hbase)
  · have happend : base ++ below = below := by
      show Path.append base below = below
      unfold Path.append
      split
      · next heq => exact absurd heq hanchor
      · rfl
    rwa [happend] at h

/-! ## Paths that are too long -/

/-- A path that is too long to be looked up, as a whole or in one of its components. -/
def Overlong (tree : FileTree) (path : Path) : Prop :=
  pathLimit ≤ path.toString.utf8ByteSize ∨
    ∃ part ∈ tree.fromTop path, nameLimit < part.utf8ByteSize

theorem exists_long_of_follow {above : List FileNode} {node : FileNode} {parts : List String}
    (h : node.follow above parts = .error .nameTooLong) :
    ∃ part ∈ parts, nameLimit < part.utf8ByteSize := by
  fun_induction FileNode.follow above node parts with
  | case1 | case2 | case7 => cases h
  | case3 _ _ ih | case4 _ _ _ _ ih | case5 _ _ _ _ ih | case8 _ _ _ _ _ _ _ _ _ ih =>
      obtain ⟨part, hpart, hlong⟩ := ih h
      exact ⟨part, List.mem_cons_of_mem _ hpart, hlong⟩
  | case6 _ _ _ _ _ _ hlong => exact ⟨_, List.mem_cons_self, hlong⟩

/-- Asking what is at a path fails only if the path is too long. -/
theorem test_failsBy (tree : FileTree) (path : Path) (holds : FileNode → Bool) :
    FailsBy (fun fault => fault = .file .nameTooLong ∧ tree.Overlong path)
      (tree.test path holds) := by
  unfold test
  obtain ⟨_, hfind⟩ | ⟨hlong, hfind⟩ | ⟨_, _, hfind⟩ := tree.find_cases path
  · rw [hfind]
    exact .of_ok false
  · rw [hfind]
    exact .of_error ⟨rfl, .inl hlong⟩
  · rw [hfind]
    cases hfollow : tree.top.follow [] (tree.fromTop path) with
    | ok node => exact .of_ok _
    | error failure =>
        cases failure with
        | nameTooLong => exact .of_error ⟨rfl, .inr (exists_long_of_follow hfollow)⟩
        | missing | notADirectory | isADirectory => exact .of_ok false

theorem firstPassing_failsBy {cause : Fault → Prop} {test : Path → Except Fault Bool}
    {paths : List Path} (h : ∀ path ∈ paths, FailsBy cause (test path)) :
    FailsBy cause (firstPassing test paths) := by
  induction paths with
  | nil => exact .of_ok none
  | cons path rest ih =>
      have hpath := h path List.mem_cons_self
      have hrest := ih fun path hpath => h path (List.mem_cons_of_mem _ hpath)
      rw [firstPassing]
      split
      · next fault hfault => exact .of_error (hpath fault hfault)
      · exact .of_ok _
      · exact hrest

end FileTree

/-! ## Targets -/

/-- The files that a path may stand for: itself, itself with a suffix, or an index file in it. -/
def Path.probes (path : Path) : List Path :=
  path :: (entrySuffixes.map path.extend ++ indexNames.map path.child)

namespace FileTree

/-- What keeps a target of the package in a directory from being followed. -/
inductive TargetTrouble (tree : FileTree) (directory : Path) (target : String) : Fault → Prop where
  /-- it holds a zero -/
  | zero (h : '\x00' ∈ target.toList) : TargetTrouble tree directory target .zeroInPath
  /-- it leads to a path without a name -/
  | unnamed {path : Path} (h : tree.resolve (directory ++ Path.ofString target) = .ok path)
      (unnamed : path.name = "") : TargetTrouble tree directory target (.emptyName path)
  /-- one of the files that it may stand for has a path that is too long -/
  | overlong {path probe : Path} (h : tree.resolve (directory ++ Path.ofString target) = .ok path)
      (mem : probe ∈ path.probes) (long : tree.Overlong probe) :
      TargetTrouble tree directory target (.file .nameTooLong)

theorem asDirectory_failsBy (tree : FileTree) (path : Path) :
    FailsBy (fun fault => fault = .file .nameTooLong ∧ ∃ probe ∈ path.probes, tree.Overlong probe)
      (tree.asDirectory path) := by
  refine FailsBy.bind ((test_failsBy tree path _).imp ?_) fun found _ => ?_
  · rintro fault ⟨rfl, hlong⟩
    exact ⟨rfl, path, List.mem_cons_self, hlong⟩
  · split
    · refine firstPassing_failsBy fun probe hprobe => (test_failsBy tree probe _).imp ?_
      rintro fault ⟨rfl, hlong⟩
      exact ⟨rfl, probe, List.mem_cons_of_mem _ (List.mem_append_right _ hprobe), hlong⟩
    · exact .of_ok none

theorem asFile_failsBy (tree : FileTree) (path : Path) :
    FailsBy (fun fault => (fault = .emptyName path ∧ path.name = "") ∨
      fault = .file .nameTooLong ∧ ∃ probe ∈ path.probes, tree.Overlong probe)
      (tree.asFile path) := by
  refine FailsBy.bind ((test_failsBy tree path _).imp ?_) fun found _ => ?_
  · rintro fault ⟨rfl, hlong⟩
    exact .inr ⟨rfl, path, List.mem_cons_self, hlong⟩
  · split
    · exact .of_ok _
    · show FailsBy _ (if path.name = "" then _ else _)
      split
      · next hname => exact .of_error (.inl ⟨rfl, hname⟩)
      · refine firstPassing_failsBy fun probe hprobe => (test_failsBy tree probe _).imp ?_
        rintro fault ⟨rfl, hlong⟩
        exact .inr ⟨rfl, probe, List.mem_cons_of_mem _ (List.mem_append_left _ hprobe), hlong⟩

/-- A target is followed unless it is one of three kinds. -/
theorem followTarget_failsBy (tree : FileTree) {directory : Path}
    (hdirectory : hasZero directory = false) (target : String) :
    FailsBy (tree.TargetTrouble directory target) (tree.followTarget directory target) := by
  have hresolve : FailsBy (tree.TargetTrouble directory target)
      (tree.resolve (directory ++ Path.ofString target)) := by
    unfold resolve
    split
    · next hzero =>
        exact .of_error (.zero ((hasZero_ofString target).mp (hasZero_append hdirectory hzero)))
    · exact .of_ok _
  refine hresolve.bind fun path hpath => ?_
  refine FailsBy.bind ((asFile_failsBy tree path).imp ?_) fun file _ => ?_
  · rintro fault (⟨rfl, hname⟩ | ⟨rfl, probe, hprobe, hlong⟩)
    · exact .unnamed hpath hname
    · exact .overlong hpath hprobe hlong
  · cases file with
    | some file => exact .of_ok _
    | none =>
        refine (asDirectory_failsBy tree path).imp ?_
        rintro fault ⟨rfl, probe, hprobe, hlong⟩
        exact .overlong hpath hprobe hlong

/-! ## Entries -/

/-- What keeps the entry of the package in a directory from being found. -/
inductive EntryTrouble (tree : FileTree) (directory : Path) : Fault → Prop where
  /-- a target of its manifest cannot be followed -/
  | target {manifest : Manifest} {target : String} {fault : Fault}
      (read : (tree.readManifest directory).result = .ok (.ok manifest))
      (mem : target ∈ manifest.targets) (trouble : tree.TargetTrouble directory target fault) :
      EntryTrouble tree directory fault
  /-- the directory or an index file in it has a path that is too long -/
  | overlong {probe : Path} (mem : probe ∈ directory.probes) (long : tree.Overlong probe) :
      EntryTrouble tree directory (.file .nameTooLong)

theorem entryAmong_failsBy (tree : FileTree) {directory : Path}
    (hdirectory : hasZero directory = false) (targets : List String) :
    FailsBy (fun fault => (∃ target ∈ targets, tree.TargetTrouble directory target fault) ∨
      fault = .file .nameTooLong ∧ ∃ probe ∈ directory.probes, tree.Overlong probe)
      (tree.entryAmong directory targets) := by
  induction targets with
  | nil => exact (asDirectory_failsBy tree directory).imp fun _ => .inr
  | cons target rest ih =>
      refine FailsBy.bind ((followTarget_failsBy tree hdirectory target).imp ?_) fun file _ => ?_
      · exact fun fault htrouble => .inl ⟨target, List.mem_cons_self, htrouble⟩
      · cases file with
        | some file => exact .of_ok _
        | none =>
            refine ih.imp fun fault hfault => hfault.imp_left ?_
            rintro ⟨other, hother, htrouble⟩
            exact ⟨other, List.mem_cons_of_mem _ hother, htrouble⟩

theorem hasZero_child {directory : Path} {name : String} (hname : '\x00' ∉ name.toList) :
    hasZero (directory.child name) = hasZero directory := by
  simp [hasZero, Path.child, hname]

/-- A manifest is asked for only at a path without a zero. -/
theorem hasZero_of_readManifest {tree : FileTree} {directory : Path}
    {answer : Except ManifestFailure Manifest}
    (h : (tree.readManifest directory).result = .ok answer) : hasZero directory = false := by
  cases hzero : hasZero directory with
  | false => rfl
  | true =>
      have hchild : hasZero (directory.child manifestName) = true := by
        rw [hasZero_child (by decide), hzero]
      have hmanifest : tree.manifestAt directory = .error .zeroInPath := by
        simp [manifestAt, read, find, hchild]
      rw [readManifest, hmanifest] at h
      cases h

/-- An entry is found or there is none, if the manifest is there or cannot be read. -/
theorem entryOfDirectory_failsBy {cause : Fault → Prop} {tree : FileTree} {directory : Path}
    (h : FailsBy cause (tree.readManifest directory).result) :
    FailsBy (fun fault => cause fault ∨ tree.EntryTrouble directory fault)
      (tree.entryOfDirectory directory).result := by
  unfold entryOfDirectory
  rw [Logged.result_bind]
  refine (h.imp fun _ => .inl).bind fun answer hanswer => ?_
  have hentry := entryAmong_failsBy tree (hasZero_of_readManifest hanswer)
  cases answer with
  | error failure =>
      refine (hentry []).imp ?_
      rintro fault (⟨target, htarget, _⟩ | ⟨rfl, probe, hprobe, hlong⟩)
      · exact absurd htarget List.not_mem_nil
      · exact .inr (.overlong hprobe hlong)
  | ok manifest =>
      refine (hentry manifest.targets).imp ?_
      rintro fault (⟨target, htarget, htrouble⟩ | ⟨rfl, probe, hprobe, hlong⟩)
      · exact .inr (.target hanswer htarget htrouble)
      · exact .inr (.overlong hprobe hlong)

/-! ## Searches -/

/-- What keeps a package from being searched. -/
inductive SearchTrouble (tree : FileTree) (name : String) (searchRoot : Path) : Fault → Prop where
  /-- the place to search from holds a zero -/
  | zero (h : hasZero searchRoot = true) : SearchTrouble tree name searchRoot .zeroInPath
  /-- a directory that is looked for has a path that is too long -/
  | overlong {resolved candidate : Path} (h : tree.resolve searchRoot = .ok resolved)
      (mem : candidate ∈ candidates resolved name) (long : tree.Overlong candidate) :
      SearchTrouble tree name searchRoot (.file .nameTooLong)

/-- What keeps the entry of a package from being searched: the search, or what is installed. -/
inductive LookupTrouble (tree : FileTree) (name : String) (searchRoot : Path) : Fault → Prop where
  /-- the search -/
  | search {fault : Fault} (h : tree.SearchTrouble name searchRoot fault) :
      LookupTrouble tree name searchRoot fault
  /-- an installed copy -/
  | entry {resolved candidate : Path} {fault : Fault} (h : tree.resolve searchRoot = .ok resolved)
      (mem : candidate ∈ candidates resolved name)
      (installed : tree.isDirectory candidate = .ok true)
      (trouble : tree.EntryTrouble candidate fault) : LookupTrouble tree name searchRoot fault

theorem resolve_failsBy (tree : FileTree) (name : String) (searchRoot : Path) :
    FailsBy (tree.SearchTrouble name searchRoot) (tree.resolve searchRoot) := by
  unfold resolve
  split
  · next hzero => exact .of_error (.zero hzero)
  · exact .of_ok _

theorem isDirectory_failsBy {tree : FileTree} {name : String} {searchRoot resolved candidate : Path}
    (hresolved : tree.resolve searchRoot = .ok resolved)
    (hcandidate : candidate ∈ candidates resolved name) :
    FailsBy (tree.SearchTrouble name searchRoot) (tree.isDirectory candidate) := by
  refine (test_failsBy tree candidate _).imp ?_
  rintro fault ⟨rfl, hlong⟩
  exact .overlong hresolved hcandidate hlong

theorem findDirectory_failsBy (tree : FileTree) (name : String) (searchRoot : Path) :
    FailsBy (tree.SearchTrouble name searchRoot) (tree.findDirectory name searchRoot) := by
  refine (resolve_failsBy tree name searchRoot).bind fun resolved hresolved => ?_
  refine FailsBy.bind (firstPassing_failsBy fun candidate hcandidate => ?_) fun _ _ => .of_ok _
  exact isDirectory_failsBy hresolved hcandidate

/-- The entry of a package is looked for, if the manifests in directories are there or cannot be
read. -/
theorem resolveEntry_failsBy {cause : Fault → Prop} {tree : FileTree}
    (hmanifests : ∀ directory, tree.isDirectory directory = .ok true →
      FailsBy cause (tree.readManifest directory).result) (name : String) (searchRoot : Path) :
    FailsBy (fun fault => cause fault ∨ tree.LookupTrouble name searchRoot fault)
      (tree.resolveEntry name searchRoot).result := by
  have hamong : ∀ resolved, tree.resolve searchRoot = .ok resolved →
      ∀ paths ⊆ candidates resolved name,
        FailsBy (fun fault => cause fault ∨ tree.LookupTrouble name searchRoot fault)
          (tree.entryAmongCandidates name paths).result := by
    intro resolved hresolved paths hpaths
    induction paths with
    | nil => exact .of_ok none
    | cons candidate rest ih =>
        have hcandidate := hpaths List.mem_cons_self
        have hrest := ih fun path hpath => hpaths (List.mem_cons_of_mem _ hpath)
        rw [entryAmongCandidates, Logged.result_bind]
        refine FailsBy.bind ((isDirectory_failsBy hresolved hcandidate).imp
          fun _ htrouble => .inr (.search htrouble)) fun found hfound => ?_
        cases found with
        | false => exact hrest
        | true =>
            rw [if_pos rfl, Logged.result_bind]
            refine FailsBy.bind ((entryOfDirectory_failsBy (hmanifests candidate hfound)).imp
              fun fault => Or.imp_right (.entry hresolved hcandidate hfound)) fun entry _ => ?_
            cases entry with
            | some entry => exact .of_ok _
            | none => exact hrest
  unfold resolveEntry
  rw [Logged.result_bind]
  refine FailsBy.bind ((resolve_failsBy tree name searchRoot).imp
    fun _ htrouble => .inr (.search htrouble)) fun resolved hresolved => ?_
  rw [Logged.result_bind]
  refine (hamong resolved hresolved _ fun _ h => h).bind fun found _ => ?_
  cases found with
  | some entry => exact .of_ok _
  | none => exact .of_ok _

/-! ## Manifests -/

/-- A file is had or not, unless its path holds a zero. -/
theorem read_failsBy (tree : FileTree) (path : Path) :
    FailsBy (fun fault => fault = .zeroInPath ∧ hasZero path = true) (tree.read path) := by
  unfold read
  obtain ⟨hzero, hfind⟩ | ⟨_, hfind⟩ | ⟨_, _, hfind⟩ := tree.find_cases path
  · rw [hfind]
    exact .of_error ⟨rfl, hzero⟩
  · rw [hfind]
    exact .of_ok _
  · rw [hfind]
    rcases tree.top.follow [] (tree.fromTop path) with failure | content | entries
    · exact .of_ok (Except.error failure)
    · exact .of_ok (Except.ok content)
    · exact .of_ok (Except.error FileFailure.isADirectory)

/-- In each directory there is a manifest, or it cannot be read. -/
def ManifestsAnswer (tree : FileTree) : Prop :=
  ∀ directory, tree.isDirectory directory = .ok true →
    ∃ answer, (tree.readManifest directory).result = .ok answer

/-- Where the manifests in the files of a tree can be made out, those in its directories can. -/
theorem manifestsAnswer_of_contents {tree : FileTree}
    (h : ∀ bytes ∈ tree.top.contentsNamed manifestName,
      ∃ answer, manifestOfBytes bytes = .ok answer) : tree.ManifestsAnswer := by
  intro directory hdirectory
  have hzero : hasZero (directory.child manifestName) = false := by
    rw [hasZero_child (by decide)]
    cases hzero : hasZero directory with
    | false => rfl
    | true => simp [isDirectory, test, find, hzero] at hdirectory
  have hmanifest : ∃ answer, tree.manifestAt directory = .ok answer := by
    unfold manifestAt
    split
    · next fault hread =>
        obtain ⟨_, hpath⟩ := read_failsBy tree _ fault hread
        exact absurd hpath (by simp [hzero])
    · exact ⟨_, rfl⟩
    · next bytes hread => exact h bytes (mem_contentsNamed_of_read (by decide) (by decide) hread)
  obtain ⟨flaw | manifest, hanswer⟩ := hmanifest
  · exact ⟨.error ⟨directory, flaw⟩, by rw [readManifest, hanswer]; rfl⟩
  · exact ⟨.ok manifest, by rw [readManifest, hanswer]; rfl⟩

/-! ## Answers -/

/-- A search that fails says what was searched, and from where. -/
theorem eq_of_resolveEntry {tree : FileTree} {name : String} {searchRoot : Path}
    {failure : ResolutionFailure}
    (h : (tree.resolveEntry name searchRoot).result = .ok (.error failure)) :
    failure = ⟨name, searchRoot⟩ := by
  obtain ⟨resolved, _, h⟩ := Logged.exists_of_bind_ok h
  obtain ⟨found, _, h⟩ := Logged.exists_of_bind_ok h
  cases found with
  | some entry => cases h
  | none => exact (Except.error.inj (Except.ok.inj h)).symm

/-- Where manifests can be read or not, and no half of a pair stands alone in them, an entry is
found or there is none, a directory is found, and a package has an entry or fails to be resolved,
unless one of the texts that are joined to paths is no part of a path that can be looked up. -/
theorem lookups_answer {tree : FileTree} (hmanifests : tree.ManifestsAnswer)
    (_hpaired : tree.ManifestsPaired) (name : String) (searchRoot : Path) :
    (∀ directory answer, (tree.readManifest directory).result = .ok answer →
      (∃ found, (tree.entryOfDirectory directory).result = .ok found) ∨
        ∃ fault, (tree.entryOfDirectory directory).result = .error fault ∧
          tree.EntryTrouble directory fault) ∧
      ((∃ directory, tree.findDirectory name searchRoot = .ok directory) ∨
        ∃ fault, tree.findDirectory name searchRoot = .error fault ∧
          tree.SearchTrouble name searchRoot fault) ∧
      ((∃ entry, (tree.resolveEntry name searchRoot).result = .ok (.ok entry)) ∨
        (tree.resolveEntry name searchRoot).result = .ok (.error ⟨name, searchRoot⟩) ∨
        ∃ fault, (tree.resolveEntry name searchRoot).result = .error fault ∧
          tree.LookupTrouble name searchRoot fault) := by
  -- `_hpaired` is not needed for the argument, but without it a target that is read need not be
  -- the text that the manifest writes, and the faults of that text are none of those listed
  have hentry : ∀ directory answer, (tree.readManifest directory).result = .ok answer →
      FailsBy (tree.EntryTrouble directory) (tree.entryOfDirectory directory).result := by
    intro directory answer hanswer
    refine (entryOfDirectory_failsBy (.of_eq_ok hanswer)).imp fun fault hfault => ?_
    exact hfault.resolve_left id
  have hresolve : FailsBy (tree.LookupTrouble name searchRoot)
      (tree.resolveEntry name searchRoot).result := by
    refine (resolveEntry_failsBy (fun directory hdirectory => ?_) name searchRoot).imp
      fun fault hfault => hfault.resolve_left id
    obtain ⟨answer, hanswer⟩ := hmanifests directory hdirectory
    exact .of_eq_ok hanswer
  refine ⟨fun directory answer hanswer => (hentry directory answer hanswer).cases_on,
    (findDirectory_failsBy tree name searchRoot).cases_on, ?_⟩
  obtain ⟨failure | entry, hanswer⟩ | htrouble := hresolve.cases_on
  · obtain rfl := eq_of_resolveEntry hanswer
    exact .inr (.inl hanswer)
  · exact .inl ⟨entry, hanswer⟩
  · exact .inr (.inr htrouble)

/-- Installed packages whose main files are the top, a name with a zero and a file that is
there. -/
def strayingTree : FileTree where
  top := .directory [(installedName, .directory [
    ("top", .directory [(manifestName, manifestWithMain "/")]),
    ("zero", .directory [(manifestName, manifestWithMain "a\\u0000b")]),
    ("plain", .directory [(manifestName, manifestWithMain "./m"), ("m.js", .file [])])])]
where
  /-- A manifest that names a main file. -/
  manifestWithMain (main : String) : FileNode :=
    .file ("\x7b\"main\":\"" ++ main ++ "\"\x7d").toUTF8.toList

theorem manifestsAnswer_strayingTree : strayingTree.ManifestsAnswer := by
  refine manifestsAnswer_of_contents ?_
  have hcontents : ∀ bytes ∈ strayingTree.top.contentsNamed manifestName,
      (manifestOfBytes bytes).toOption.isSome = true := by decide +kernel
  intro bytes hbytes
  have hanswer := hcontents bytes hbytes
  cases hmanifest : manifestOfBytes bytes with
  | error fault => simp [hmanifest, Except.toOption] at hanswer
  | ok answer => exact ⟨answer, rfl⟩

/-- All manifests of the tree can be read, and the look-up of one of its packages is answered. -/
theorem strayingTree_lookups_answer :
    strayingTree.ManifestsAnswer ∧ strayingTree.ManifestsPaired ∧
      ((strayingTree.resolveEntry "plain" {}).result =
          .ok (.ok ⟨.top, [installedName, "plain", "m.js"]⟩) ∧
        ((∃ entry, (strayingTree.resolveEntry "plain" {}).result = .ok (.ok entry)) ∨
          (strayingTree.resolveEntry "plain" {}).result = .ok (.error ⟨"plain", {}⟩) ∨
          ∃ fault, (strayingTree.resolveEntry "plain" {}).result = .error fault ∧
            strayingTree.LookupTrouble "plain" {} fault)) := by
  have hpaired : strayingTree.ManifestsPaired := by decide +kernel
  exact ⟨manifestsAnswer_strayingTree, hpaired, by decide +kernel,
    (lookups_answer manifestsAnswer_strayingTree hpaired "plain" {}).2.2⟩

/-- All manifests of the tree can be read, and yet two of its packages end the look-up of their
entries, and one of them the look-up in its directory. -/
theorem strayingTree_ends_lookups :
    strayingTree.ManifestsAnswer ∧
      (strayingTree.resolveEntry "top" {}).result = .error (.emptyName ⟨.top, []⟩) ∧
      (strayingTree.entryOfDirectory ⟨.here, [installedName, "top"]⟩).result =
        .error (.emptyName ⟨.top, []⟩) ∧
      (strayingTree.resolveEntry "zero" {}).result = .error .zeroInPath :=
  ⟨manifestsAnswer_strayingTree, by decide +kernel, by decide +kernel, by decide +kernel⟩

end FileTree

end EditionSurvey
