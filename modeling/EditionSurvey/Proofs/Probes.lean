/-
  Proofs/Probes.lean --- the search for an entry as one list of paths.

  Whatever is asked on the way, the entry of a package is the first regular file of one list
  (`probes`): for each place in which the package is installed, nearest first, the files that the
  targets of its manifest may stand for, and then its index files.  If no question on the way fails,
  the search has an answer (`resolveEntry_first_probe`).
-/
import EditionSurvey.Proofs.Copies
import EditionSurvey.Proofs.Probing

set_option autoImplicit false

namespace EditionSurvey

variable {tree : FileTree} {name : String} {searchRoot directory path : Path}

namespace FileTree

/-! ## The list of paths -/

/-- Whether there is a file at a path.  At a path that cannot be looked up there is none. -/
def holdsFile (tree : FileTree) (path : Path) : Bool :=
  match tree.find path with
  | .ok (.file _) => true
  | _ => false

/-- Whether there is a directory at a path.  At a path that cannot be looked up there is none. -/
def holdsDirectory (tree : FileTree) (path : Path) : Bool :=
  match tree.find path with
  | .ok (.directory _) => true
  | _ => false

/-- The targets that the manifest in a directory names; without a manifest there are none. -/
def targetsIn (tree : FileTree) (directory : Path) : List String :=
  match (tree.readManifest directory).result with
  | .ok (.ok manifest) => manifest.targets
  | _ => []

/-- The place that a target of a package leads to, if it can be made absolute. -/
def targetPath? (tree : FileTree) (directory : Path) (target : String) : Option Path :=
  (tree.resolve (directory ++ Path.ofString target)).toOption

/-- The paths at which the entry of the package in a directory may be, best first. -/
def probesIn (tree : FileTree) (directory : Path) : List Path :=
  ((tree.targetsIn directory).filterMap (tree.targetPath? directory)).flatMap Path.probes ++
    indexNames.map directory.child

/-- The directories in which a package is installed for a search, nearest first. -/
def places (tree : FileTree) (name : String) (searchRoot : Path) : List Path :=
  match tree.resolve searchRoot with
  | .ok resolved => (candidates resolved name).filter tree.holdsDirectory
  | .error _ => []

/-- The paths at which the entry of a package may be, best first. -/
def probes (tree : FileTree) (name : String) (searchRoot : Path) : List Path :=
  (tree.places name searchRoot).flatMap tree.probesIn

/-- The first path of the list at which there is a file. -/
def firstProbe (tree : FileTree) (name : String) (searchRoot : Path) :
    Except ResolutionFailure Path :=
  match (tree.probes name searchRoot).find? tree.holdsFile with
  | some path => .ok path
  | none => .error ⟨name, searchRoot⟩

/-- Every question that the search for an entry may ask has an answer: each of the places can be
looked up, its manifest is there or cannot be read, its targets lead to names, and each path of the
list can be looked up. -/
structure Unhindered (tree : FileTree) (name : String) (searchRoot : Path) : Prop where
  /-- the place to search from -/
  start : ∃ resolved, tree.resolve searchRoot = .ok resolved
  /-- the places in which the package may be installed -/
  place : ∀ resolved, tree.resolve searchRoot = .ok resolved →
    ∀ directory ∈ candidates resolved name, ∃ installed, tree.isDirectory directory = .ok installed
  /-- the manifests -/
  manifest : ∀ directory ∈ tree.places name searchRoot,
    ∃ answer, (tree.readManifest directory).result = .ok answer
  /-- their targets -/
  target : ∀ directory ∈ tree.places name searchRoot, ∀ target ∈ tree.targetsIn directory,
    ∃ path, tree.resolve (directory ++ Path.ofString target) = .ok path ∧ path.name ≠ ""
  /-- the list -/
  probe : ∀ path ∈ tree.probes name searchRoot, ∃ found, tree.isFile path = .ok found

/-! ## Questions about paths -/

theorem holdsFile_eq {found : Bool} (h : tree.isFile path = .ok found) :
    tree.holdsFile path = found := by
  unfold isFile test at h
  unfold holdsFile
  split at h
  · next node hfind =>
      obtain rfl := Except.ok.inj h
      rw [hfind]
      cases node <;> rfl
  · cases h
  · next fault _ hfind =>
      obtain rfl := Except.ok.inj h
      rw [hfind]

theorem holdsDirectory_eq {found : Bool} (h : tree.isDirectory path = .ok found) :
    tree.holdsDirectory path = found := by
  unfold isDirectory test at h
  unfold holdsDirectory
  split at h
  · next node hfind =>
      obtain rfl := Except.ok.inj h
      rw [hfind]
      cases node <;> rfl
  · cases h
  · next fault _ hfind =>
      obtain rfl := Except.ok.inj h
      rw [hfind]

/-- A path that can be looked up as a file can be looked up as a directory. -/
theorem exists_isDirectory_of_isFile {found : Bool} (h : tree.isFile path = .ok found) :
    ∃ installed, tree.isDirectory path = .ok installed := by
  unfold isFile test at h
  unfold isDirectory test
  split at h
  · exact ⟨_, rfl⟩
  · cases h
  · exact ⟨_, rfl⟩

/-- What the components of a path lead to before the last one is a directory. -/
theorem follow_init {above : List FileNode} {node found : FileNode} {parts : List String}
    {last : String} (h : node.follow above (parts ++ [last]) = .ok found) :
    ∃ entries, node.follow above parts = .ok (.directory entries) := by
  induction parts generalizing above node with
  | nil =>
      cases node with
      | file bytes => simp [FileNode.follow] at h
      | directory entries => exact ⟨entries, rfl⟩
  | cons part parts ih =>
      cases node with
      | file bytes => simp [FileNode.follow] at h
      | directory entries =>
          rw [List.cons_append] at h
          unfold FileNode.follow at h ⊢
          dsimp only at h ⊢
          split at h
          · next hup =>
              rw [if_pos hup]
              cases above with
              | nil => exact ih h
              | cons up above => exact ih h
          · next hup =>
              rw [if_neg hup]
              split at h
              · next hdot =>
                  rw [if_pos hdot]
                  exact ih h
              · next hdot =>
                  rw [if_neg hdot]
                  split at h
                  · cases h
                  · next hlong =>
                      rw [if_neg hlong]
                      split at h
                      · cases h
                      · next inner hinner => exact ih h

/-- A file stands in a directory. -/
theorem holdsFile_child_eq_false {last : String} (h : tree.isDirectory path = .ok false) :
    tree.holdsFile (path.child last) = false := by
  by_contra hfile
  unfold holdsFile at hfile
  split at hfile
  · next bytes hfind =>
      have hfollow := follow_of_find hfind
      rw [fromTop_child] at hfollow
      obtain ⟨entries, hentries⟩ := follow_init hfollow
      obtain ⟨hzero, -⟩ | ⟨hlong, hpath⟩ | ⟨-, -, hpath⟩ := tree.find_cases path
      · have hchild : hasZero (path.child last) = true := by
          simpa [hasZero, Path.child] using .inl (by simpa [hasZero] using hzero)
        simp [find, hchild] at hfind
      · simp [isDirectory, test, hpath] at h
      · simp [isDirectory, test, hpath, hentries, Except.mapError] at h
  · exact hfile rfl

/-! ## Answers and the list -/

/-- A search that has an answer finds the first path at which there is a file. -/
theorem firstPassing_isFile {paths : List Path} {answer : Option Path}
    (h : firstPassing tree.isFile paths = .ok answer) : answer = paths.find? tree.holdsFile := by
  induction paths with
  | nil => exact (Except.ok.inj h).symm
  | cons first rest ih =>
      rw [firstPassing] at h
      split at h
      · cases h
      · next htest =>
          rw [List.find?_cons_of_pos (holdsFile_eq htest)]
          exact (Except.ok.inj h).symm
      · next htest =>
          rw [List.find?_cons_of_neg (by simp [holdsFile_eq htest])]
          exact ih h

/-- The index file of a place is the first of the index files there, directory or not. -/
theorem asDirectory_answer {answer : Option Path} (h : tree.asDirectory path = .ok answer) :
    answer = (indexNames.map path.child).find? tree.holdsFile := by
  unfold asDirectory at h
  cases hdirectory : tree.isDirectory path with
  | error fault => simp [hdirectory, bind, Except.bind] at h
  | ok installed =>
      cases installed with
      | true => exact firstPassing_isFile (by simpa [hdirectory, bind, Except.bind] using h)
      | false =>
          have hnone : (indexNames.map path.child).find? tree.holdsFile = none := by
            rw [List.find?_eq_none]
            intro probe hprobe
            obtain ⟨last, _, rfl⟩ := List.mem_map.mp hprobe
            simp [holdsFile_child_eq_false hdirectory]
          rw [hnone]
          simpa [hdirectory, bind, Except.bind, pure, Except.pure, eq_comm] using h

theorem asFile_answer {answer : Option Path} (h : tree.asFile path = .ok answer) :
    answer = (path :: entrySuffixes.map path.extend).find? tree.holdsFile := by
  unfold asFile at h
  cases hfile : tree.isFile path with
  | error fault => simp [hfile, bind, Except.bind] at h
  | ok found =>
      cases found with
      | true =>
          rw [List.find?_cons_of_pos (holdsFile_eq hfile)]
          simpa [hfile, bind, Except.bind, pure, Except.pure, eq_comm] using h
      | false =>
          rw [List.find?_cons_of_neg (by simp [holdsFile_eq hfile])]
          by_cases hname : path.name = ""
          · simp [hfile, hname, bind, Except.bind, throw, throwThe, MonadExceptOf.throw] at h
          · exact firstPassing_isFile
              (by simpa [hfile, hname, bind, Except.bind, pure, Except.pure] using h)

/-- What a target leads to is the first file of those that its place may stand for. -/
theorem followTarget_answer {target : String} {answer : Option Path}
    (h : tree.followTarget directory target = .ok answer) :
    ∃ path, tree.targetPath? directory target = some path ∧
      answer = path.probes.find? tree.holdsFile := by
  unfold followTarget at h
  cases hpath : tree.resolve (directory ++ Path.ofString target) with
  | error fault => simp [hpath, bind, Except.bind] at h
  | ok path =>
      refine ⟨path, by simp [targetPath?, hpath, Except.toOption], ?_⟩
      have hlist : path.probes.find? tree.holdsFile =
          ((path :: entrySuffixes.map path.extend).find? tree.holdsFile).or
            ((indexNames.map path.child).find? tree.holdsFile) := by
        rw [Path.probes, ← List.cons_append, List.find?_append]
      rw [hlist]
      cases hfile : tree.asFile path with
      | error fault => simp [hpath, hfile, bind, Except.bind] at h
      | ok found =>
          rw [← asFile_answer hfile]
          cases found with
          | some file =>
              simpa [hpath, hfile, bind, Except.bind, pure, Except.pure, eq_comm] using h
          | none =>
              rw [Option.none_or]
              exact asDirectory_answer (by simpa [hpath, hfile, bind, Except.bind] using h)

theorem entryAmong_answer {targets : List String} {answer : Option Path}
    (h : tree.entryAmong directory targets = .ok answer) :
    answer = ((targets.filterMap (tree.targetPath? directory)).flatMap Path.probes ++
      indexNames.map directory.child).find? tree.holdsFile := by
  induction targets with
  | nil => exact asDirectory_answer h
  | cons target rest ih =>
      rw [entryAmong] at h
      cases hfollow : tree.followTarget directory target with
      | error fault => simp [hfollow, bind, Except.bind] at h
      | ok found =>
          obtain ⟨path, hpath, hfound⟩ := followTarget_answer hfollow
          rw [List.filterMap_cons_some hpath, List.flatMap_cons, List.append_assoc,
            List.find?_append, ← hfound]
          cases found with
          | some file => simpa [hfollow, bind, Except.bind, pure, Except.pure, eq_comm] using h
          | none => exact ih (by simpa [hfollow, bind, Except.bind] using h)

/-- The entry of the package in a directory is the first file of those at which it may be. -/
theorem entryOfDirectory_answer {answer : Option Path}
    (h : (tree.entryOfDirectory directory).result = .ok answer) :
    answer = (tree.probesIn directory).find? tree.holdsFile := by
  obtain ⟨manifest, hmanifest, h⟩ := Logged.exists_of_bind_ok h
  have hanswer := entryAmong_answer h
  unfold probesIn targetsIn
  rw [hmanifest]
  cases manifest <;> exact hanswer

theorem entryAmongCandidates_answer {candidates : List Path} {answer : Option Path}
    (h : (tree.entryAmongCandidates name candidates).result = .ok answer) :
    answer = ((candidates.filter tree.holdsDirectory).flatMap tree.probesIn).find?
      tree.holdsFile := by
  induction candidates with
  | nil => exact (Except.ok.inj h).symm
  | cons place rest ih =>
      rw [result_entryAmongCandidates_cons] at h
      cases hinstalled : tree.isDirectory place with
      | error fault => simp [hinstalled, bind, Except.bind] at h
      | ok installed =>
          have hplace := holdsDirectory_eq hinstalled
          cases installed with
          | false =>
              rw [List.filter_cons_of_neg (by simp [hplace])]
              exact ih (by simpa [hinstalled, bind, Except.bind] using h)
          | true =>
              rw [List.filter_cons_of_pos hplace, List.flatMap_cons, List.find?_append]
              cases hentry : (tree.entryOfDirectory place).result with
              | error fault => simp [hinstalled, hentry, bind, Except.bind] at h
              | ok found =>
                  rw [← entryOfDirectory_answer hentry]
                  cases found with
                  | some entry => simpa [hinstalled, hentry, bind, Except.bind, eq_comm] using h
                  | none => exact ih (by simpa [hinstalled, hentry, bind, Except.bind] using h)

/-- Whenever the search for the entry of a package has an answer, it is the first file of the
list, or that there is none. -/
theorem resolveEntry_answer {answer : Except ResolutionFailure Path}
    (h : (tree.resolveEntry name searchRoot).result = .ok answer) :
    answer = tree.firstProbe name searchRoot := by
  obtain ⟨resolved, hresolved, h⟩ := Logged.exists_of_bind_ok h
  obtain ⟨found, hfound, h⟩ := Logged.exists_of_bind_ok h
  have hstart : tree.resolve searchRoot = .ok resolved := hresolved
  unfold firstProbe probes places
  rw [hstart]
  dsimp only
  rw [← entryAmongCandidates_answer hfound]
  cases found <;> exact (Except.ok.inj h).symm

/-! ## Searches that are not hindered -/

theorem isFile_answers (h : ∃ found, tree.isFile path = .ok found) :
    FailsBy (fun _ => False) (tree.isFile path) := by
  obtain ⟨found, hfound⟩ := h
  exact .of_eq_ok hfound

theorem asDirectory_answers (hpath : ∃ installed, tree.isDirectory path = .ok installed)
    (hindex : ∀ probe ∈ indexNames.map path.child, ∃ found, tree.isFile probe = .ok found) :
    FailsBy (fun _ => False) (tree.asDirectory path) := by
  obtain ⟨installed, hinstalled⟩ := hpath
  refine (FailsBy.of_eq_ok hinstalled).bind fun installed _ => ?_
  split
  · exact firstPassing_failsBy fun probe hprobe => isFile_answers (hindex probe hprobe)
  · exact .of_ok none

theorem followTarget_answers {target : String}
    (hpath : tree.resolve (directory ++ Path.ofString target) = .ok path) (hname : path.name ≠ "")
    (hprobes : ∀ probe ∈ path.probes, ∃ found, tree.isFile probe = .ok found) :
    FailsBy (fun _ => False) (tree.followTarget directory target) := by
  refine (FailsBy.of_eq_ok hpath).bind fun reached hreached => ?_
  obtain rfl : path = reached := Except.ok.inj (hpath.symm.trans hreached)
  obtain ⟨found, hfound⟩ := hprobes path List.mem_cons_self
  have hfile : FailsBy (fun _ => False) (tree.asFile path) := by
    refine (FailsBy.of_eq_ok hfound).bind fun found _ => ?_
    split
    · exact .of_ok _
    · exact firstPassing_failsBy fun probe hprobe =>
        isFile_answers (hprobes probe (List.mem_cons_of_mem _ (List.mem_append_left _ hprobe)))
  refine hfile.bind fun file _ => ?_
  cases file with
  | some file => exact .of_ok _
  | none =>
      exact asDirectory_answers (exists_isDirectory_of_isFile hfound) fun probe hprobe =>
        hprobes probe (List.mem_cons_of_mem _ (List.mem_append_right _ hprobe))

theorem entryAmong_answers {targets : List String}
    (hdirectory : ∃ installed, tree.isDirectory directory = .ok installed)
    (htargets : ∀ target ∈ targets,
      ∃ path, tree.resolve (directory ++ Path.ofString target) = .ok path ∧ path.name ≠ "")
    (hprobes : ∀ probe ∈ (targets.filterMap (tree.targetPath? directory)).flatMap Path.probes ++
      indexNames.map directory.child, ∃ found, tree.isFile probe = .ok found) :
    FailsBy (fun _ => False) (tree.entryAmong directory targets) := by
  induction targets with
  | nil => exact asDirectory_answers hdirectory hprobes
  | cons target rest ih =>
      obtain ⟨path, hpath, hname⟩ := htargets target List.mem_cons_self
      have hsome : tree.targetPath? directory target = some path := by
        simp [targetPath?, hpath, Except.toOption]
      rw [List.filterMap_cons_some hsome, List.flatMap_cons, List.append_assoc] at hprobes
      refine (followTarget_answers hpath hname fun probe hprobe =>
        hprobes probe (List.mem_append_left _ hprobe)).bind fun found _ => ?_
      cases found with
      | some file => exact .of_ok _
      | none =>
          exact ih (fun other hother => htargets other (List.mem_cons_of_mem _ hother))
            fun probe hprobe => hprobes probe (List.mem_append_right _ hprobe)

theorem entryOfDirectory_answers
    (hdirectory : ∃ installed, tree.isDirectory directory = .ok installed)
    (hmanifest : ∃ answer, (tree.readManifest directory).result = .ok answer)
    (htargets : ∀ target ∈ tree.targetsIn directory,
      ∃ path, tree.resolve (directory ++ Path.ofString target) = .ok path ∧ path.name ≠ "")
    (hprobes : ∀ probe ∈ tree.probesIn directory, ∃ found, tree.isFile probe = .ok found) :
    FailsBy (fun _ => False) (tree.entryOfDirectory directory).result := by
  obtain ⟨answer, hanswer⟩ := hmanifest
  unfold probesIn targetsIn at hprobes
  unfold targetsIn at htargets
  rw [hanswer] at hprobes htargets
  unfold entryOfDirectory
  rw [Logged.result_bind]
  refine (FailsBy.of_eq_ok hanswer).bind fun reached hreached => ?_
  obtain rfl : answer = reached := Except.ok.inj (hanswer.symm.trans hreached)
  cases answer with
  | error failure => exact entryAmong_answers hdirectory htargets hprobes
  | ok manifest => exact entryAmong_answers hdirectory htargets hprobes

/-- A search in which every question has an answer has an answer. -/
theorem Unhindered.exists_answer (h : tree.Unhindered name searchRoot) :
    ∃ answer, (tree.resolveEntry name searchRoot).result = .ok answer := by
  obtain ⟨resolved, hresolved⟩ := h.start
  have hplaces : tree.places name searchRoot =
      (candidates resolved name).filter tree.holdsDirectory := by
    simp only [places, hresolved]
  have hamong : ∀ paths ⊆ candidates resolved name,
      FailsBy (fun _ => False) (tree.entryAmongCandidates name paths).result := by
    intro paths hpaths
    induction paths with
    | nil => exact .of_ok none
    | cons place rest ih =>
        have hplace := hpaths List.mem_cons_self
        have hrest := ih fun path hpath => hpaths (List.mem_cons_of_mem _ hpath)
        obtain ⟨installed, hinstalled⟩ := h.place resolved hresolved place hplace
        rw [result_entryAmongCandidates_cons]
        refine (FailsBy.of_eq_ok hinstalled).bind fun reached hreached => ?_
        cases reached with
        | false => exact hrest
        | true =>
            have hmem : place ∈ tree.places name searchRoot := by
              rw [hplaces, List.mem_filter]
              exact ⟨hplace, holdsDirectory_eq hreached⟩
            have hentry := entryOfDirectory_answers ⟨true, hreached⟩ (h.manifest place hmem)
              (h.target place hmem) fun probe hprobe =>
                h.probe probe (List.mem_flatMap.mpr ⟨place, hmem, hprobe⟩)
            refine hentry.bind fun entry _ => ?_
            cases entry with
            | some entry => exact .of_ok _
            | none => exact hrest
  have hanswer : FailsBy (fun _ => False) (tree.resolveEntry name searchRoot).result := by
    unfold resolveEntry
    rw [Logged.result_bind]
    refine (FailsBy.of_eq_ok hresolved).bind fun reached hreached => ?_
    obtain rfl : resolved = reached := Except.ok.inj (hresolved.symm.trans hreached)
    rw [Logged.result_bind]
    refine (hamong _ fun _ h => h).bind fun found _ => ?_
    cases found with
    | some entry => exact .of_ok _
    | none => exact .of_ok _
  obtain hanswer | ⟨_, _, hfalse⟩ := hanswer.cases_on
  · exact hanswer
  · exact hfalse.elim

/-! ## Absolute paths -/

theorem anchor_append {base below : Path} (h : base.anchor ≠ .here) :
    (base ++ below).anchor ≠ .here := by
  cases hbelow : below.anchor with
  | here => rwa [Path.append_of_anchor_here hbelow]
  | top | doubleTop =>
      show (Path.append base below).anchor ≠ .here
      simp [Path.append, hbelow]

theorem anchor_of_mem_places {place : Path} (h : place ∈ tree.places name searchRoot) :
    place.anchor ≠ .here := by
  unfold places at h
  split at h
  · next resolved hresolved =>
      have htop : resolved.anchor = .top := by
        unfold resolve at hresolved
        split at hresolved
        · cases hresolved
        · exact (Except.ok.inj hresolved) ▸ rfl
      obtain ⟨base, hbase, rfl⟩ := List.mem_map.mp (List.mem_of_mem_filter h)
      have hanchor : base.anchor = .top := by
        obtain rfl | hbase := List.mem_cons.mp (List.mem_of_mem_filter hbase)
        · exact htop
        · obtain ⟨_, _, rfl⟩ := List.mem_map.mp hbase
          exact htop
      exact anchor_append (by simp [Path.child, hanchor])
  · cases h

/-- All paths of the list are absolute. -/
theorem anchor_of_mem_probes {probe : Path} (h : probe ∈ tree.probes name searchRoot) :
    probe.anchor ≠ .here := by
  obtain ⟨place, hplace, hprobe⟩ := List.mem_flatMap.mp h
  obtain hprobe | hprobe := List.mem_append.mp hprobe
  · obtain ⟨path, hpath, hprobe⟩ := List.mem_flatMap.mp hprobe
    obtain ⟨target, _, hpath⟩ := List.mem_filterMap.mp hpath
    have htop : path.anchor = .top := by
      unfold targetPath? resolve at hpath
      split at hpath
      · cases hpath
      · exact (Option.some.inj hpath) ▸ rfl
    have hsame : probe.anchor = path.anchor := by
      obtain rfl | hprobe := List.mem_cons.mp hprobe
      · rfl
      · obtain hprobe | hprobe := List.mem_append.mp hprobe <;>
          obtain ⟨_, _, rfl⟩ := List.mem_map.mp hprobe <;> rfl
    simp [hsame, htop]
  · obtain ⟨_, _, rfl⟩ := List.mem_map.mp hprobe
    show place.anchor ≠ .here
    exact anchor_of_mem_places hplace

/-! ## The search -/

/-- The entry of a package is the first regular file of one list of paths, and the package is not
resolved exactly if there is no regular file at any of them.  This holds of every search that has an
answer, and a search that no question ends has one.  What is found is a file at an absolute path. -/
theorem resolveEntry_first_probe (tree : FileTree) (name : String) (searchRoot : Path) :
    (∀ answer, (tree.resolveEntry name searchRoot).result = .ok answer →
        answer = tree.firstProbe name searchRoot) ∧
      (tree.Unhindered name searchRoot →
        (tree.resolveEntry name searchRoot).result = .ok (tree.firstProbe name searchRoot)) ∧
      ((∃ failure, tree.firstProbe name searchRoot = .error failure) ↔
        ∀ path ∈ tree.probes name searchRoot, tree.holdsFile path = false) ∧
      ∀ path, tree.firstProbe name searchRoot = .ok path →
        path.anchor ≠ .here ∧ tree.holdsFile path = true := by
  refine ⟨fun answer => resolveEntry_answer, fun hunhindered => ?_, ?_, fun path hpath => ?_⟩
  · obtain ⟨answer, hanswer⟩ := hunhindered.exists_answer
    rw [hanswer, resolveEntry_answer hanswer]
  · unfold firstProbe
    cases hfirst : (tree.probes name searchRoot).find? tree.holdsFile with
    | none => simpa [List.find?_eq_none] using hfirst
    | some path =>
        have hmem := List.mem_of_find?_eq_some hfirst
        have hfile := List.find?_some hfirst
        constructor
        · rintro ⟨failure, hfailure⟩
          cases hfailure
        · intro hnone
          rw [hnone path hmem] at hfile
          cases hfile
  · unfold firstProbe at hpath
    split at hpath
    · next found hfirst =>
        obtain rfl := Except.ok.inj hpath
        exact ⟨anchor_of_mem_probes (List.mem_of_find?_eq_some hfirst), List.find?_some hfirst⟩
    · cases hpath

/-- A package whose exports lead nowhere, and whose main file is named without its suffix. -/
def layeredTree : FileTree where
  top := .directory [(installedName, .directory [("lib", .directory [
    (manifestName, .file "\x7b\"exports\":\"./none\",\"main\":\"./m\"\x7d".toUTF8.toList),
    ("index.js", .file []), ("m.json", .file [])])])]

theorem exists_of_isSome {α : Type} {outcome : Except Fault α}
    (h : outcome.toOption.isSome = true) : ∃ a, outcome = .ok a := by
  cases outcome with
  | error fault => cases h
  | ok a => exact ⟨a, rfl⟩

theorem unhindered_layeredTree : layeredTree.Unhindered "lib" {} where
  start := ⟨⟨.top, []⟩, rfl⟩
  place := by
    rintro resolved ⟨⟩ directory hdirectory
    have hplaces : ∀ place ∈ candidates ⟨.top, []⟩ "lib",
        (layeredTree.isDirectory place).toOption.isSome = true := by decide +kernel
    exact exists_of_isSome (hplaces directory hdirectory)
  manifest := by
    have hmanifests : ∀ place ∈ layeredTree.places "lib" {},
        (layeredTree.readManifest place).result.toOption.isSome = true := by decide +kernel
    exact fun directory hdirectory => exists_of_isSome (hmanifests directory hdirectory)
  target := by
    have htargets : ∀ place ∈ layeredTree.places "lib" {},
        ∀ target ∈ layeredTree.targetsIn place,
          ∃ path ∈ layeredTree.targetPath? place target, path.name ≠ "" := by decide +kernel
    intro directory hdirectory target htarget
    obtain ⟨path, hpath, hname⟩ := htargets directory hdirectory target htarget
    refine ⟨path, ?_, hname⟩
    unfold targetPath? at hpath
    cases hresolve : layeredTree.resolve (directory ++ Path.ofString target) with
    | error fault => simp [hresolve, Except.toOption] at hpath
    | ok reached => simpa [hresolve, Except.toOption] using hpath
  probe := by
    have hprobes : ∀ probe ∈ layeredTree.probes "lib" {},
        (layeredTree.isFile probe).toOption.isSome = true := by decide +kernel
    exact fun path hpath => exists_of_isSome (hprobes path hpath)

/-- The search in the tree passes over seven paths for the exports and two for the main file. -/
theorem layeredTree_first_probe :
    layeredTree.Unhindered "lib" {} ∧
      (layeredTree.probes "lib" {})[9]? = some ⟨.top, [installedName, "lib", "m.json"]⟩ ∧
      (layeredTree.resolveEntry "lib" {}).result =
        .ok (.ok ⟨.top, [installedName, "lib", "m.json"]⟩) := by
  have hfirst : layeredTree.firstProbe "lib" {} =
      .ok ⟨.top, [installedName, "lib", "m.json"]⟩ := by decide +kernel
  refine ⟨unhindered_layeredTree, by decide +kernel, ?_⟩
  rw [(resolveEntry_first_probe layeredTree "lib" {}).2.1 unhindered_layeredTree, hfirst]

end FileTree

end EditionSurvey
