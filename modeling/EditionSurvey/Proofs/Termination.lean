/-
  Proofs/Termination.lean --- a survey of a package in a file tree ends.

  A file tree has finitely many manifests, and a walk comes to no other names than those that
  some manifest mentions: wherever a path leads, the manifest that is read there is one of the
  tree's (`mem_contents_of_follow`).  So the walk that a survey of a package does is one over a
  finite graph, whatever cycles the manifests describe.

  The survey judges the package that it starts with before it walks, and so the walk opens no
  package twice, the start included (`checkPackage_ends`).
-/
import EditionSurvey.Proofs.Loop
import EditionSurvey.Survey.Check

set_option autoImplicit false

namespace EditionSurvey

/-! ## The files of a tree -/

namespace FileNode

/-- What is at an entry and below it is among the entries and below them. -/
theorem contentsNamedAt_subset_contentsNamedIn {name : String} {entry : String × FileNode}
    {entries : List (String × FileNode)} (h : entry ∈ entries) :
    contentsNamedAt name entry ⊆ contentsNamedIn name entries := by
  induction entries with
  | nil => exact absurd h List.not_mem_nil
  | cons first rest ih =>
      rw [contentsNamedIn]
      rcases List.mem_cons.mp h with rfl | hrest
      · exact List.subset_append_left _ _
      · exact List.subset_append_of_subset_right _ (ih hrest)

theorem contentsNamed_subset_contentsNamedAt (name key : String) (node : FileNode) :
    node.contentsNamed name ⊆ contentsNamedAt name (key, node) := by
  cases node with
  | file bytes =>
      rw [contentsNamed]
      exact List.nil_subset _
  | directory entries =>
      rw [contentsNamedAt]
      exact List.Subset.refl _

theorem mem_contentsNamedAt (name : String) (bytes : List UInt8) :
    bytes ∈ contentsNamedAt name (name, .file bytes) := by
  simp [contentsNamedAt]

/-- One component leads to an entry of the directory, or with dots to a directory that was
passed before. -/
theorem follow_cons_ok {above : List FileNode} {node found : FileNode} {name : String}
    {rest : List String} (h : follow above node (name :: rest) = .ok found) :
    ∃ above' node', follow above' node' rest = .ok found ∧
      ((name = ".." ∨ name = ".") ∧ node' :: above' ⊆ node :: above ∨
        ∃ entries, node = .directory entries ∧ (name, node') ∈ entries ∧
          above' = node :: above) := by
  cases node with
  | file bytes => simp [follow] at h
  | directory entries =>
      simp only [follow] at h
      split at h
      · next hup =>
          cases above with
          | nil => exact ⟨[], _, h, .inl ⟨.inl hup, List.Subset.refl _⟩⟩
          | cons up above => exact ⟨above, up, h, .inl ⟨.inl hup, List.subset_cons_self _ _⟩⟩
      · split at h
        · next hdot => exact ⟨above, _, h, .inl ⟨.inr hdot, List.Subset.refl _⟩⟩
        · split at h
          · cases h
          · split at h
            · cases h
            · next next hnext => exact ⟨_, next, h, .inr ⟨entries, rfl, mem_of_lookup hnext, rfl⟩⟩

/-- Wherever components lead, a file of a name that is found there is one of the files of that
name: following never leaves what is below the nodes that it starts with. -/
theorem mem_contents_of_follow {name : String} (hup : name ≠ "..") (hdot : name ≠ ".")
    {contents : List (List UInt8)} {bytes : List UInt8} {parts : List String} :
    ∀ {above : List FileNode} {node : FileNode},
      (∀ start ∈ node :: above, start.contentsNamed name ⊆ contents) →
        follow above node (parts ++ [name]) = .ok (.file bytes) → bytes ∈ contents := by
  induction parts with
  | nil =>
      intro above node hstart h
      obtain ⟨above', node', hfound, hdots | ⟨entries, rfl, hmem, _⟩⟩ := follow_cons_ok h
      · exact absurd hdots.1 (by simp [hup, hdot])
      · obtain rfl : node' = .file bytes := Except.ok.inj hfound
        have hhere := hstart _ List.mem_cons_self
        rw [contentsNamed] at hhere
        exact hhere (contentsNamedAt_subset_contentsNamedIn hmem (mem_contentsNamedAt name bytes))
  | cons part parts ih =>
      intro above node hstart h
      obtain ⟨above', node', hfound, ⟨_, hsubset⟩ | ⟨entries, rfl, hmem, rfl⟩⟩ :=
        follow_cons_ok h
      · exact ih (fun start hstart' => hstart start (hsubset hstart')) hfound
      · refine ih (fun start hstart' => ?_) hfound
        rcases List.mem_cons.mp hstart' with rfl | hstart'
        · have hhere := hstart _ List.mem_cons_self
          rw [contentsNamed] at hhere
          intro found hfound
          exact hhere (contentsNamedAt_subset_contentsNamedIn hmem
            (contentsNamed_subset_contentsNamedAt name part _ hfound))
        · exact hstart start hstart'

end FileNode

/-! ## The manifests of a tree -/

theorem dependencyNames_subset_true (manifest : Manifest) (includePeer : Bool) :
    manifest.dependencyNames includePeer ⊆ manifest.dependencyNames true := by
  intro name hname
  rw [Manifest.dependencyNames, mem_inOrder, List.mem_append] at hname ⊢
  cases includePeer with
  | true => exact hname
  | false => exact .inl (hname.resolve_right List.not_mem_nil)

namespace FileTree

theorem fromTop_child (tree : FileTree) (directory : Path) (name : String) :
    tree.fromTop (directory.child name) = tree.fromTop directory ++ [name] := by
  unfold fromTop Path.child
  split <;> simp

/-- What is at a path is what its components lead to. -/
theorem follow_of_find {tree : FileTree} {path : Path} {node : FileNode}
    (h : tree.find path = .ok node) : tree.top.follow [] (tree.fromTop path) = .ok node := by
  unfold find at h
  split at h
  · cases h
  · split at h
    · cases h
    · cases hreached : tree.top.follow [] (tree.fromTop path) with
      | error failure => simp [hreached, Except.mapError] at h
      | ok found => simpa [hreached, Except.mapError] using h

/-- A file that is read is one of the files of its name. -/
theorem mem_contentsNamed_of_read {tree : FileTree} {directory : Path} {name : String}
    {bytes : List UInt8} (hup : name ≠ "..") (hdot : name ≠ ".")
    (h : tree.read (directory.child name) = .ok (.ok bytes)) :
    bytes ∈ tree.top.contentsNamed name := by
  have hfind : tree.find (directory.child name) = .ok (.file bytes) := by
    unfold read at h
    split at h <;> simp_all
  have hfollow := follow_of_find hfind
  rw [fromTop_child] at hfollow
  exact FileNode.mem_contents_of_follow hup hdot (by simp) hfollow

/-- A manifest that is read was read from a file of the tree. -/
theorem exists_contents_of_readManifest {tree : FileTree} {directory : Path}
    {manifest : Manifest} (hread : (tree.readManifest directory).result = .ok (.ok manifest)) :
    ∃ bytes ∈ tree.top.contentsNamed manifestName, manifestOfBytes bytes = .ok (.ok manifest) := by
  have h : tree.manifestAt directory = .ok (.ok manifest) := by
    unfold readManifest at hread
    rcases hanswer : tree.manifestAt directory with fault | flaw | found
    all_goals
      rw [hanswer] at hread
      cases hread
    rfl
  unfold manifestAt at h
  split at h
  · cases h
  · simp at h
  · next bytes hread =>
      exact ⟨bytes, mem_contentsNamed_of_read (by decide) (by decide) hread, h⟩

/-- The dependencies that a survey finds in a directory are mentioned in the tree. -/
theorem listing_subset_dependencyNames {tree : FileTree} {options : Options} {directory : Path}
    {names : List String} (h : (tree.survey options).listing directory = .ok (some names)) :
    names ⊆ tree.dependencyNames := by
  obtain ⟨manifest, hread, rfl⟩ := Survey.listing_eq_some_iff.mp h
  obtain ⟨bytes, hbytes, hmanifest⟩ := exists_contents_of_readManifest hread
  intro name hname
  rw [dependencyNames, mem_inOrder, List.mem_flatMap]
  refine ⟨bytes, hbytes, ?_⟩
  rw [namesInManifest, hmanifest]
  exact dependencyNames_subset_true manifest _ hname

/-- All names that a survey of a tree can come to are mentioned in the tree. -/
theorem confinedTo_dependencyNames (tree : FileTree) (options : Options) (start : Path) :
    (tree.survey options).ConfinedTo start tree.dependencyNames :=
  ⟨fun _ hnames => listing_subset_dependencyNames hnames,
    fun _ _ _ _ _ hnames => listing_subset_dependencyNames hnames⟩

end FileTree

/-! ## The survey of a package -/

namespace Survey

/-- The package that a survey starts with has a verdict before the walk. -/
theorem mem_names_of_startPackage {tree : FileTree} {options : Options} {p now : Progress}
    {name : String} {directory : Path}
    (h : (startPackage tree options).on p = (.ok (name, directory), now)) :
    name ∈ now.store.names := by
  unfold startPackage at h
  obtain ⟨⟨asked, place⟩, _, _, h⟩ := Run.exists_of_bind_ok h
  obtain ⟨_, _, _, h⟩ := Run.exists_of_bind_ok h
  obtain ⟨manifest, _, _, h⟩ := Run.exists_of_bind_ok h
  obtain ⟨entry, _, _, h⟩ := Run.exists_of_bind_ok h
  obtain ⟨state, _, hclassify, h⟩ := Run.exists_of_bind_ok h
  rw [Run.on_pure] at h
  obtain ⟨hstart, rfl⟩ := Prod.mk.inj h
  obtain ⟨rfl, _⟩ := Prod.mk.inj (Except.ok.inj hstart)
  exact mem_names_of_classify hclassify

/-- A survey of a package that yields is a start, a walk that yields, and a note of the result. -/
theorem exists_of_checkPackage_ok {tree : FileTree} {options : Options} {p q : Progress}
    {name : String} (h : (checkPackage tree options).on p = (.ok name, q)) :
    ∃ directory start last, (startPackage tree options).on p = (.ok (name, directory), start) ∧
      ((tree.survey options).walk (stepsFor tree.dependencyNames.length) name directory 1).on
        start = (.ok (), last) ∧ (noteResult options).on last = (.ok (), q) := by
  unfold checkPackage at h
  obtain ⟨⟨found, directory⟩, start, hstart, h⟩ := Run.exists_of_bind_ok h
  obtain ⟨_, last, hwalk, h⟩ := Run.exists_of_bind_ok h
  obtain ⟨_, noted, hnoted, h⟩ := Run.exists_of_bind_ok h
  obtain ⟨hname, rfl⟩ := Prod.mk.inj h
  obtain rfl : found = name := Except.ok.inj hname
  exact ⟨directory, start, last, hstart, hwalk, hnoted⟩

/-- What a walk keeps to when the package that it starts with is known and all names that it can
come to are among given ones. -/
structure KeepsTo (survey : Survey) (name : String) (directory : Path) (scope : List String)
    (root : Option Frame) (iterations : List Iteration) : Prop where
  /-- the start is opened with the names that its manifest has -/
  start_listed : ∀ frame ∈ root, survey.listing directory = .ok (some frame.names)
  /-- and so is each package that is opened because of it -/
  opened_listed : ∀ package ∈ openedBy iterations,
    survey.expansion package.1 = .ok (some package.2)
  /-- no package is opened twice, the start included -/
  opened_once : ((openedFrom name root iterations).map Prod.fst).Nodup
  /-- each iteration visits a dependency of an opened package, or leaves one -/
  length_le : iterations.length ≤ cost (openedFrom name root iterations)
  /-- the names that are visited are among the given ones -/
  visited_subset : visitedBy iterations ⊆ scope

theorem Walks.keepsTo {survey : Survey} {name : String} {directory : Path} {depth : Int}
    {scope : List String} {p q : Progress} {root : Option Frame} {iterations : List Iteration}
    {result : Except Fault Unit} (hconfined : survey.ConfinedTo directory scope)
    (hknown : name ∈ p.store.names)
    (h : Walks survey name directory depth p root iterations result q) :
    survey.KeepsTo name directory scope root iterations := by
  have hlength := h.length_le
  cases h with
  | fault _ => exact ⟨by simp, by simp, by simp [openedFrom], hlength, List.nil_subset _⟩
  | @start _ now _ _ _ first next =>
      have hroot := HoldsWithin.start hconfined first
      obtain ⟨listed, hlisting, rfl, hstore, _⟩ := openPackage_ok first
      refine ⟨?_, fun package hpackage => (next.opened_listed package hpackage).2, ?_, hlength,
        next.visited_subset hconfined hroot⟩
      · intro frame hframe
        obtain ⟨names, rfl, rfl⟩ := Option.map_eq_some_iff.mp (Option.mem_def.mp hframe)
        exact hlisting
      · cases listed with
        | none => exact next.opened_fresh.2
        | some names =>
            -- the loop opens only names without a verdict, and the start has one
            refine List.nodup_cons.mpr ⟨fun hagain => ?_, next.opened_fresh.2⟩
            have hnew := next.opened_fresh.1 name hagain
            rw [hstore] at hnew
            exact hnew hknown

/-- A survey of a package ends.  Unless a fault keeps it from finding where to start, it walks in
finitely many iterations from there: it opens no package twice, takes an iteration for each
dependency of an opened package and one for the package, and visits only names that some manifest
of the tree mentions. -/
theorem checkPackage_ends (tree : FileTree) (options : Options) (p : Progress) :
    (∃ fault q, (startPackage tree options).on p = (.error fault, q) ∧
        (checkPackage tree options).on p = (.error fault, q)) ∨
      ∃ name directory now root iterations result q,
        (startPackage tree options).on p = (.ok (name, directory), now) ∧
        (tree.survey options).Walks name directory 1 now root iterations result q ∧
        (tree.survey options).KeepsTo name directory tree.dependencyNames root iterations ∧
        ((checkPackage tree options).on p).1 = result.map (fun _ => name) ∧
        ((checkPackage tree options).on p).2.store = q.store := by
  rcases hstart : (startPackage tree options).on p with ⟨fault | ⟨name, directory⟩, now⟩
  · exact .inl ⟨fault, now, rfl, Run.on_bind_of_error _ hstart⟩
  · have hconfined := tree.confinedTo_dependencyNames options directory
    obtain ⟨root, iterations, result, q, hwalks, hlength⟩ :=
      exists_walks hconfined name 1 now
    have hkeeps := hwalks.keepsTo hconfined (mem_names_of_startPackage hstart)
    refine .inr ⟨name, directory, now, root, iterations, result, q, rfl, hwalks, hkeeps, ?_⟩
    have hwalk := walk_of_walks hwalks hlength
    unfold checkPackage
    rw [Run.on_bind_of_ok _ hstart]
    cases result with
    | error fault =>
        rw [Run.on_bind_of_error _ hwalk]
        exact ⟨rfl, rfl⟩
    | ok _ =>
        rw [Run.on_bind_of_ok _ hwalk]
        exact ⟨rfl, rfl⟩

/-- A package that depends on itself. -/
def selfishTree : FileTree where
  top := .directory [(manifestName,
    .file "\x7b\"name\":\"a\",\"dependencies\":\x7b\"a\":\"1\"\x7d\x7d".toUTF8.toList)]

example : ((checkPackage selfishTree {}).on {}).1.toOption = some "a" ∧
    ((checkPackage selfishTree {}).on {}).2.store.names = ["a"] := by decide +kernel

end Survey

end EditionSurvey
