/-
  Proofs/Copies.lean --- which installed copy of a package is used.

  The entry and the directory of a package are looked for among the same candidates, nearest
  first.  The directory is the nearest candidate that is a directory; the entry is that of the
  nearest one with a usable entry.  The two are of one copy unless the nearest copy has no usable
  entry, and then the entry is that of a farther copy (`resolveEntry_copy`).
-/
import EditionSurvey.Proofs.Announcing
import EditionSurvey.Proofs.Faults
import EditionSurvey.Proofs.Peers

set_option autoImplicit false

namespace EditionSurvey

/-! ## Searches -/

/-- A search finds a path exactly if the path passes and all that stand before it do not. -/
theorem firstPassing_eq_some_iff {test : Path → Except Fault Bool} {paths : List Path}
    {path : Path} :
    firstPassing test paths = .ok (some path) ↔
      ∃ nearer farther, paths = nearer ++ path :: farther ∧ (∀ p ∈ nearer, test p = .ok false) ∧
        test path = .ok true := by
  constructor
  · intro h
    induction paths with
    | nil => cases h
    | cons first rest ih =>
        rw [firstPassing] at h
        split at h
        · cases h
        · next htest =>
            obtain rfl := Option.some.inj (Except.ok.inj h)
            exact ⟨[], rest, rfl, by simp, htest⟩
        · next htest =>
            obtain ⟨nearer, farther, rfl, hnearer, hpath⟩ := ih h
            exact ⟨first :: nearer, farther, rfl, by simpa [htest] using hnearer, hpath⟩
  · rintro ⟨nearer, farther, rfl, hnearer, hpath⟩
    induction nearer with
    | nil => simp [firstPassing, hpath]
    | cons first nearer ih =>
        have hfirst := hnearer first List.mem_cons_self
        have hrest := ih fun p hp => hnearer p (List.mem_cons_of_mem _ hp)
        simpa [firstPassing, hfirst] using hrest

namespace FileTree

/-! ## Copies -/

/-- A directory in which a package is installed for a search. -/
def IsCopy (tree : FileTree) (name : String) (searchRoot directory : Path) : Prop :=
  ∃ resolved, tree.resolve searchRoot = .ok resolved ∧ directory ∈ candidates resolved name ∧
    tree.isDirectory directory = .ok true

/-- The directory nearest to a search in which a package is installed for it. -/
def IsNearestCopy (tree : FileTree) (name : String) (searchRoot directory : Path) : Prop :=
  ∃ resolved nearer farther, tree.resolve searchRoot = .ok resolved ∧
    candidates resolved name = nearer ++ directory :: farther ∧
    (∀ place ∈ nearer, tree.isDirectory place = .ok false) ∧
    tree.isDirectory directory = .ok true

/-- There is no usable entry in a place: it is no directory, or the package in it has none. -/
def Entryless (tree : FileTree) (place : Path) : Prop :=
  tree.isDirectory place = .ok false ∨
    tree.isDirectory place = .ok true ∧ (tree.entryOfDirectory place).result = .ok none

/-- A copy with an entry among candidates, such that no nearer candidate has one. -/
structure FirstEntry (tree : FileTree) (candidates : List Path) (copy entry : Path) : Prop where
  /-- the copy is a candidate, and nearer ones have no entry -/
  nearest : ∃ nearer farther, candidates = nearer ++ copy :: farther ∧
    ∀ place ∈ nearer, tree.Entryless place
  /-- it is installed -/
  installed : tree.isDirectory copy = .ok true
  /-- its entry -/
  entry : (tree.entryOfDirectory copy).result = .ok (some entry)

theorem FirstEntry.cons {tree : FileTree} {place copy entry : Path} {candidates : List Path}
    (hplace : tree.Entryless place) (h : tree.FirstEntry candidates copy entry) :
    tree.FirstEntry (place :: candidates) copy entry := by
  obtain ⟨⟨nearer, farther, rfl, hnearer⟩, hinstalled, hentry⟩ := h
  refine ⟨⟨place :: nearer, farther, rfl, fun other hother => ?_⟩, hinstalled, hentry⟩
  obtain rfl | hother := List.mem_cons.mp hother
  · exact hplace
  · exact hnearer other hother

/-- The first of the candidates is looked at, and the others only if it has no entry. -/
theorem result_entryAmongCandidates_cons (tree : FileTree) (name : String) (place : Path)
    (rest : List Path) :
    (tree.entryAmongCandidates name (place :: rest)).result =
      (tree.isDirectory place >>= fun installed =>
        if installed then
          (tree.entryOfDirectory place).result >>= fun found =>
            match found with
            | some entry => .ok (some entry)
            | none => (tree.entryAmongCandidates name rest).result
        else (tree.entryAmongCandidates name rest).result) := by
  rw [entryAmongCandidates, Logged.result_bind]
  show (tree.isDirectory place >>= _) = _
  congr 1
  funext installed
  cases installed with
  | false => rfl
  | true =>
      show (tree.entryOfDirectory place >>= _).result = _
      rw [Logged.result_bind]
      congr 1
      funext found
      cases found <;> rfl

theorem entryAmongCandidates_eq_some_iff {tree : FileTree} {name : String}
    {candidates : List Path} {entry : Path} :
    (tree.entryAmongCandidates name candidates).result = .ok (some entry) ↔
      ∃ copy, tree.FirstEntry candidates copy entry := by
  constructor
  · intro h
    induction candidates with
    | nil => cases h
    | cons place rest ih =>
        obtain ⟨installed, hinstalled, h⟩ := Logged.exists_of_bind_ok h
        cases installed with
        | false =>
            obtain ⟨copy, hcopy⟩ := ih h
            exact ⟨copy, hcopy.cons (.inl hinstalled)⟩
        | true =>
            obtain ⟨found, hfound, h⟩ := Logged.exists_of_bind_ok h
            cases found with
            | some other =>
                obtain ⟨_, _, h⟩ := Logged.exists_of_bind_ok h
                obtain rfl := Option.some.inj (Except.ok.inj h)
                exact ⟨place, ⟨[], rest, rfl, by simp⟩, hinstalled, hfound⟩
            | none =>
                obtain ⟨copy, hcopy⟩ := ih h
                exact ⟨copy, hcopy.cons (.inr ⟨hinstalled, hfound⟩)⟩
  · rintro ⟨copy, ⟨nearer, farther, rfl, hnearer⟩, hinstalled, hentry⟩
    induction nearer with
    | nil =>
        rw [List.nil_append, result_entryAmongCandidates_cons, hinstalled]
        simp [bind, Except.bind, hentry]
    | cons place nearer ih =>
        have hrest := ih fun other hother => hnearer other (List.mem_cons_of_mem _ hother)
        rw [List.cons_append, result_entryAmongCandidates_cons]
        obtain hplace | ⟨hplace, hnone⟩ := hnearer place List.mem_cons_self
        · simpa [bind, Except.bind, hplace] using hrest
        · simpa [bind, Except.bind, hplace, hnone] using hrest

/-! ## The copy of an entry -/

theorem resolveEntry_eq_ok_iff {tree : FileTree} {name : String} {searchRoot entry : Path} :
    (tree.resolveEntry name searchRoot).result = .ok (.ok entry) ↔
      ∃ resolved copy, tree.resolve searchRoot = .ok resolved ∧
        tree.FirstEntry (candidates resolved name) copy entry := by
  constructor
  · intro h
    obtain ⟨resolved, hresolved, h⟩ := Logged.exists_of_bind_ok h
    obtain ⟨found, hfound, h⟩ := Logged.exists_of_bind_ok h
    cases found with
    | none => cases h
    | some other =>
        obtain rfl := Except.ok.inj (Except.ok.inj h)
        obtain ⟨copy, hcopy⟩ := entryAmongCandidates_eq_some_iff.mp hfound
        exact ⟨resolved, copy, hresolved, hcopy⟩
  · rintro ⟨resolved, copy, hresolved, hcopy⟩
    have hfound : (tree.entryAmongCandidates name (candidates resolved name)).result =
        .ok (some entry) := entryAmongCandidates_eq_some_iff.mpr ⟨copy, hcopy⟩
    have hstart : (Logged.ofExcept (tree.resolve searchRoot)).result = .ok resolved := hresolved
    unfold resolveEntry
    rw [Logged.bind_of_ok _ hstart, Logged.bind_of_ok _ hfound]
    rfl

/-- A place in which a search finds no directory is one of those that it looked at. -/
theorem firstPassing_eq_none {test : Path → Except Fault Bool} {paths : List Path} {path : Path}
    (h : firstPassing test paths = .ok none) (hpath : path ∈ paths) : test path = .ok false := by
  induction paths with
  | nil => cases hpath
  | cons first rest ih =>
      rw [firstPassing] at h
      split at h
      · cases h
      · cases h
      · next htest =>
          obtain rfl | hrest := List.mem_cons.mp hpath
          · exact htest
          · exact ih h hrest

theorem findDirectory_of_firstPassing {tree : FileTree} {name : String}
    {searchRoot resolved directory : Path} (hresolved : tree.resolve searchRoot = .ok resolved)
    (hfound : firstPassing tree.isDirectory (candidates resolved name) = .ok (some directory)) :
    tree.findDirectory name searchRoot = .ok directory := by
  simp [findDirectory, hresolved, hfound, bind, Except.bind, pure, Except.pure]

/-- The nearest directory among candidates with an entry is the copy of the first entry, or has
no entry. -/
theorem FirstEntry.exists_firstPassing {tree : FileTree} {candidates : List Path}
    {copy entry : Path} (h : tree.FirstEntry candidates copy entry) :
    ∃ directory, firstPassing tree.isDirectory candidates = .ok (some directory) ∧
      (directory = copy ∨ (tree.entryOfDirectory directory).result = .ok none) := by
  obtain ⟨⟨nearer, farther, rfl, hnearer⟩, hinstalled, _⟩ := h
  induction nearer with
  | nil => exact ⟨copy, by simp [firstPassing, hinstalled], .inl rfl⟩
  | cons place nearer ih =>
      rw [List.cons_append, firstPassing]
      obtain hplace | ⟨hplace, hnone⟩ := hnearer place List.mem_cons_self
      · rw [hplace]
        exact ih fun other hother => hnearer other (List.mem_cons_of_mem _ hother)
      · rw [hplace]
        exact ⟨place, rfl, .inr hnone⟩

/-- A package that is resolved has a directory, and it is that of the entry or has no entry. -/
theorem exists_findDirectory_of_resolveEntry {tree : FileTree} {name : String}
    {searchRoot entry : Path} (h : (tree.resolveEntry name searchRoot).result = .ok (.ok entry)) :
    ∃ resolved directory copy, tree.resolve searchRoot = .ok resolved ∧
      tree.findDirectory name searchRoot = .ok directory ∧
      tree.IsNearestCopy name searchRoot directory ∧
      tree.FirstEntry (candidates resolved name) copy entry ∧
      (directory = copy ∨ (tree.entryOfDirectory directory).result = .ok none) := by
  obtain ⟨resolved, copy, hresolved, hcopy⟩ := resolveEntry_eq_ok_iff.mp h
  obtain ⟨directory, hfound, hsame⟩ := hcopy.exists_firstPassing
  obtain ⟨nearer, farther, hnearest⟩ := firstPassing_eq_some_iff.mp hfound
  exact ⟨resolved, directory, copy, hresolved, findDirectory_of_firstPassing hresolved hfound,
    ⟨resolved, nearer, farther, hresolved, hnearest⟩, hcopy, hsame⟩

/-- The entry of the nearest copy is the one that a package is resolved to. -/
theorem resolveEntry_of_findDirectory {tree : FileTree} {name : String}
    {searchRoot directory entry : Path}
    (hfound : tree.findDirectory name searchRoot = .ok directory)
    (hcopy : tree.IsCopy name searchRoot directory)
    (hentry : (tree.entryOfDirectory directory).result = .ok (some entry)) :
    (tree.resolveEntry name searchRoot).result = .ok (.ok entry) := by
  obtain ⟨resolved, hresolved, hmem, hinstalled⟩ := hcopy
  refine resolveEntry_eq_ok_iff.mpr ⟨resolved, directory, hresolved, ?_, hinstalled, hentry⟩
  cases hfirst : firstPassing tree.isDirectory (candidates resolved name) with
  | error fault => simp [findDirectory, hresolved, hfirst, bind, Except.bind] at hfound
  | ok found =>
      cases found with
      | none =>
          rw [firstPassing_eq_none hfirst hmem] at hinstalled
          cases hinstalled
      | some other =>
          obtain rfl : directory = other :=
            Except.ok.inj (hfound.symm.trans (findDirectory_of_firstPassing hresolved hfirst))
          obtain ⟨nearer, farther, hcandidates, hnearer, _⟩ := firstPassing_eq_some_iff.mp hfirst
          exact ⟨nearer, farther, hcandidates, fun place hplace => .inl (hnearer place hplace)⟩

/-- A package that is asked for by its name is looked for where a dependency of the name is. -/
theorem findDirectory_of_locateRoot {tree : FileTree} {options : Options} {name : String}
    {directory : Path} (h : tree.locateRoot options = .ok (some name, directory)) :
    tree.findDirectory name options.resolvePath = .ok directory := by
  unfold locateRoot at h
  dsimp only at h
  split at h
  · cases hresolve : tree.resolve options.resolvePath <;>
      simp [hresolve, bind, Except.bind, pure, Except.pure] at h
  · cases hfile : tree.isFile ((Path.ofString options.packageName).child manifestName) with
    | error fault => simp [hfile, bind, Except.bind] at h
    | ok found =>
        cases found with
        | true =>
            cases hresolve : tree.resolve (.ofString options.packageName) <;>
              simp [hfile, hresolve, bind, Except.bind, pure, Except.pure] at h
        | false =>
            cases hfind : tree.findDirectory options.packageName options.resolvePath with
            | error fault => simp [hfile, hfind, bind, Except.bind] at h
            | ok place =>
                obtain ⟨rfl, rfl⟩ : options.packageName = name ∧ place = directory := by
                  simpa [hfile, hfind, bind, Except.bind, pure, Except.pure] using h
                exact hfind

end FileTree

/-! ## Surveys -/

namespace Survey

theorem entryOf_of_resolve {survey : Survey} {name : String} {path : Path}
    (h : (survey.surroundings.resolve name survey.options.resolvePath).result = .ok (.ok path)) :
    (survey.entryOf name).result = .ok (some path) := by
  rw [Run.result, entryOf, Run.on_bind, Run.on_ask, h]
  rfl

/-- A package that had no verdict has the one that its entry leads to. -/
theorem verdict?_of_classify {survey : Survey} {name : String} {entry : Option Path} {depth : Int}
    {p q : Progress} {state : PackageState} (hfresh : p.store.verdict? name = none)
    (h : (survey.classify name entry depth).on p = (.ok state, q)) :
    ∃ verdict, (survey.evaluate entry).result = .ok verdict ∧
      q.store.verdict? name = some verdict := by
  obtain ⟨verdict, hresult, rfl⟩ := exists_of_classify_fresh hfresh h
  exact ⟨verdict, hresult, by simp [Store.verdict?_record, hfresh]⟩

/-- A verdict that there is before a walk is there after it. -/
theorem verdict?_of_walk {survey : Survey} {fuel : Nat} {root name : String} {start : Path}
    {depth : Int} {p q : Progress} {verdict : Verdict}
    (h : (survey.walk fuel root start depth).on p = (.ok (), q))
    (hverdict : p.store.verdict? name = some verdict) : q.store.verdict? name = some verdict := by
  obtain ⟨_, _, hwalks⟩ := exists_walks_of_walk h
  obtain ⟨listed, hlisted⟩ := hwalks.exists_listing
  cases listed with
  | none =>
      rw [hwalks.store_of_unlisted hlisted, Store.verdict?_record, hverdict]
      rfl
  | some names => exact (hwalks.explored hlisted).verdict?_eq_some_iff.mpr (.inl hverdict)

/-- A package that is asked for by its name is judged by the entry in the directory that it is
found in. -/
theorem verdict?_of_startPackage {tree : FileTree} {options : Options} {name found : String}
    {directory place : Path} {q : Progress}
    (hroot : tree.locateRoot options = .ok (some name, directory))
    (h : (startPackage tree options).on {} = (.ok (found, place), q)) :
    found = name ∧ ∃ entry verdict, (tree.entryOfDirectory directory).result = .ok entry ∧
      ((tree.survey options).evaluate entry).result = .ok verdict ∧
      q.store.verdict? name = some verdict := by
  obtain ⟨asked, manifest, entry, state, resolved, hasked, hfound, hentry, hbefore, hjudged⟩ :=
    exists_of_startPackage_ok h
  obtain ⟨rfl, rfl⟩ := Prod.mk.inj (Except.ok.inj (hasked.symm.trans hroot))
  obtain rfl : found = name := hfound
  have hstore : resolved.store = {} := hbefore.store
  obtain ⟨verdict, hverdict⟩ := verdict?_of_classify (by rw [hstore]; rfl) hjudged
  exact ⟨rfl, entry, verdict, hentry, hverdict⟩

/-- A package that is resolved has a directory, the nearest copy, and its entry is that of the
nearest copy with an entry: the same copy, unless the nearest one has no entry.  Where the nearest
copy has an entry, the package is resolved to it, and a dependency of the name has it as entry and
the nearest copy as directory.  A package that a survey is asked for by its name is judged by the
entry of the nearest copy, and so, where there is one, as a dependency of the name is. -/
theorem resolveEntry_copy (tree : FileTree) (options : Options) (name : String) :
    (∀ entry, (tree.resolveEntry name options.resolvePath).result = .ok (.ok entry) →
      ∃ resolved directory copy, tree.resolve options.resolvePath = .ok resolved ∧
        tree.findDirectory name options.resolvePath = .ok directory ∧
        tree.IsNearestCopy name options.resolvePath directory ∧
        tree.FirstEntry (FileTree.candidates resolved name) copy entry ∧
        (directory = copy ∨ (tree.entryOfDirectory directory).result = .ok none)) ∧
      (∀ directory entry, tree.findDirectory name options.resolvePath = .ok directory →
        tree.IsCopy name options.resolvePath directory →
          (tree.entryOfDirectory directory).result = .ok (some entry) →
            (tree.resolveEntry name options.resolvePath).result = .ok (.ok entry) ∧
              ((tree.survey options).entryOf name).result = .ok (some entry) ∧
              (tree.survey options).directoryFor name = .ok directory) ∧
      ∀ directory root q, tree.locateRoot options = .ok (some name, directory) →
        (checkPackage tree options).outcome = (.ok root, q) →
          root = name ∧ tree.findDirectory name options.resolvePath = .ok directory ∧
            ∃ entry verdict, (tree.entryOfDirectory directory).result = .ok entry ∧
              ((tree.survey options).evaluate entry).result = .ok verdict ∧
              q.store.verdict? name = some verdict ∧
              (tree.IsCopy name options.resolvePath directory → entry ≠ none →
                (tree.survey options).finding name = .ok verdict) := by
  have hdependency : ∀ directory entry,
      tree.findDirectory name options.resolvePath = .ok directory →
        tree.IsCopy name options.resolvePath directory →
          (tree.entryOfDirectory directory).result = .ok (some entry) →
            (tree.resolveEntry name options.resolvePath).result = .ok (.ok entry) ∧
              ((tree.survey options).entryOf name).result = .ok (some entry) := by
    intro directory entry hfound hcopy hentry
    have hresolved := FileTree.resolveEntry_of_findDirectory hfound hcopy hentry
    exact ⟨hresolved, entryOf_of_resolve hresolved⟩
  refine ⟨fun entry => FileTree.exists_findDirectory_of_resolveEntry, ?_, ?_⟩
  · intro directory entry hfound hcopy hentry
    obtain ⟨hresolved, hasked⟩ := hdependency directory entry hfound hcopy hentry
    exact ⟨hresolved, hasked, hfound⟩
  · intro directory root q hroot hcheck
    obtain ⟨place, start, last, hstart, hwalk, hstore⟩ := exists_walk_of_checkPackage hcheck
    obtain ⟨rfl, entry, verdict, hentry, hevaluated, hverdict⟩ :=
      verdict?_of_startPackage hroot hstart
    have hfound := FileTree.findDirectory_of_locateRoot hroot
    refine ⟨rfl, hfound, entry, verdict, hentry, hevaluated, ?_, fun hcopy hsome => ?_⟩
    · rw [hstore]
      exact verdict?_of_walk hwalk hverdict
    · obtain ⟨path, rfl⟩ := Option.ne_none_iff_exists'.mp hsome
      have hasked := (hdependency directory path hfound hcopy hentry).2
      rw [finding, ((tree.survey options).inquire_of_entry hasked).1, hevaluated]
      rfl

/-- A package `lib` is installed twice, and the nearer copy is empty; a package `whole` is
installed once. -/
def shadowedTree : FileTree where
  top := .directory
    [("sub", .directory [(installedName, .directory
        [("lib", .directory []), ("whole", .directory [("index.js", .file [])])])]),
      (installedName, .directory [("lib", .directory [("index.js", .file [])])])]

/-- A survey of a package from the directory `sub`. -/
def optionsBelow (name : String) : Options :=
  { packageName := name, resolvePath := .ofString "sub" }

/-- The package `whole` is judged by one entry, asked for by its name or as a dependency. -/
theorem shadowedTree_resolveEntry_copy :
    ∃ q, (checkPackage shadowedTree (optionsBelow "whole")).outcome = (.ok "whole", q) ∧
      q.store.verdict? "whole" = some .compatible ∧
      ((shadowedTree.survey (optionsBelow "whole")).entryOf "whole").result =
        .ok (some ⟨.top, ["sub", installedName, "whole", "index.js"]⟩) ∧
      (shadowedTree.survey (optionsBelow "whole")).finding "whole" = .ok .compatible := by
  have hrun : ((checkPackage shadowedTree (optionsBelow "whole")).on {}).1.toOption =
      some "whole" := by decide +kernel
  have hyields := Run.on_eq_of_toOption hrun
  have hplace : (FileTree.resolve shadowedTree (.ofString "sub")) = .ok ⟨.top, ["sub"]⟩ ∧
      (⟨.top, ["sub", installedName, "whole"]⟩ : Path) ∈
        FileTree.candidates ⟨.top, ["sub"]⟩ "whole" ∧
      shadowedTree.isDirectory ⟨.top, ["sub", installedName, "whole"]⟩ = .ok true := by
    decide +kernel
  have hcopy : shadowedTree.IsCopy "whole" (.ofString "sub")
      ⟨.top, ["sub", installedName, "whole"]⟩ := ⟨_, hplace⟩
  obtain ⟨_, hdirectory, hroot⟩ := resolveEntry_copy shadowedTree (optionsBelow "whole") "whole"
  obtain ⟨_, hfound, entry, verdict, hentry, hevaluated, hverdict, hsame⟩ :=
    hroot ⟨.top, ["sub", installedName, "whole"]⟩ "whole" _ (by decide +kernel) hyields
  have hindex : (shadowedTree.entryOfDirectory ⟨.top, ["sub", installedName, "whole"]⟩).result =
      .ok (some ⟨.top, ["sub", installedName, "whole", "index.js"]⟩) := by decide +kernel
  obtain ⟨_, hasked, _⟩ := hdirectory _ _ hfound hcopy hindex
  obtain rfl : some _ = entry := Except.ok.inj (hindex.symm.trans hentry)
  have hconforms : ((shadowedTree.survey (optionsBelow "whole")).evaluate
      (some ⟨.top, ["sub", installedName, "whole", "index.js"]⟩)).result = .ok .compatible := by
    decide +kernel
  obtain rfl : Verdict.compatible = verdict := Except.ok.inj (hconforms.symm.trans hevaluated)
  exact ⟨_, hyields, hverdict, hasked, hsame hcopy (by simp)⟩

/-- The package `lib` is resolved to the entry of a copy that is not the one in its directory,
which has no entry.  Asked for by its name it has no entry to be judged by, and as a dependency it
conforms. -/
theorem shadowedTree_separates_copies :
    (shadowedTree.resolveEntry "lib" (.ofString "sub")).result =
        .ok (.ok ⟨.top, [installedName, "lib", "index.js"]⟩) ∧
      shadowedTree.findDirectory "lib" (.ofString "sub") =
        .ok ⟨.top, ["sub", installedName, "lib"]⟩ ∧
      (shadowedTree.entryOfDirectory ⟨.top, ["sub", installedName, "lib"]⟩).result = .ok none ∧
      ((checkPackage shadowedTree (optionsBelow "lib")).on {}).2.store.verdict? "lib" =
        some .unreadable ∧
      (shadowedTree.survey (optionsBelow "lib")).finding "lib" = .ok .compatible :=
  ⟨by decide +kernel, by decide +kernel, by decide +kernel, by decide +kernel, by decide +kernel⟩

end Survey

end EditionSurvey
