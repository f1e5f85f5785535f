/-
  Proofs/Confinement.lean --- which manifests end a survey.

  A manifest that is missing, malformed or of wrong types is a matter of its own package.  Three
  kinds are not: bytes that are no text in UTF-8, a whole number with too many digits, and lists and
  objects that nest too deep end the survey that asks for them (`ContentTrouble`).

  Where all manifests are legible, reading them ends no survey, whatever they say.  What may still
  end it is known (`SurveyTrouble`): a path that cannot be looked up, among them those that the
  targets of manifests lead to, and a script with a template without a head
  (`manifests_confined`).

  Directories and names are texts of characters.  A manifest in which half of a pair stands alone is
  not legible: a name with such a half is no part of a path, and ends a survey in a way of its own.
-/
import EditionSurvey.Proofs.Encoding
import EditionSurvey.Proofs.Limits
import EditionSurvey.Proofs.Probes

set_option autoImplicit false

namespace EditionSurvey

/-! ## The bytes of a manifest -/

/-- The bytes are a text in UTF-8 in which no half of a pair stands alone, no whole number has too
many digits, and no list or object opens too deep. -/
def Legible (bytes : List UInt8) : Prop :=
  ∃ text, bytes = Text.encode text ∧ Reader.paired (Text.unifyLineEnds text) = true ∧
    (∀ digits, Reader.HoldsNumber digits (Text.unifyLineEnds text) →
      digits.length ≤ Reader.digitLimit) ∧
    ¬Reader.OpensAt Reader.nestingLimit (Text.unifyLineEnds text)

/-- What keeps bytes from holding a manifest or being told to hold none. -/
inductive ContentTrouble (bytes : List UInt8) : Fault → Prop where
  /-- they are no text in UTF-8 -/
  | undecodable {fault : Text.Utf8Fault} (h : ∀ text, bytes ≠ Text.encode text) :
      ContentTrouble bytes (.undecodable fault)
  /-- they hold a whole number with too many digits -/
  | digits {text digits : List Char} (encoded : bytes = Text.encode text)
      (holds : Reader.HoldsNumber digits (Text.unifyLineEnds text))
      (long : Reader.digitLimit < digits.length) :
      ContentTrouble bytes (.numberTooLong digits.length)
  /-- a list or an object opens in them too deep -/
  | nesting {text : List Char} (encoded : bytes = Text.encode text)
      (deep : Reader.OpensAt Reader.nestingLimit (Text.unifyLineEnds text)) :
      ContentTrouble bytes .nestsTooDeep

theorem Legible.not_contentTrouble {bytes : List UInt8} (h : Legible bytes) (fault : Fault) :
    ¬ContentTrouble bytes fault := by
  obtain ⟨text, rfl, -, hnumbers, hnesting⟩ := h
  have hsame : ∀ other, Text.encode text = Text.encode other → text = other := by
    intro other hother
    exact Except.ok.inj ((Text.decode?_eq_ok_iff.mpr rfl).symm.trans
      (Text.decode?_eq_ok_iff.mpr hother))
  rintro (hnone | ⟨hencoded, hholds, hlong⟩ | ⟨hencoded, hdeep⟩)
  · exact hnone text rfl
  · obtain rfl := hsame _ hencoded
    exact Nat.not_lt.mpr (hnumbers _ hholds) hlong
  · obtain rfl := hsame _ hencoded
    exact hnesting hdeep

/-- A short text in UTF-8 is legible if no half of a pair stands alone in it. -/
theorem legible_of_length_le {bytes : List UInt8} {text : List Char}
    (h : Text.decode? bytes = .ok text)
    (hpaired : Reader.paired (Text.unifyLineEnds text) = true)
    (hlength : (Text.unifyLineEnds text).length ≤ Reader.nestingLimit) : Legible bytes := by
  refine ⟨text, Text.decode?_eq_ok_iff.mp h, hpaired, ?_, ?_⟩
  · rintro digits ⟨before, sign, after, _, hall, _⟩
    have hlimits : Reader.nestingLimit ≤ Reader.digitLimit := by decide
    have hdigits : digits.length ≤ (Text.unifyLineEnds text).length := by
      simp only [hall, List.length_append]
      omega
    exact hdigits.trans (hlength.trans hlimits)
  · rintro ⟨before, c, after, hall, _, hstanding⟩
    have hdepth := Reader.depth_le_length hstanding
    have hbefore : before.length < (Text.unifyLineEnds text).length := by
      simp [hall]
    omega

/-- Bytes are refused as no text exactly if they are none. -/
theorem exists_manifestOfBytes_eq_undecodable_iff {bytes : List UInt8} :
    (∃ fault, manifestOfBytes bytes = .error (.undecodable fault)) ↔
      ∀ text, bytes ≠ Text.encode text := by
  rw [← Text.exists_decode?_eq_error_iff]
  constructor
  · rintro ⟨fault, hfault⟩
    unfold manifestOfBytes at hfault
    split at hfault
    · next other hdecode => exact ⟨other, hdecode⟩
    · next text _ =>
        unfold manifestOfText at hfault
        split at hfault <;> cases hfault
  · rintro ⟨fault, hfault⟩
    exact ⟨fault, by rw [manifestOfBytes, hfault]⟩

theorem manifestOfBytes_failsBy (bytes : List UInt8) :
    FailsBy (ContentTrouble bytes) (manifestOfBytes bytes) := by
  unfold manifestOfBytes
  split
  · next fault hdecode =>
      exact .of_error (.undecodable (Text.exists_decode?_eq_error_iff.mp ⟨fault, hdecode⟩))
  · next text hdecode =>
      have hencoded := Text.decode?_eq_ok_iff.mp hdecode
      unfold manifestOfText
      split
      · exact .of_ok _
      · next digits hread =>
          cases Reader.exceeds_of_readFile hread with
          | digits holds long => exact .of_error (.digits hencoded holds long)
      · next hread =>
          cases Reader.exceeds_of_readFile hread with
          | nesting deep => exact .of_error (.nesting hencoded deep)
      · exact .of_ok _
      · exact .of_ok _

namespace FileTree

/-! ## The manifest of a directory -/

/-- What keeps the manifest of a directory from being given or told to be unreadable. -/
inductive ManifestTrouble (tree : FileTree) (directory : Path) : Fault → Prop where
  /-- the path of the directory holds a zero -/
  | zero (h : hasZero directory = true) : ManifestTrouble tree directory .zeroInPath
  /-- the bytes of the manifest do -/
  | content {bytes : List UInt8} {fault : Fault}
      (read : tree.read (directory.child manifestName) = .ok (.ok bytes))
      (trouble : ContentTrouble bytes fault) : ManifestTrouble tree directory fault

theorem result_readManifest (tree : FileTree) (directory : Path) :
    (tree.readManifest directory).result =
      (tree.manifestAt directory).map (Except.mapError (⟨directory, ·⟩)) := by
  unfold readManifest
  rw [Logged.result_bind]
  rcases tree.manifestAt directory with fault | flaw | manifest <;> rfl

theorem readManifest_failsBy (tree : FileTree) (directory : Path) :
    FailsBy (tree.ManifestTrouble directory) (tree.readManifest directory).result := by
  rw [result_readManifest]
  refine FailsBy.map ?_ _
  unfold manifestAt
  split
  · next fault hread =>
      obtain ⟨rfl, hzero⟩ := read_failsBy tree _ fault hread
      exact .of_error (.zero (by rwa [hasZero_child (by decide)] at hzero))
  · exact .of_ok _
  · next bytes hread => exact (manifestOfBytes_failsBy bytes).imp fun _ => .content hread

/-- A manifest that cannot be read is told to be that of its directory. -/
theorem directory_of_readManifest {tree : FileTree} {directory : Path} {failure : ManifestFailure}
    (h : (tree.readManifest directory).result = .ok (.error failure)) :
    failure.directory = directory := by
  rw [result_readManifest] at h
  rcases hanswer : tree.manifestAt directory with fault | flaw | manifest <;> rw [hanswer] at h
  · cases h
  · obtain rfl := Except.error.inj (Except.ok.inj h)
    rfl
  · cases h

/-- Where all manifests are legible, only a zero in the path keeps one from being read or told to be
unreadable. -/
theorem readManifest_failsBy_of_legible {tree : FileTree}
    (h : ∀ bytes ∈ tree.top.contentsNamed manifestName, Legible bytes) (directory : Path) :
    FailsBy (fun fault => fault = .zeroInPath ∧ hasZero directory = true)
      (tree.readManifest directory).result := by
  refine (readManifest_failsBy tree directory).imp fun fault htrouble => ?_
  cases htrouble with
  | zero hzero => exact ⟨rfl, hzero⟩
  | content hread htrouble =>
      have hbytes := mem_contentsNamed_of_read (by decide) (by decide) hread
      exact absurd htrouble ((h _ hbytes).not_contentTrouble fault)

theorem hasZero_of_test {tree : FileTree} {path : Path} {holds : FileNode → Bool}
    (h : tree.test path holds = .ok true) : hasZero path = false := by
  cases hzero : hasZero path with
  | false => rfl
  | true => simp [test, find, hzero] at h

/-- A file that was found is read. -/
theorem exists_readScript_of_holdsFile {tree : FileTree} {path : Path}
    (h : tree.holdsFile path = true) : ∃ source, tree.readScript path = .ok (.ok source) := by
  unfold holdsFile at h
  split at h
  · next bytes hfind => exact ⟨scriptText bytes, by rw [readScript, read, hfind]⟩
  · cases h

theorem holdsFile_of_entryOfDirectory {tree : FileTree} {directory path : Path}
    (h : (tree.entryOfDirectory directory).result = .ok (some path)) : tree.holdsFile path = true :=
  List.find?_some (entryOfDirectory_answer h).symm

theorem holdsFile_of_resolveEntry {tree : FileTree} {name : String} {searchRoot path : Path}
    (h : (tree.resolveEntry name searchRoot).result = .ok (.ok path)) :
    tree.holdsFile path = true := by
  have hanswer := resolveEntry_answer h
  unfold firstProbe at hanswer
  split at hanswer
  · next found hfirst =>
      obtain rfl := Except.ok.inj hanswer
      exact List.find?_some hfirst
  · cases hanswer

/-! ## Surveys -/

/-- The directories of the packages that a survey opens: of the one that it starts with, and of
those that manifests name. -/
inductive Opens (tree : FileTree) (options : Options) : Path → Prop where
  /-- the package to start with -/
  | start {asked : Option String} {directory : Path}
      (located : tree.locateRoot options = .ok (asked, directory)) : Opens tree options directory
  /-- a dependency -/
  | dependency {name : String} {directory : Path} (mem : name ∈ tree.dependencyNames)
      (found : tree.findDirectory name options.resolvePath = .ok directory) :
      Opens tree options directory

/-- The scripts that a survey judges: the entry of the package that it starts with, and those of the
dependencies that manifests name. -/
inductive Judges (tree : FileTree) (options : Options) : Path → Prop where
  /-- the package to start with -/
  | start {asked : Option String} {directory path : Path}
      (located : tree.locateRoot options = .ok (asked, directory))
      (entry : (tree.entryOfDirectory directory).result = .ok (some path)) :
      Judges tree options path
  /-- a dependency -/
  | dependency {name : String} {path : Path} (mem : name ∈ tree.dependencyNames)
      (entry : (tree.resolveEntry name options.resolvePath).result = .ok (.ok path)) :
      Judges tree options path

/-- What keeps the package to start with from being located. -/
inductive RootTrouble (tree : FileTree) (options : Options) : Fault → Prop where
  /-- it is searched for where nothing can be, or by a name that is too long -/
  | search {fault : Fault}
      (h : tree.SearchTrouble options.packageName options.resolvePath fault) :
      RootTrouble tree options fault
  /-- as a path, its name leads to a manifest with a path that is too long -/
  | overlong (long : tree.Overlong ((Path.ofString options.packageName).child manifestName)) :
      RootTrouble tree options (.file .nameTooLong)

/-- What ends the survey of a package when reading the manifests does not. -/
inductive SurveyTrouble (tree : FileTree) (options : Options) : Fault → Prop where
  /-- the package to start with cannot be located -/
  | root {fault : Fault} (h : tree.RootTrouble options fault) : SurveyTrouble tree options fault
  /-- the path of a directory that is opened holds a zero -/
  | zero {directory : Path} (opened : tree.Opens options directory)
      (h : hasZero directory = true) : SurveyTrouble tree options .zeroInPath
  /-- the entry of the package to start with cannot be looked for -/
  | entry {asked : Option String} {directory : Path} {fault : Fault}
      (located : tree.locateRoot options = .ok (asked, directory))
      (trouble : tree.EntryTrouble directory fault) : SurveyTrouble tree options fault
  /-- a dependency cannot be looked for -/
  | lookup {name : String} {fault : Fault} (mem : name ∈ tree.dependencyNames)
      (trouble : tree.LookupTrouble name options.resolvePath fault) :
      SurveyTrouble tree options fault
  /-- an entry has a template without a head -/
  | template {path : Path} {source : String} (judged : tree.Judges options path)
      (read : tree.readScript path = .ok (.ok source))
      (refused : Script.validate source options.edition = .error .templateWithoutHead) :
      SurveyTrouble tree options .templateWithoutHead

theorem locateRoot_failsBy (tree : FileTree) (options : Options) :
    FailsBy (tree.RootTrouble options) (tree.locateRoot options) := by
  unfold locateRoot
  dsimp only
  split
  · exact ((resolve_failsBy tree options.packageName _).imp fun _ => .search).bind
      fun _ _ => .of_ok _
  · refine FailsBy.bind ((test_failsBy tree _ _).imp ?_) fun found hfound => ?_
    · rintro fault ⟨rfl, hlong⟩
      exact .overlong hlong
    · split
      · next hmanifest =>
          have hzero := hasZero_of_test (hmanifest ▸ hfound)
          rw [hasZero_child (by decide)] at hzero
          exact .bind (.imp (.of_eq_ok (by rw [resolve, hzero]; rfl)) fun _ => False.elim)
            fun _ _ => .of_ok _
      · exact ((findDirectory_failsBy tree _ _).imp fun _ => .search).bind fun _ _ => .of_ok _

section

variable {tree : FileTree} (options : Options)

/-- A script that is an entry of the survey is there, so only a template can end its judgement. -/
theorem judge_failsBy {path : Path} (hjudged : tree.Judges options path)
    (hfile : tree.holdsFile path = true) :
    FailsBy (tree.SurveyTrouble options) ((tree.survey options).judge path).result := by
  refine ((tree.survey options).judge_failsBy path).imp fun fault htrouble => ?_
  obtain ⟨source, hread⟩ := exists_readScript_of_holdsFile hfile
  cases htrouble with
  | template hsource hrefused => exact .template hjudged hsource hrefused
  | read hfault =>
      have hanswer : tree.readScript path = .error fault := hfault
      rw [hread] at hanswer
      cases hanswer

variable (hlegible : ∀ bytes ∈ tree.top.contentsNamed manifestName, Legible bytes)

include hlegible

theorem listing_failsBy {directory : Path} (hopened : tree.Opens options directory) :
    FailsBy (tree.SurveyTrouble options) ((tree.survey options).listing directory) := by
  refine FailsBy.map ((readManifest_failsBy_of_legible hlegible directory).imp ?_) _
  rintro fault ⟨rfl, hzero⟩
  exact .zero hopened hzero

/-- Where all manifests are legible, an entry is looked for with the trouble of the look-up only. -/
theorem resolveEntry_failsBy_of_legible (name : String) (searchRoot : Path) :
    FailsBy (tree.LookupTrouble name searchRoot) (tree.resolveEntry name searchRoot).result := by
  refine (resolveEntry_failsBy (fun directory hdirectory => ?_) name searchRoot).imp
    fun _ htrouble => htrouble.resolve_left id
  refine (readManifest_failsBy_of_legible hlegible directory).imp ?_
  rintro fault ⟨-, hzero⟩
  simp [hasZero_of_test hdirectory] at hzero

theorem answers_failBy {start : Path} (hstart : tree.Opens options start) :
    (tree.survey options).AnswersFailBy start tree.dependencyNames
      (tree.SurveyTrouble options) where
  starting := listing_failsBy options hlegible hstart
  resolve name hname :=
    (resolveEntry_failsBy_of_legible hlegible name _).imp fun _ => .lookup hname
  judge _ hname _ hentry :=
    judge_failsBy options (.dependency hname hentry) (holdsFile_of_resolveEntry hentry)
  locate name hname :=
    (findDirectory_failsBy tree name _).imp fun _ htrouble => .lookup hname (.search htrouble)
  onward _ hname _ hfound :=
    listing_failsBy options hlegible (.dependency hname hfound)

end

end FileTree

namespace Survey

variable {tree : FileTree} {options : Options} {p q : Progress} {fault : Fault}

/-- What ends the start of a survey ends one of the four things that it asks for. -/
theorem startPackage_error (h : (startPackage tree options).on p = (.error fault, q)) :
    tree.locateRoot options = .error fault ∨
      ∃ asked directory, tree.locateRoot options = .ok (asked, directory) ∧
        ((tree.readManifest directory).result = .error fault ∨
          (tree.entryOfDirectory directory).result = .error fault ∨
          ∃ entry, (tree.entryOfDirectory directory).result = .ok entry ∧
            ((tree.survey options).evaluate entry).result = .error fault) := by
  unfold startPackage at h
  obtain hlocate | ⟨⟨asked, directory⟩, located, hlocate, h⟩ := Run.cases_of_bind_error h
  · rw [Run.on_perform] at hlocate
    exact .inl (Prod.mk.inj hlocate).1
  · rw [Run.on_perform] at hlocate
    refine .inr ⟨asked, directory, (Prod.mk.inj hlocate).1, ?_⟩
    rw [Run.on_bind_of_ok _ (Run.on_write _ _ _ _)] at h
    obtain hroot | ⟨manifest, _, _, h⟩ := Run.cases_of_bind_error h
    · unfold rootManifest at hroot
      obtain hread | ⟨answer, _, _, hnoted⟩ := Run.cases_of_bind_error hroot
      · rw [Run.on_perform] at hread
        exact .inl (Prod.mk.inj hread).1
      · cases answer with
        | error failure =>
            rw [Run.on_bind_of_ok _ (Run.on_write _ _ _ _)] at hnoted
            cases hnoted
        | ok manifest => cases hnoted
    · refine .inr ?_
      obtain hentry | ⟨entry, _, hentry, h⟩ := Run.cases_of_bind_error h
      · rw [Run.on_perform] at hentry
        exact .inl (Prod.mk.inj hentry).1
      · rw [Run.on_perform] at hentry
        refine .inr ⟨entry, (Prod.mk.inj hentry).1, ?_⟩
        obtain hclassify | ⟨_, _, _, h⟩ := Run.cases_of_bind_error h
        · exact classify_error hclassify
        · cases h

variable (hlegible : ∀ bytes ∈ tree.top.contentsNamed manifestName, Legible bytes)

include hlegible

theorem surveyTrouble_of_startPackage (h : (startPackage tree options).on p = (.error fault, q)) :
    tree.SurveyTrouble options fault := by
  obtain hlocate | ⟨asked, directory, hlocate, hread | hentry | ⟨entry, hentry, hjudge⟩⟩ :=
    startPackage_error h
  · exact .root (tree.locateRoot_failsBy options fault hlocate)
  · obtain ⟨rfl, hzero⟩ :=
      FileTree.readManifest_failsBy_of_legible hlegible directory fault hread
    exact .zero (.start hlocate) hzero
  · have hmanifest := FileTree.readManifest_failsBy_of_legible hlegible directory
    obtain ⟨rfl, hzero⟩ | htrouble :=
      FileTree.entryOfDirectory_failsBy hmanifest fault hentry
    · exact .zero (.start hlocate) hzero
    · exact .entry hlocate htrouble
  · refine evaluate_failsBy (fun path hpath => ?_) fault hjudge
    subst hpath
    exact FileTree.judge_failsBy options (.start hlocate hentry)
      (FileTree.holdsFile_of_entryOfDirectory hentry)

/-- Where all manifests are legible, what ends a survey of a package is known. -/
theorem checkPackage_failsBy :
    FailsBy (tree.SurveyTrouble options) ((checkPackage tree options).on p).1 := by
  obtain ⟨fault, q, hstart, hcheck⟩ | ⟨name, directory, now, root, iterations, result, q, hstart,
      hwalks, -, hcheck, -⟩ := checkPackage_ends tree options p
  · rw [hcheck]
    exact .of_error (surveyTrouble_of_startPackage hlegible hstart)
  · obtain ⟨asked, _, _, _, _, hlocate, -⟩ := exists_of_startPackage_ok hstart
    have hanswers := FileTree.answers_failBy options hlegible (.start hlocate)
    have hresult := hwalks.failsBy (tree.confinedTo_dependencyNames options directory) hanswers
    rw [hcheck]
    intro fault hfault
    cases result with
    | ok _ => cases hfault
    | error other =>
        obtain rfl := Except.error.inj hfault
        exact hresult other rfl

end Survey

/-- The manifest of a directory is there or cannot be read, unless the path holds a zero, the
bytes are no text in UTF-8, or the text exceeds a limit of the reader.  Bytes in a file are
refused as no text exactly if they are none.  Where all manifests of a tree are legible, the survey
of a package is ended only by a path that cannot be looked up or by a template without a head. -/
theorem manifests_confined (tree : FileTree) :
    (∀ directory,
      (∃ manifest, (tree.readManifest directory).result = .ok (.ok manifest)) ∨
        (∃ flaw, (tree.readManifest directory).result = .ok (.error ⟨directory, flaw⟩)) ∨
        ∃ fault, (tree.readManifest directory).result = .error fault ∧
          tree.ManifestTrouble directory fault) ∧
      (∀ directory bytes, tree.read (directory.child manifestName) = .ok (.ok bytes) →
        ((∃ fault, (tree.readManifest directory).result = .error (.undecodable fault)) ↔
          ∀ text, bytes ≠ Text.encode text)) ∧
      ((∀ bytes ∈ tree.top.contentsNamed manifestName, Legible bytes) →
        ∀ options p fault, ((Survey.checkPackage tree options).on p).1 = .error fault →
          tree.SurveyTrouble options fault) := by
  refine ⟨fun directory => ?_, fun directory bytes hread => ?_, fun hlegible options p => ?_⟩
  · obtain ⟨failure | manifest, hanswer⟩ | htrouble :=
      (tree.readManifest_failsBy directory).cases_on
    · obtain rfl := FileTree.directory_of_readManifest hanswer
      exact .inr (.inl ⟨failure.flaw, hanswer⟩)
    · exact .inl ⟨manifest, hanswer⟩
    · exact .inr (.inr htrouble)
  · rw [← exists_manifestOfBytes_eq_undecodable_iff]
    refine exists_congr fun fault => ?_
    rw [FileTree.result_readManifest, FileTree.manifestAt, hread]
    dsimp only
    rcases manifestOfBytes bytes with other | flaw | manifest <;> simp [Except.map]
  · exact Survey.checkPackage_failsBy hlegible

/-- A package whose main file is the top, and an installed one whose manifest is cut off. -/
def malformedTree : FileTree where
  top := .directory [(manifestName, .file "\x7b\"main\":\"/\"\x7d".toUTF8.toList),
    (installedName, .directory [("cut", .directory [(manifestName, .file "\x7b".toUTF8.toList)])])]

/-- The manifests of the tree are legible, though one is malformed, and what ends the survey of
the package is not that they are read: it is the target of the package. -/
theorem malformedTree_manifests_confined :
    (∀ bytes ∈ malformedTree.top.contentsNamed manifestName, Legible bytes) ∧
      ((Survey.checkPackage malformedTree {}).on {}).1 = .error (.emptyName ⟨.top, []⟩) ∧
      malformedTree.SurveyTrouble {} (.emptyName ⟨.top, []⟩) := by
  have hlegible : ∀ bytes ∈ malformedTree.top.contentsNamed manifestName, Legible bytes := by
    intro bytes hbytes
    have hcontents : malformedTree.top.contentsNamed manifestName =
        [Text.encode "\x7b\"main\":\"/\"\x7d".toList, Text.encode "\x7b".toList] := by
      decide +kernel
    rw [hcontents] at hbytes
    simp only [List.mem_cons, List.not_mem_nil, or_false] at hbytes
    obtain rfl | rfl := hbytes <;>
      exact legible_of_length_le (Text.decode?_eq_ok_iff.mpr rfl) (by decide +kernel)
        (by decide +kernel)
  have hends : ((Survey.checkPackage malformedTree {}).on {}).1 =
      .error (.emptyName ⟨.top, []⟩) := by decide +kernel
  exact ⟨hlegible, hends, (manifests_confined malformedTree).2.2 hlegible {} {} _ hends⟩

/-- A package whose manifest is a byte that starts no character. -/
def undecodableTree : FileTree where
  top := .directory [(manifestName, .file [0xFF])]

/-- The manifest of the package is neither read nor told to be unreadable, and it ends the survey
of the package. -/
theorem undecodableTree_ends_checkPackage :
    (undecodableTree.readManifest {}).result = .error (.undecodable ⟨0, [0xFF], .invalidStart⟩) ∧
      (Survey.checkPackage undecodableTree {}).outcome.1 =
        .error (.undecodable ⟨0, [0xFF], .invalidStart⟩) := by
  refine ⟨?_, by decide +kernel⟩
  have hread : undecodableTree.read (Path.child {} manifestName) = .ok (.ok [0xFF]) := by
    decide +kernel
  have hdecode : Text.decode? [0xFF] = .error ⟨0, [0xFF], .invalidStart⟩ := by decide +kernel
  rw [FileTree.result_readManifest, FileTree.manifestAt, hread]
  dsimp only
  rw [manifestOfBytes, hdecode]
  rfl

end EditionSurvey
