/-
  Proofs/Rewriting.lean --- manifests that are written in another way.

  A manifest file may be written anew without making a difference: with other blanks, with the
  members of its objects in another order, and with other members beside those that a manifest
  reads.  It has to be readable before and after, and no object in it may have two members of one
  name.  The survey of a package then does exactly the same (`checkPackage_rewritten`), whichever
  manifests of the tree are written anew.
-/
import EditionSurvey.Proofs.Agreement
import EditionSurvey.Proofs.Matching

set_option autoImplicit false

namespace EditionSurvey

/-! ## Manifest files -/

/-- Two texts write values of which one is a rearrangement of the other, apart from members that
no manifest reads.  Both can be read. -/
structure Rewriting (text other : List Char) (v w : Value) : Prop where
  /-- what the first text writes -/
  first : Reader.WritesFile v text
  /-- what the second text writes -/
  second : Reader.WritesFile w other
  /-- no object in the first text has two members of one name -/
  firstNames : v.Distinct
  /-- no object in the second text has two members of one name -/
  secondNames : w.Distinct
  /-- the members that a manifest reads are in another order at most -/
  rearranged : v.essential.Rearranged w.essential
  /-- the first text can be read -/
  firstReadable : (Reader.readFile text).toOption.isSome = true
  /-- the second text can be read -/
  secondReadable : (Reader.readFile other).toOption.isSome = true

/-- Two files hold texts of which one is a rewriting of the other. -/
def RewrittenBytes (bytes other : List UInt8) : Prop :=
  ∃ text otherText v w, Text.decode? bytes = .ok text ∧ Text.decode? other = .ok otherText ∧
    Rewriting (Text.unifyLineEnds text) (Text.unifyLineEnds otherText) v w

/-- A rewritten object is an object. -/
theorem Value.Rearranged.isObject {v w : Value} (h : v.essential.Rearranged w.essential) :
    (∃ members, v = .object members) ↔ ∃ others, w = .object others := by
  have hessential : ∀ u : Value, (∃ members, u = .object members) ↔
      ∃ members, u.essential = .object members := by
    intro u
    cases u <;> simp [Value.essential]
  rw [hessential v, hessential w]
  rcases h.shape with heq | ⟨_, _, hv, hw⟩ | ⟨_, _, hv, hw⟩
  · rw [heq]
  · simp [hv, hw]
  · simp [hv, hw]

/-- A manifest that is rewritten says the same, or is wrong in the same way. -/
theorem Rewriting.manifestOfText_alike {text other : List Char} {v w : Value}
    (h : Rewriting text other v w) :
    Alike (Alike Manifest.Equivalent) (manifestOfText text) (manifestOfText other) := by
  have hreadable : ∀ {text : List Char}, (Reader.readFile text).toOption.isSome = true →
      ∃ u, Reader.readFile text = .ok u := by
    intro text h
    cases hread : Reader.readFile text with
    | error fault => simp [hread, Except.toOption] at h
    | ok u => exact ⟨u, rfl⟩
  obtain ⟨u, hfirst⟩ := hreadable h.firstReadable
  obtain ⟨x, hsecond⟩ := hreadable h.secondReadable
  obtain rfl := Reader.readFile_of_writes h.first h.firstNames hfirst
  obtain rfl := Reader.readFile_of_writes h.second h.secondNames hsecond
  have hobject := h.rearranged.isObject
  have hother : ∀ {text : List Char} {u : Value}, Reader.readFile text = .ok u →
      (¬∃ members, u = .object members) → manifestOfText text = .ok (.error .notAnObject) := by
    intro text u hread hu
    unfold manifestOfText
    rw [hread]
    cases u with
    | object members => exact absurd ⟨members, rfl⟩ hu
    | _ => rfl
  by_cases hu : ∃ members, u = .object members
  · obtain ⟨others, rfl⟩ := hobject.mp hu
    obtain ⟨members, rfl⟩ := hu
    unfold manifestOfText
    rw [hfirst, hsecond]
    exact .ok ((ofMembers_alike h.rearranged h.firstNames).mapError _)
  · rw [hother hfirst hu, hother hsecond (fun hx => hu (hobject.mpr hx))]
    exact .ok (.error _)

/-! ## Trees with rewritten manifests -/

/-- The contents of a file are the same, or they are a manifest that is rewritten. -/
def RewrittenManifest (name : String) (bytes other : List UInt8) : Prop :=
  bytes = other ∨ name = manifestName ∧ RewrittenBytes bytes other

theorem RewrittenManifest.alike {name : String} {bytes other : List UInt8}
    (h : RewrittenManifest name bytes other) :
    Alike (Alike Manifest.Equivalent) (manifestOfBytes bytes) (manifestOfBytes other) := by
  rcases h with rfl | ⟨_, text, otherText, v, w, hfirst, hsecond, hrewriting⟩
  · exact .refl (Alike.refl Manifest.Equivalent.refl) _
  · unfold manifestOfBytes
    rw [hfirst, hsecond]
    exact hrewriting.manifestOfText_alike

theorem RewrittenManifest.namesInManifest_eq {name : String} {bytes other : List UInt8}
    (h : RewrittenManifest name bytes other) :
    FileTree.namesInManifest bytes = FileTree.namesInManifest other := by
  have halike := h.alike
  unfold FileTree.namesInManifest
  revert halike
  generalize manifestOfBytes bytes = answer
  generalize manifestOfBytes other = otherAnswer
  rintro (⟨hsame | flaw⟩ | fault)
  · exact hsame.dependencyNames_eq true
  · rfl
  · rfl

/-- The suffix of a manifest is that of no script. -/
theorem isNonSource_of_name {path : Path} (h : path.name = manifestName) :
    isNonSource path = true := by
  rw [isNonSource, Path.suffix, h]
  decide +kernel

namespace FileTree

/-- Two trees differ in how some manifests are written, and in nothing else. -/
def Rewritten (first second : FileTree) : Prop := Matches RewrittenManifest first second

variable {first second : FileTree} (h : first.Rewritten second)

include h

theorem manifestAt_alike (directory : Path) :
    Alike (Alike Manifest.Equivalent)
      (first.manifestAt directory) (second.manifestAt directory) := by
  have hread := read_alike h (directory.child manifestName)
  unfold manifestAt
  revert hread
  generalize first.read (directory.child manifestName) = found
  generalize second.read (directory.child manifestName) = other
  rintro (⟨hbytes | failure⟩ | fault)
  · exact hbytes.alike
  · exact .ok (.error _)
  · exact .error _

omit h in
/-- A path that leads somewhere leads to what its last component names. -/
theorem lastName_of_proper (tree : FileTree) {path : Path} (h : path.Proper) :
    tree.lastName path = path.name := by
  unfold lastName fromTop Path.name
  split
  · next hanchor => rw [List.getLast?_append_of_ne_nil _ (h hanchor)]
  · rfl

/-- No manifest is read as a script. -/
theorem readScript_eq {path : Path} (hproper : path.Proper) (hsource : isNonSource path = false) :
    first.readScript path = second.readScript path := by
  have hname : first.lastName path ≠ manifestName := by
    rw [first.lastName_of_proper hproper]
    intro heq
    simp [isNonSource_of_name heq] at hsource
  have hread := read_alike h path
  unfold readScript
  revert hread
  generalize first.read path = found
  generalize second.read path = other
  rintro (⟨hbytes | failure⟩ | fault)
  · rcases hbytes with rfl | ⟨hmanifest, _⟩
    · rfl
    · exact absurd hmanifest hname
  · rfl
  · rfl

theorem dependencyNames_eq : first.dependencyNames = second.dependencyNames := by
  have hcontents : List.Forall₂ (RewrittenManifest manifestName)
      (first.top.contentsNamed manifestName) (second.top.contentsNamed manifestName) :=
    h.top.contentsNamed
  unfold dependencyNames
  congr 1
  generalize first.top.contentsNamed manifestName = contents at hcontents
  generalize second.top.contentsNamed manifestName = others at hcontents
  induction hcontents with
  | nil => rfl
  | cons hbytes _ ih =>
      rw [List.flatMap_cons, List.flatMap_cons, hbytes.namesInManifest_eq, ih]

/-- Trees that differ in how manifests are written agree. -/
theorem agree_of_rewritten : Agree first second where
  isFile := isFile_eq h
  isDirectory := isDirectory_eq h
  resolve := resolve_eq h
  manifestAt := manifestAt_alike h
  readScript _ := readScript_eq h
  dependencyNames := dependencyNames_eq h

end FileTree

namespace Survey

/-- A survey of a package does the same on trees that differ in how manifests are written: it ends
in the same way, with the same verdicts in the same order, and prints the same lines and writes the
same log in between. -/
theorem checkPackage_rewritten {first second : FileTree} (h : first.Rewritten second)
    (options : Options) :
    (checkPackage first options).outcome = (checkPackage second options).outcome :=
  (checkPackage_agreed (FileTree.agree_of_rewritten h)).on_eq {}

/-! ## A manifest in two ways -/

open Reader

/-- A manifest. -/
def plainText : String := "\x7b\"main\":\"m.js\",\"name\":\"a\"\x7d"

/-- The same manifest in another order, with blanks and one more member. -/
def spaciousText : String := "\x7b\"name\": \"a\",\"x\":0,\"main\":\"m.js\"\x7d\n"

/-- What the first text writes. -/
def plainValue : Value := .object [("main", .string "m.js"), ("name", .string "a")]

/-- What the second text writes. -/
def spaciousValue : Value :=
  .object [("name", .string "a"), ("x", .number ⟨0, 0⟩), ("main", .string "m.js")]

theorem padded_self (cs : List Char) : Padded cs cs :=
  ⟨[], [], by simp [AllBlank], by simp [AllBlank], by simp⟩

theorem writesText_main : WritesText "main" ['"', 'm', 'a', 'i', 'n', '"'] :=
  ⟨['m', 'a', 'i', 'n', '"'], rfl, rfl⟩

theorem writesText_name : WritesText "name" ['"', 'n', 'a', 'm', 'e', '"'] :=
  ⟨['n', 'a', 'm', 'e', '"'], rfl, rfl⟩

theorem writesText_file : WritesText "m.js" ['"', 'm', '.', 'j', 's', '"'] :=
  ⟨['m', '.', 'j', 's', '"'], rfl, rfl⟩

theorem writesText_a : WritesText "a" ['"', 'a', '"'] := ⟨['a', '"'], rfl, rfl⟩

theorem writesFile_plain : WritesFile plainValue plainText.toList :=
  have hname := WritesMembers.last writesText_name (padded_self _) (.text writesText_a)
    (padded_self _)
  ⟨_, .object (.more writesText_main (padded_self _) (.text writesText_file) (padded_self _) hname),
    [], [], by simp [AllBlank], by simp [AllBlank], by decide +kernel⟩

theorem writesFile_spacious : WritesFile spaciousValue spaciousText.toList := by
  have hmain := WritesMembers.last writesText_main (padded_self _) (.text writesText_file)
    (padded_self _)
  have hzero : Writes (.number ⟨0, 0⟩) ['0'] := .atom rfl
  have hkey : WritesText "x" ['"', 'x', '"'] := ⟨['x', '"'], rfl, rfl⟩
  have hother := WritesMembers.more hkey (padded_self _) hzero (padded_self _) hmain
  have hblank : Padded ['"', 'a', '"'] [' ', '"', 'a', '"'] :=
    ⟨[' '], [], by simp [AllBlank, isBlank], by simp [AllBlank], rfl⟩
  exact ⟨_, .object (.more writesText_name (padded_self _) (.text writesText_a) hblank hother),
    [], ['\n'], by simp [AllBlank], by simp [AllBlank, isBlank], by decide +kernel⟩

/-- The second text is a rewriting of the first one. -/
theorem rewriting_spacious :
    Rewriting plainText.toList spaciousText.toList plainValue spaciousValue where
  first := writesFile_plain
  second := writesFile_spacious
  firstNames := by simp [plainValue, Value.Distinct, or_imp, forall_and]
  secondNames := by simp [spaciousValue, Value.Distinct, or_imp, forall_and]
  rearranged := by
    have hfirst : plainValue.essential = plainValue := by
      simp [plainValue, Value.essential, knownMembers]
    have hsecond : spaciousValue.essential =
        .object [("name", .string "a"), ("main", .string "m.js")] := by
      simp [spaciousValue, Value.essential, knownMembers]
    rw [hfirst, hsecond]
    exact .order (.swap _ _ _)
  firstReadable := by decide +kernel
  secondReadable := by decide +kernel

/-- A package with a manifest, and with the main file that the manifest names. -/
def packageWith (manifest : String) : FileTree where
  top := .directory
    [(manifestName, .file manifest.toUTF8.toList), ("m.js", .file "let x".toUTF8.toList)]

/-- Its survey does not depend on which of the texts its manifest is. -/
theorem checkPackage_spacious_rewritten :
    (packageWith plainText).Rewritten (packageWith spaciousText) ∧
      (checkPackage (packageWith plainText) {}).outcome =
        (checkPackage (packageWith spaciousText) {}).outcome := by
  have hrewritten : (packageWith plainText).Rewritten (packageWith spaciousText) := by
    refine ⟨.directory (.cons (.file (.inr ⟨rfl, ?_⟩)) (.cons (.file (.inl rfl)) .nil)), rfl⟩
    refine ⟨plainText.toList, spaciousText.toList, plainValue, spaciousValue, by decide +kernel,
      by decide +kernel, ?_⟩
    have hplain : Text.unifyLineEnds plainText.toList = plainText.toList := by decide +kernel
    have hspacious : Text.unifyLineEnds spaciousText.toList = spaciousText.toList := by
      decide +kernel
    rw [hplain, hspacious]
    exact rewriting_spacious
  exact ⟨hrewritten, checkPackage_rewritten hrewritten {}⟩

end Survey

end EditionSurvey
