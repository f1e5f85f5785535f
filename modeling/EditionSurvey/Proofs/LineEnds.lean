/-
  Proofs/LineEnds.lean --- scripts whose lines end in another way.

  Line ends are made line feeds when a script is read, and only after its bytes were decoded.  Bytes
  that are no character may stand right before a line end, but neither a line feed nor a carriage
  return goes on with a character, so the decoder takes the same steps whether there is a carriage
  return before a line feed or not (`GainsReturns.utf8Step_alike`).  So a script is read as the same text
  (`MayGainReturns.scriptText_eq`), and no survey makes a difference between two trees of which one has
  more carriage returns in its scripts (`check_of_returns`).
-/
import EditionSurvey.Proofs.Encoding
import EditionSurvey.Proofs.Rewriting

set_option autoImplicit false

namespace EditionSurvey

/-! ## Texts -/

namespace Text

/-- Bytes without carriage returns, and the same bytes with a carriage return before some of the line
feeds. -/
inductive GainsReturns : List UInt8 → List UInt8 → Prop where
  /-- no bytes -/
  | nil : GainsReturns [] []
  /-- a byte that stays as it is, be it a line feed or another one -/
  | keep {b : UInt8} {bytes other : List UInt8} (hb : b ≠ 0x0D) (rest : GainsReturns bytes other) :
      GainsReturns (b :: bytes) (b :: other)
  /-- a line feed that gains a carriage return -/
  | gain {bytes other : List UInt8} (rest : GainsReturns bytes other) :
      GainsReturns (0x0A :: bytes) (0x0D :: 0x0A :: other)

/-- No character goes on with a line end. -/
theorem mayFollow_lineEnd (a : UInt8) : mayFollow a 0x0A = false ∧ mayFollow a 0x0D = false := by
  simp [← Bool.not_eq_true, mayFollow_iff]

theorem isContinuation_lineEnd : isContinuation 0x0A = false ∧ isContinuation 0x0D = false := by
  decide

section

variable {bytes other : List UInt8}

/-- A byte that passes a test that line ends fail is next in both texts or in neither. -/
theorem GainsReturns.next_cases (h : GainsReturns bytes other) {test : UInt8 → Bool}
    (htest : test 0x0A = false ∧ test 0x0D = false) :
    (∃ b rest more, bytes = b :: rest ∧ other = b :: more ∧ test b = true ∧
        GainsReturns rest more) ∨
      (bytes = [] ∧ other = []) ∨
      ∃ b c rest more, bytes = b :: rest ∧ other = c :: more ∧ test b = false ∧ test c = false := by
  cases h with
  | nil => exact .inr (.inl ⟨rfl, rfl⟩)
  | @keep b rest more _ hrest =>
      cases hb : test b with
      | true => exact .inl ⟨b, rest, more, rfl, rfl, hb, hrest⟩
      | false => exact .inr (.inr ⟨b, b, rest, more, rfl, rfl, hb, hb⟩)
  | gain => exact .inr (.inr ⟨_, _, _, _, rfl, rfl, htest.1, htest.2⟩)

/-- A decoder takes the same step on both texts, and what is left of them is related again. -/
def StepsAlike (step next : Utf8Step) (bytes other : List UInt8) : Prop :=
  step = next ∧ GainsReturns (bytes.drop (step.length - 1)) (other.drop (step.length - 1))

theorem GainsReturns.stepThree_alike (h : GainsReturns bytes other) (a : UInt8) :
    StepsAlike (stepThree a bytes) (stepThree a other) bytes other := by
  obtain ⟨b, rest, more, rfl, rfl, hb, hrest⟩ | ⟨rfl, rfl⟩ | ⟨b, c, rest, more, rfl, rfl, hb, hc⟩ :=
    h.next_cases (mayFollow_lineEnd a)
  · obtain ⟨c, rest, more, rfl, rfl, hc, hmore⟩ | ⟨rfl, rfl⟩ | ⟨c, d, rest, more, rfl, rfl, hc, hd⟩ :=
      hrest.next_cases isContinuation_lineEnd
    · simpa [StepsAlike, stepThree, hb, hc, Utf8Step.length] using hmore
    · simpa [StepsAlike, stepThree, hb, Utf8Step.length] using hrest
    · simpa [StepsAlike, stepThree, hb, hc, hd, Utf8Step.length] using hrest
  · simpa [StepsAlike, stepThree, Utf8Step.length] using h
  · simpa [StepsAlike, stepThree, hb, hc, Utf8Step.length] using h

theorem GainsReturns.stepFour_alike (h : GainsReturns bytes other) (a : UInt8) :
    StepsAlike (stepFour a bytes) (stepFour a other) bytes other := by
  obtain ⟨b, rest, more, rfl, rfl, hb, hrest⟩ | ⟨rfl, rfl⟩ | ⟨b, c, rest, more, rfl, rfl, hb, hc⟩ :=
    h.next_cases (mayFollow_lineEnd a)
  · obtain ⟨c, rest, more, rfl, rfl, hc, hmore⟩ | ⟨rfl, rfl⟩ | ⟨c, d, rest, more, rfl, rfl, hc, hd⟩ :=
      hrest.next_cases isContinuation_lineEnd
    · obtain ⟨d, rest, more, rfl, rfl, hd, hlast⟩ | ⟨rfl, rfl⟩ |
          ⟨d, e, rest, more, rfl, rfl, hd, he⟩ :=
        hmore.next_cases isContinuation_lineEnd
      · simpa [StepsAlike, stepFour, hb, hc, hd, Utf8Step.length] using hlast
      · simpa [StepsAlike, stepFour, hb, hc, Utf8Step.length] using hmore
      · simpa [StepsAlike, stepFour, hb, hc, hd, he, Utf8Step.length] using hmore
    · simpa [StepsAlike, stepFour, hb, Utf8Step.length] using hrest
    · simpa [StepsAlike, stepFour, hb, hc, hd, Utf8Step.length] using hrest
  · simpa [StepsAlike, stepFour, Utf8Step.length] using h
  · simpa [StepsAlike, stepFour, hb, hc, Utf8Step.length] using h

/-- Behind the same byte, the decoder takes the same step. -/
theorem GainsReturns.utf8Step_alike (h : GainsReturns bytes other) (a : UInt8) :
    StepsAlike (utf8Step a bytes) (utf8Step a other) bytes other := by
  unfold utf8Step
  split
  · exact ⟨rfl, h⟩
  · obtain ⟨b, rest, more, rfl, rfl, hb, hrest⟩ | ⟨rfl, rfl⟩ |
        ⟨b, c, rest, more, rfl, rfl, hb, hc⟩ :=
      h.next_cases isContinuation_lineEnd
    · simpa [StepsAlike, hb, Utf8Step.length] using hrest
    · exact ⟨rfl, h⟩
    · simpa [StepsAlike, hb, hc, Utf8Step.length] using h
  · exact h.stepThree_alike a
  · exact h.stepFour_alike a
  · exact ⟨rfl, h⟩

end

/-! ### Decoded texts -/

/-- What a step adds to the text. -/
def Utf8Step.shown : Utf8Step → Char
  | .char c _ => c
  | .flawed _ _ => '\ufffd'

theorem decodeLossyFrom_eq (done : List Char) (bytes : List UInt8) :
    decodeLossyFrom done bytes = done.reverse ++ decodeLossy bytes := by
  have hfrom : ∀ done more : List Char,
      decodeLossyFrom (done ++ more) bytes = more.reverse ++ decodeLossyFrom done bytes := by
    intro done more
    fun_induction decodeLossyFrom done bytes with
    | case1 done => simp [decodeLossyFrom]
    | case2 done a rest c n hstep ih => rw [decodeLossyFrom, hstep]; exact ih
    | case3 done a rest flaw n hstep ih => rw [decodeLossyFrom, hstep]; exact ih
  exact hfrom [] done

theorem decodeLossy_cons (a : UInt8) (rest : List UInt8) :
    decodeLossy (a :: rest) =
      (utf8Step a rest).shown :: decodeLossy (rest.drop ((utf8Step a rest).length - 1)) := by
  rw [decodeLossy, decodeLossyFrom]
  split
  · next hstep => rw [decodeLossyFrom_eq, hstep]; rfl
  · next hstep => rw [decodeLossyFrom_eq, hstep]; rfl

theorem unifyLineEndsFrom_eq (done cs : List Char) :
    unifyLineEndsFrom done cs = done.reverse ++ unifyLineEnds cs := by
  have hfrom : ∀ done more : List Char,
      unifyLineEndsFrom (done ++ more) cs = more.reverse ++ unifyLineEndsFrom done cs := by
    intro done more
    fun_induction unifyLineEndsFrom done cs with
    | case1 done => simp [unifyLineEndsFrom]
    | case2 done rest ih => exact ih
    | case3 done rest hpair ih =>
        rw [unifyLineEndsFrom]
        · exact ih
        · exact hpair
    | case4 done c rest hpair hreturn ih =>
        rw [unifyLineEndsFrom]
        · exact ih
        · exact hpair
        · exact hreturn
  exact hfrom [] done

theorem unifyLineEnds_returnFeed (cs : List Char) :
    unifyLineEnds ('\r' :: '\n' :: cs) = '\n' :: unifyLineEnds cs :=
  unifyLineEndsFrom_eq ['\n'] cs

theorem unifyLineEnds_cons {c : Char} (hc : c ≠ '\r') (cs : List Char) :
    unifyLineEnds (c :: cs) = c :: unifyLineEnds cs := by
  have hstep : unifyLineEnds (c :: cs) = unifyLineEndsFrom [c] cs := by
    rw [unifyLineEnds, unifyLineEndsFrom]
    · exact fun _ hreturn => absurd hreturn hc
    · exact hc
  rw [hstep, unifyLineEndsFrom_eq]
  rfl

/-- Only the byte of a carriage return is decoded as one. -/
theorem shown_utf8Step_ne_return {a : UInt8} (ha : a ≠ 0x0D) (rest : List UInt8) :
    (utf8Step a rest).shown ≠ '\r' := by
  cases hstep : utf8Step a rest with
  | flawed flaw n => exact (by decide : '\ufffd' ≠ '\r')
  | char c n =>
      rintro rfl
      have hbytes := encode_append_of_utf8Step hstep
      have hreturn : String.utf8EncodeChar '\r' = [0x0D] := by decide
      rw [hreturn] at hbytes
      exact ha (List.cons.inj hbytes).1

/-- What was decoded differs in carriage returns before line feeds only. -/
theorem GainsReturns.unifyLineEnds_eq {bytes other : List UInt8} (h : GainsReturns bytes other) :
    unifyLineEnds (decodeLossy bytes) = unifyLineEnds (decodeLossy other) := by
  -- a step may take several bytes, so the induction is on their number
  induction hlength : bytes.length using Nat.strongRecOn generalizing bytes other with
  | ind length ih =>
      cases h with
      | nil => rfl
      | @keep b bytes other hb rest =>
          obtain ⟨hstep, hdrop⟩ := rest.utf8Step_alike b
          have hne := shown_utf8Step_ne_return hb bytes
          have hshorter : (bytes.drop ((utf8Step b bytes).length - 1)).length < length := by
            rw [← hlength, List.length_drop, List.length_cons]
            omega
          rw [decodeLossy_cons, decodeLossy_cons, ← hstep, unifyLineEnds_cons hne,
            unifyLineEnds_cons hne, ih _ hshorter hdrop rfl]
      | @gain bytes other rest =>
          have hbefore : decodeLossy (0x0A :: bytes) = '\n' :: decodeLossy bytes :=
            decodeLossy_cons _ _
          have hafter : decodeLossy (0x0D :: 0x0A :: other) = '\r' :: '\n' :: decodeLossy other :=
            (decodeLossy_cons _ _).trans (congrArg _ (decodeLossy_cons _ _))
          rw [hbefore, hafter, unifyLineEnds_returnFeed, unifyLineEnds_cons (by decide),
            ih bytes.length (by simp [← hlength]) rest rfl]

end Text

/-- The contents of a file are the same, or they gain carriage returns. -/
def MayGainReturns (bytes other : List UInt8) : Prop :=
  bytes = other ∨ Text.GainsReturns bytes other

theorem MayGainReturns.scriptText_eq {bytes other : List UInt8} (h : MayGainReturns bytes other) :
    FileTree.scriptText bytes = FileTree.scriptText other := by
  obtain rfl | h := h
  · rfl
  · exact congrArg String.ofList h.unifyLineEnds_eq

/-! ## Trees -/

variable {related : String → List UInt8 → List UInt8 → Prop}

/-- Two items below a directory stand in the same place, and they are the same kind of thing. -/
def ItemsMatch (related : String → List UInt8 → List UInt8 → Prop)
    (item other : List String × FileNode) : Prop :=
  item.1 = other.1 ∧ ∃ name, FileNode.Matches related name item.2 other.2

namespace FileNode

mutual

/-- Below nodes that match there are the same items. -/
theorem Matches.items {name : String} {node other : FileNode} (h : Matches related name node other) :
    List.Forall₂ (ItemsMatch related) node.items other.items := by
  cases h with
  | file => exact .nil
  | directory inside =>
      rw [FileNode.items, FileNode.items]
      exact inside.itemsIn

theorem EntriesMatch.itemsIn {entries others : List (String × FileNode)}
    (h : EntriesMatch related entries others) :
    List.Forall₂ (ItemsMatch related) (itemsIn entries) (itemsIn others) := by
  cases h with
  | nil => exact .nil
  | @cons name node other entries others head tail =>
      rw [EditionSurvey.itemsIn, EditionSurvey.itemsIn, itemsAt, itemsAt]
      refine List.rel_append (.cons ⟨rfl, name, head⟩ ?_) tail.itemsIn
      refine List.rel_map (fun item more hitem => ?_) head.items
      exact ⟨congrArg (name :: ·) hitem.1, hitem.2⟩

end

end FileNode

namespace FileTree

theorem isListed_eq {item other : List String × FileNode} (h : ItemsMatch related item other)
    (directory : Path) : isListed directory item = isListed directory other := by
  obtain ⟨components, node⟩ := item
  obtain ⟨_, next⟩ := other
  obtain ⟨rfl, name, hnode⟩ := h
  cases hnode <;> rfl

/-- Of the items below a directory, the same ones are listed. -/
theorem listed_eq {items others : List (List String × FileNode)}
    (h : List.Forall₂ (ItemsMatch related) items others) (directory : Path) :
    items.map Prod.fst = others.map Prod.fst ∧
      (items.filter (isListed directory)).map Prod.fst =
        (others.filter (isListed directory)).map Prod.fst := by
  induction h with
  | nil => exact ⟨rfl, rfl⟩
  | @cons item other items others hitem _ ih =>
      obtain ⟨hnames, hlisted⟩ := ih
      refine ⟨by rw [List.map_cons, List.map_cons, hitem.1, hnames], ?_⟩
      rw [List.filter_cons, List.filter_cons, isListed_eq hitem directory]
      split
      · rw [List.map_cons, List.map_cons, hitem.1, hlisted]
      · exact hlisted

variable {first second : FileTree}

/-- In trees of one shape there are the same scripts below a directory. -/
theorem scriptsBelow_eq (h : Matches related first second) :
    first.scriptsBelow = second.scriptsBelow := by
  funext directory
  have hfind := find_alike h directory
  unfold scriptsBelow
  rw [isDirectory_eq h]
  refine congrArg (second.isDirectory directory >>= ·) (funext fun found => ?_)
  split
  · revert hfind
    generalize first.find directory = answer
    generalize second.find directory = other
    rintro (hnode | fault)
    · obtain ⟨hnames, hlisted⟩ := listed_eq hnode.items directory
      have hoverlong : ∀ items : List (List String × FileNode),
          (items.any fun item => isOverlong directory item.1) =
            (items.map Prod.fst).any (isOverlong directory) := fun items => by
        rw [List.any_map]
        rfl
      simp only [bind, Except.bind, hoverlong, hnames, hlisted]
    · rfl
  · rfl

/-- Trees of one shape whose scripts read alike: the same text is read at every path. -/
theorem readScript_eq_of_matches (h : Matches (fun _ => MayGainReturns) first second) :
    first.readScript = second.readScript := by
  funext path
  have hread := read_alike h path
  unfold readScript
  revert hread
  generalize first.read path = found
  generalize second.read path = other
  rintro (⟨hbytes | failure⟩ | fault)
  · simp only [hbytes.scriptText_eq]
  · rfl
  · rfl

/-- The manifests of two trees are the same. -/
def SameManifests (first second : FileTree) : Prop :=
  Matches (fun name bytes other => name = manifestName → bytes = other) first second

theorem SameManifests.manifestAt_eq (h : SameManifests first second) (directory : Path) :
    first.manifestAt directory = second.manifestAt directory := by
  have hread := read_alike h (directory.child manifestName)
  have hname : first.lastName (directory.child manifestName) = manifestName := by
    rw [first.lastName_of_proper (Path.proper_child _ _)]
    simp [Path.name, Path.child]
  unfold manifestAt
  revert hread
  generalize first.read (directory.child manifestName) = found
  generalize second.read (directory.child manifestName) = other
  rintro (⟨hbytes | failure⟩ | fault)
  · rw [hbytes hname]
  · rfl
  · rfl

theorem SameManifests.dependencyNames_eq (h : SameManifests first second) :
    first.dependencyNames = second.dependencyNames := by
  have hequal : first.top.contentsNamed manifestName = second.top.contentsNamed manifestName :=
    List.forall₂_eq_eq_eq ▸ h.top.contentsNamed.imp fun _ _ hsame => hsame rfl
  rw [dependencyNames, dependencyNames, hequal]

/-- Trees of which one has more carriage returns in its scripts agree. -/
theorem agree_of_returns (h : Matches (fun _ => MayGainReturns) first second)
    (hmanifests : SameManifests first second) : Agree first second where
  isFile := isFile_eq h
  isDirectory := isDirectory_eq h
  resolve := resolve_eq h
  manifestAt directory := by
    rw [hmanifests.manifestAt_eq directory]
    exact .refl (Alike.refl Manifest.Equivalent.refl) _
  readScript path _ _ := by rw [readScript_eq_of_matches h]
  dependencyNames := hmanifests.dependencyNames_eq

end FileTree

/-! ## Surveys -/

namespace Survey

/-- The survey of a target looks at the texts of scripts, and at what there is below the target. -/
theorem checkTargets_eq {first second : FileTree} (hread : first.readScript = second.readScript)
    (hdirectory : first.isDirectory = second.isDirectory)
    (hbelow : first.scriptsBelow = second.scriptsBelow) (options : Options) (target : Path) :
    checkTargets first options target = checkTargets second options target := by
  have hclassify : (first.survey options).classify = (second.survey options).classify := by
    funext name entry depth
    exact classify_eq_of_readScript name (fun path _ _ => congrFun hread path) depth
  have hscripts : ∀ directory scripts, (first.survey options).checkScripts directory scripts =
      (second.survey options).checkScripts directory scripts := by
    intro directory scripts
    induction scripts with
    | nil => rfl
    | cons script rest ih => rw [checkScripts, checkScripts, hclassify, ih]
  unfold checkTargets
  simp only [hdirectory, hbelow, hclassify, hscripts]

/-- Where files of a tree have no carriage returns and gain some before line feeds, every file reads
as the same text.  If no manifest is among them, surveys of packages and of targets do exactly the
same: they end in the same way, with the same verdicts for the same reasons, and print and log the
same in between. -/
theorem check_of_returns {first second : FileTree}
    (h : FileTree.Matches (fun _ => MayGainReturns) first second) :
    (∀ path, first.readScript path = second.readScript path) ∧
      (FileTree.SameManifests first second → ∀ options,
        (checkPackage first options).outcome = (checkPackage second options).outcome ∧
          ∀ target, (checkTargets first options target).outcome =
            (checkTargets second options target).outcome) := by
  have hread := FileTree.readScript_eq_of_matches h
  refine ⟨fun path => congrFun hread path, fun hmanifests options => ⟨?_, fun target => ?_⟩⟩
  · exact (checkPackage_agreed (FileTree.agree_of_returns h hmanifests)).on_eq {}
  · rw [checkTargets_eq hread (FileTree.isDirectory_eq h) (FileTree.scriptsBelow_eq h)]

/-- A tree with one script. -/
def treeWithScript (bytes : List UInt8) : FileTree where
  top := .directory [("index.js", .file bytes)]

/-- A script with the start of a character before a line end, and a fault behind it. -/
def cutScript : List UInt8 := [0x2F, 0x2F, 0xE2, 0x82, 0x0A, 0x0A, 0x29]

/-- The same script with a carriage return in the first line end. -/
def returnedScript : List UInt8 := [0x2F, 0x2F, 0xE2, 0x82, 0x0D, 0x0A, 0x0A, 0x29]

/-- The fault is found in the same place of both scripts. -/
theorem check_cutScript_of_returns :
    FileTree.Matches (fun _ => MayGainReturns) (treeWithScript cutScript)
        (treeWithScript returnedScript) ∧
      FileTree.SameManifests (treeWithScript cutScript) (treeWithScript returnedScript) ∧
      (checkPackage (treeWithScript cutScript) {}).outcome =
        (checkPackage (treeWithScript returnedScript) {}).outcome ∧
      (checkPackage (treeWithScript returnedScript) {}).outcome.2.store.entries.map Prod.snd =
        [.incompatible (some ⟨"Line 3: Unexpected token )", some 3, some 1⟩)] := by
  have hgain : Text.GainsReturns cutScript returnedScript :=
    .keep (by decide) (.keep (by decide) (.keep (by decide) (.keep (by decide)
      (.gain (.keep (by decide) (.keep (by decide) .nil))))))
  have hmatches : FileTree.Matches (fun _ => MayGainReturns) (treeWithScript cutScript)
      (treeWithScript returnedScript) :=
    ⟨.directory (.cons (.file (.inr hgain)) .nil), rfl⟩
  have hmanifests :
      FileTree.SameManifests (treeWithScript cutScript) (treeWithScript returnedScript) :=
    ⟨.directory (.cons (.file fun hname => absurd hname (by decide)) .nil), rfl⟩
  exact ⟨hmatches, hmanifests, ((check_of_returns hmatches).2 hmanifests {}).1, by decide +kernel⟩

end Survey

end EditionSurvey
