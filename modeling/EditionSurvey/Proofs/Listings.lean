/-
  Proofs/Listings.lean --- the plain listings can be read back.

  A listing and a Markdown document are lines.  Names stand in them as they are, and a name may be
  a heading, an item of another list or the sentence for an empty one.  What it cannot do is to
  begin a line: on every line of a package there is a mark before the name.  In a listing the mark
  tells the state; in a document it is the same for all lists, and the last heading tells the
  state.  So the lists are read back line by line (`readListing_listing`, `readMarkdown_markdown`),
  and two reports that are printed alike list the same packages (`lists_of_printed_alike`).
-/
import EditionSurvey.Proofs.Unstyled
import EditionSurvey.Report.Listing
import EditionSurvey.Report.Markdown

set_option autoImplicit false

namespace EditionSurvey

/-! ## Lines -/

/-- A text without line feeds. -/
def IsLine (text : String) : Prop := '\n' ∉ text.toList

instance (text : String) : Decidable (IsLine text) := inferInstanceAs (Decidable (_ ∉ _))

theorem IsLine.append {s t : String} (hs : IsLine s) (ht : IsLine t) : IsLine (s ++ t) := by
  unfold IsLine
  rw [String.toList_append]
  exact fun hmem => (List.mem_append.mp hmem).elim hs ht

theorem isLine_toString (n : Int) : IsLine (toString n) := not_mem_toString (by decide) n

theorem isLine_toString_nat (n : Nat) : IsLine (toString n) := isLine_toString n

theorem isLine_label (edition : Int) : IsLine (label edition) :=
  .append (s := "ES") (by decide) (isLine_toString _)

/-- The lines of a text. -/
def linesOf (text : String) : List String := (text.toList.splitOn '\n').map String.ofList

theorem linesOf_intercalate {lines : List String} (hne : lines ≠ [])
    (hlines : ∀ line ∈ lines, IsLine line) : linesOf ("\n".intercalate lines) = lines := by
  rw [linesOf, Text.splitOn_toList_intercalate rfl hne hlines, List.map_map]
  simp [Function.comp_def]

/-- Blocks of lines, joined like lines, are their lines joined. -/
theorem intercalate_blocks {blocks : List (List String)} (hne : ∀ block ∈ blocks, block ≠ []) :
    "\n".intercalate (blocks.map "\n".intercalate) = "\n".intercalate blocks.flatten := by
  induction blocks with
  | nil => rfl
  | cons block rest ih =>
      obtain ⟨hblock, hrest⟩ := List.forall_mem_cons.mp hne
      cases rest with
      | nil => simp
      | cons next rest =>
          have hnext : (next :: rest).flatten ≠ [] := by
            have := hrest next List.mem_cons_self
            simp [this]
          rw [List.map_cons, String.intercalate_cons_of_ne_nil (by simp), ih hrest,
            List.flatten_cons (l := block),
            String.intercalate_append_of_ne_nil hblock hnext]

/-- What stands behind a mark at the beginning of a line. -/
def behind? (mark line : String) : Option String :=
  (mark.toList.isPrefixOf? line.toList).map String.ofList

@[simp] theorem behind?_append (mark text : String) : behind? mark (mark ++ text) = some text := by
  rw [behind?, String.toList_append, List.isPrefixOf?_eq_some_iff_append_eq.mpr rfl, Option.map_some,
    String.ofList_toList]

/-- A line that begins otherwise does not have the mark. -/
theorem behind?_eq_none {mark start : String}
    (h : ¬ mark.toList <+: start.toList ∧ ¬ start.toList <+: mark.toList) (rest : String) :
    behind? mark (start ++ rest) = none := by
  rw [behind?, Option.map_eq_none_iff, String.toList_append]
  refine Option.eq_none_iff_forall_ne_some.mpr fun text hsome => ?_
  have hmark := List.prefix_iff_exists_append_eq.mpr
    ⟨text, List.isPrefixOf?_eq_some_iff_append_eq.mp hsome⟩
  exact (List.prefix_or_prefix_of_prefix hmark (List.prefix_append _ _)).elim h.1 h.2

namespace Report

/-- The names of a report are lines. -/
def NamesAreLines (report : Report) : Prop := ∀ name ∈ report.names, IsLine name

instance (report : Report) : Decidable report.NamesAreLines :=
  List.decidableBAll IsLine report.names

theorem NamesAreLines.listed {report : Report} (h : report.NamesAreLines) (state : PackageState) :
    ∀ name ∈ report.listed state, IsLine name := fun name hname =>
  h name (List.mem_flatMap.mpr ⟨state, by cases state <;> simp [PackageState.all], hname⟩)

/-! ## Listings -/

/-- The package that a line of a listing is on, if it has the mark of the state. -/
def packageOn? (state : PackageState) (line : String) : Option String :=
  behind? (listingLine state "") line

/-- The packages that a listing has for a state. -/
def readListing (state : PackageState) (text : String) : List String :=
  (linesOf text).filterMap (packageOn? state)

theorem listingLine_eq (state : PackageState) (name : String) :
    listingLine state name = listingLine state "" ++ name := by
  simp only [listingLine, ToString.toString, String.append_empty]

theorem isLine_listingLine {name : String} (h : IsLine name) (state : PackageState) :
    IsLine (listingLine state name) := by
  rw [listingLine_eq]
  exact .append (by cases state <;> decide) h

theorem packageOn?_listingLine (state other : PackageState) (name : String) :
    packageOn? state (listingLine other name) = if other = state then some name else none := by
  rw [packageOn?, listingLine_eq other]
  split
  · next heq => rw [heq, behind?_append]
  · next hne =>
      refine behind?_eq_none ?_ name
      revert hne
      cases state <;> cases other <;> decide

theorem filterMap_listingLine (state other : PackageState) (names : List String) :
    (names.map (listingLine other)).filterMap (packageOn? state) =
      if other = state then names else [] := by
  rw [List.filterMap_map]
  simp only [Function.comp_def, packageOn?_listingLine]
  split <;> simp

/-- The packages on the lines of a part are those of the part, if its mark is looked for. -/
theorem filterMap_listingPart {state : PackageState} {title : String}
    (htitle : packageOn? state title = none) (other : PackageState) (names : List String) :
    (listingPart title other names).filterMap (packageOn? state) =
      if other = state then names else [] := by
  unfold listingPart
  cases names with
  | nil => simp
  | cons name names =>
      rw [if_neg (by simp), List.filterMap_cons_none htitle, filterMap_listingLine]

theorem offenderText_false (offender : Offender) : offenderText false offender = offender.name := by
  unfold offenderText
  cases offender.diagnostic <;> rfl

/-- Without reasons, packages that do not conform are listed like the others. -/
theorem offenderPart_false (offenders : List Offender) :
    offenderPart false offenders =
      if offenders.isEmpty then ["No incompatible packages."]
      else listingPart "All incompatible packages are: " .incompatible
        (offenders.map Offender.name) := by
  cases offenders with
  | nil => rfl
  | cons offender offenders => simp [offenderPart, listingPart, offenderText_false]

theorem filterMap_offenderPart (state : PackageState) (offenders : List Offender) :
    (offenderPart false offenders).filterMap (packageOn? state) =
      if PackageState.incompatible = state then offenders.map Offender.name else [] := by
  rw [offenderPart_false]
  split
  · next hnone =>
      rw [List.isEmpty_iff.mp hnone]
      cases state <;> rfl
  · exact filterMap_listingPart (by cases state <;> rfl) _ _

theorem isLine_listingPart {title : String} (htitle : IsLine title) (state : PackageState)
    {names : List String} (hnames : ∀ name ∈ names, IsLine name) :
    ∀ line ∈ listingPart title state names, IsLine line := by
  unfold listingPart
  split
  · simp
  · refine List.forall_mem_cons.mpr ⟨htitle, fun line hline => ?_⟩
    obtain ⟨name, hname, rfl⟩ := List.mem_map.mp hline
    exact isLine_listingLine (hnames name hname) state

theorem isLine_offenderPart {offenders : List Offender}
    (hnames : ∀ name ∈ offenders.map Offender.name, IsLine name) :
    ∀ line ∈ offenderPart false offenders, IsLine line := by
  rw [offenderPart_false]
  split
  · rw [List.forall_mem_singleton]
    decide
  · exact isLine_listingPart (by decide) _ hnames

theorem isLine_listingLines {report : Report} (h : report.NamesAreLines) :
    ∀ line ∈ report.listingLines false, IsLine line := by
  unfold listingLines
  simp only [List.forall_mem_append, List.forall_mem_cons]
  refine ⟨⟨⟨⟨by decide, fun line hline => ?_⟩, ?_⟩, ?_⟩, ?_⟩
  · obtain ⟨name, hname, rfl⟩ := List.mem_map.mp hline
    exact isLine_listingLine (h.listed .compatible name hname) .compatible
  · exact isLine_listingPart (by decide) _ (h.listed .nonSource)
  · exact isLine_offenderPart (h.listed .incompatible)
  · exact isLine_listingPart (by decide) _ (h.listed .unreadable)

/-- A listing is read back, whatever the names are. -/
theorem readListing_listing {report : Report} (h : report.NamesAreLines) (state : PackageState) :
    readListing state (report.listing false) = report.listed state := by
  have hlines : linesOf (report.listing false) = report.listingLines false :=
    linesOf_intercalate (by simp [listingLines]) (isLine_listingLines h)
  have htitles : ∀ title ∈ ["All compatible packages are: ", "All non-script packages are: ",
      "Packages that could not be checked: "], packageOn? state title = none := by
    cases state <;> decide +kernel
  obtain ⟨hcompatible, hscript, hchecked, -⟩ : _ ∧ _ ∧ _ ∧ _ := by
    simpa only [List.forall_mem_cons] using htitles
  rw [readListing, hlines, listingLines, List.filterMap_append, List.filterMap_append,
    List.filterMap_append, List.filterMap_cons_none hcompatible, filterMap_listingLine,
    filterMap_listingPart hscript, filterMap_offenderPart, filterMap_listingPart hchecked]
  cases state <;> simp [listed]

/-! ## Markdown documents -/

/-- The line of a package in a section. -/
def itemLine (name : String) : String := s!"- `{name}`"

/-- The title of a line that is a heading. -/
def titleOn? (line : String) : Option String := behind? "## " line

/-- The package of a line that is an item. -/
def itemOn? (line : String) : Option String :=
  (behind? "- `" line).map fun text => String.ofList text.toList.dropLast

/-- The items below a heading; `inside` tells whether the lines follow it. -/
def itemsBelow (heading : String) : Bool → List String → List String
  | _, [] => []
  | inside, line :: rest =>
      match titleOn? line with
      | some title => itemsBelow heading (title = heading) rest
      | none =>
          if inside then (itemOn? line).toList ++ itemsBelow heading inside rest
          else itemsBelow heading inside rest

/-- The heading of the packages with a state. -/
def headingOf : PackageState → String
  | .compatible => "Compatible Packages"
  | .incompatible => "Incompatible Packages"
  | .nonSource => "Non-script Packages"
  | .unreadable => "Unreadable Packages"

/-- The packages that a document has for a state. -/
def readMarkdown (state : PackageState) (text : String) : List String :=
  itemsBelow (headingOf state) false (linesOf text)

theorem titleOn?_itemLine (name : String) : titleOn? (itemLine name) = none := by
  have hline : itemLine name = "- `" ++ (name ++ "`") := String.append_assoc
  rw [hline]
  exact behind?_eq_none (by decide) _

theorem itemOn?_itemLine (name : String) : itemOn? (itemLine name) = some name := by
  have hline : itemLine name = "- `" ++ (name ++ "`") := String.append_assoc
  rw [hline, itemOn?, behind?_append, Option.map_some, String.toList_append]
  simp

/-- The lines hold these items below a heading, whatever stands before and behind them. -/
def Holds (heading : String) (lines names : List String) : Prop :=
  ∀ inside rest, ∃ later,
    itemsBelow heading inside (lines ++ rest) = names ++ itemsBelow heading later rest

section Holds

variable {heading : String} {lines others names more : List String}

theorem Holds.append (h : Holds heading lines names) (hothers : Holds heading others more) :
    Holds heading (lines ++ others) (names ++ more) := by
  intro inside rest
  obtain ⟨mid, hmid⟩ := h inside (others ++ rest)
  obtain ⟨later, hlater⟩ := hothers mid rest
  exact ⟨later, by rw [List.append_assoc, hmid, hlater, List.append_assoc]⟩

/-- Lines that are neither headings nor items hold nothing. -/
theorem holds_plain (hplain : ∀ line ∈ lines, titleOn? line = none ∧ itemOn? line = none) :
    Holds heading lines [] := by
  intro inside rest
  refine ⟨inside, ?_⟩
  induction lines with
  | nil => rfl
  | cons line lines ih =>
      obtain ⟨⟨htitle, hitem⟩, hplain⟩ := List.forall_mem_cons.mp hplain
      rw [List.cons_append, itemsBelow, htitle, hitem]
      simpa using ih hplain

theorem itemsBelow_items (names rest : List String) (inside : Bool) :
    itemsBelow heading inside (names.map itemLine ++ rest) =
      (if inside then names else []) ++ itemsBelow heading inside rest := by
  induction names with
  | nil => cases inside <;> rfl
  | cons name names ih =>
      rw [List.map_cons, List.cons_append, itemsBelow, titleOn?_itemLine, itemOn?_itemLine]
      cases inside <;> simpa using ih

/-- The lines of a section. -/
def sectionLines (title : String) (names : List String) : List String :=
  ["## " ++ title, ""] ++ names.map itemLine ++ [""]

theorem holds_section (title : String) (names : List String) :
    Holds heading (sectionLines title names) (if title = heading then names else []) := by
  intro inside rest
  refine ⟨title = heading, ?_⟩
  have hblank : titleOn? "" = none ∧ itemOn? "" = none := by decide
  have hheading : titleOn? ("## " ++ title) = some title := behind?_append _ _
  simp only [sectionLines, List.cons_append, List.nil_append, List.append_assoc]
  rw [itemsBelow, hheading]
  simp only [itemsBelow, hblank.1, hblank.2, itemsBelow_items]
  by_cases htitle : title = heading <;> simp [htitle]

end Holds

/-- Chunks of a document are these lines. -/
def AreLines (chunks lines : List String) : Prop :=
  ∃ blocks : List (List String), chunks = blocks.map "\n".intercalate ∧
    (∀ block ∈ blocks, block ≠ []) ∧ (∀ line ∈ blocks.flatten, IsLine line) ∧
      blocks.flatten = lines

section AreLines

variable {chunks others lines more : List String}

theorem AreLines.append (h : AreLines chunks lines) (hothers : AreLines others more) :
    AreLines (chunks ++ others) (lines ++ more) := by
  obtain ⟨blocks, rfl, hne, hlines, rfl⟩ := h
  obtain ⟨others, rfl, hne', hlines', rfl⟩ := hothers
  refine ⟨blocks ++ others, List.map_append.symm, List.forall_mem_append.mpr ⟨hne, hne'⟩, ?_,
    List.flatten_append⟩
  rw [List.flatten_append]
  exact List.forall_mem_append.mpr ⟨hlines, hlines'⟩

theorem AreLines.nil : AreLines [] [] := ⟨[], rfl, by simp, by simp, rfl⟩

theorem AreLines.single (hne : lines ≠ []) (hlines : ∀ line ∈ lines, IsLine line) :
    AreLines ["\n".intercalate lines] lines :=
  ⟨[lines], rfl, by simpa using hne, by simpa using hlines, by simp⟩

/-- A document is the lines of its chunks. -/
theorem AreLines.linesOf_eq (h : AreLines chunks lines) (hne : chunks ≠ []) :
    linesOf ("\n".intercalate chunks) = lines := by
  obtain ⟨blocks, rfl, hblocks, hlines, rfl⟩ := h
  have hsome : blocks.flatten ≠ [] := by
    cases blocks with
    | nil => exact absurd rfl hne
    | cons block blocks => simp [hblocks block List.mem_cons_self]
  rw [intercalate_blocks hblocks, linesOf_intercalate hsome hlines]

end AreLines

/-- Chunks of a document are lines, which hold these items below a heading. -/
def ReadsAs (heading : String) (chunks names : List String) : Prop :=
  ∃ blocks : List (List String), chunks = blocks.map "\n".intercalate ∧
    (∀ block ∈ blocks, block ≠ []) ∧ (∀ line ∈ blocks.flatten, IsLine line) ∧
      Holds heading blocks.flatten names

section ReadsAs

variable {heading : String} {chunks others names more : List String}

theorem ReadsAs.append (h : ReadsAs heading chunks names) (hothers : ReadsAs heading others more) :
    ReadsAs heading (chunks ++ others) (names ++ more) := by
  obtain ⟨blocks, rfl, hne, hlines, hholds⟩ := h
  obtain ⟨others, rfl, hne', hlines', hholds'⟩ := hothers
  refine ⟨blocks ++ others, List.map_append.symm, List.forall_mem_append.mpr ⟨hne, hne'⟩, ?_, ?_⟩
  · rw [List.flatten_append]
    exact List.forall_mem_append.mpr ⟨hlines, hlines'⟩
  · rw [List.flatten_append]
    exact hholds.append hholds'

/-- Chunks that are lines are read like the lines. -/
theorem AreLines.readsAs {lines : List String} (h : AreLines chunks lines)
    (hholds : Holds heading lines names) : ReadsAs heading chunks names := by
  obtain ⟨blocks, hchunks, hne, hlines, rfl⟩ := h
  exact ⟨blocks, hchunks, hne, hlines, hholds⟩

/-- A document is read chunk by chunk. -/
theorem ReadsAs.itemsBelow_eq (h : ReadsAs heading chunks names) (hne : chunks ≠ []) :
    itemsBelow heading false (linesOf ("\n".intercalate chunks)) = names := by
  obtain ⟨blocks, hchunks, hblocks, hlines, hholds⟩ := h
  have harelines : AreLines chunks blocks.flatten := ⟨blocks, hchunks, hblocks, hlines, rfl⟩
  rw [harelines.linesOf_eq hne]
  obtain ⟨later, hlater⟩ := hholds false []
  simpa [itemsBelow] using hlater

end ReadsAs

theorem isLine_itemLine {name : String} (h : IsLine name) : IsLine (itemLine name) :=
  .append (.append (by decide) h) (by decide)

/-- The text of a section is its lines, joined. -/
theorem markdownSection_eq (title : String) {names : List String} (hne : names ≠ []) :
    markdownSection title names = "\n".intercalate (sectionLines title names) := by
  have htext : markdownSection title names =
      "## " ++ title ++ "\n\n" ++ "\n".intercalate (names.map itemLine) ++ "\n" := rfl
  rw [htext, sectionLines, String.intercalate_append_of_ne_nil (by simp) (by simp),
    String.intercalate_append_of_ne_nil (by simp) (by simpa using hne)]
  simp [String.append_assoc]

theorem areLines_markdownSection (title : String) (htitle : IsLine title) {names : List String}
    (hne : names ≠ []) (hnames : ∀ name ∈ names, IsLine name) :
    AreLines [markdownSection title names] (sectionLines title names) := by
  rw [markdownSection_eq title hne]
  refine .single (by simp [sectionLines]) ?_
  simp only [sectionLines, List.forall_mem_append, List.forall_mem_cons, List.forall_mem_map]
  exact ⟨⟨⟨.append (by decide) htitle, by decide, by simp⟩,
    fun name hname => isLine_itemLine (hnames name hname)⟩, by decide, by simp⟩

/-- The lines of a section, if there are names to list. -/
def sectionLines? (title : String) (names : List String) : List String :=
  if names.isEmpty then [] else sectionLines title names

theorem holds_section? {heading : String} (title : String) (names : List String) :
    Holds heading (sectionLines? title names) (if title = heading then names else []) := by
  unfold sectionLines?
  split
  · next hnone =>
      rw [List.isEmpty_iff.mp hnone, ite_self]
      exact holds_plain (by simp)
  · exact holds_section title names

theorem areLines_markdownSection? (title : String) (htitle : IsLine title) {names : List String}
    (hnames : ∀ name ∈ names, IsLine name) :
    AreLines (markdownSection? title names) (sectionLines? title names) := by
  unfold markdownSection? sectionLines?
  split
  · exact .nil
  · next hsome => exact areLines_markdownSection title htitle (by simpa using hsome) hnames

theorem readsAs_markdownSection? {heading : String} (title : String) (htitle : IsLine title)
    {names : List String} (hnames : ∀ name ∈ names, IsLine name) :
    ReadsAs heading (markdownSection? title names) (if title = heading then names else []) :=
  (areLines_markdownSection? title htitle hnames).readsAs (holds_section? title names)

/-- The lines of a document in which every package conforms. -/
theorem areLines_noOffenders :
    AreLines ["No incompatible packages.\n"] ["No incompatible packages.", ""] := by
  have htext : "No incompatible packages.\n" = "\n".intercalate ["No incompatible packages.", ""] :=
    rfl
  rw [htext]
  refine .single (by simp) ?_
  simp only [List.forall_mem_cons]
  decide

theorem readsAs_markdownOffenders {heading : String} {offenders : List Offender}
    (hnames : ∀ name ∈ offenders.map Offender.name, IsLine name) :
    ReadsAs heading (markdownOffenders offenders false)
      (if "Incompatible Packages" = heading then offenders.map Offender.name else []) := by
  unfold markdownOffenders
  split
  · next hnone =>
      have hplain : Holds heading ["No incompatible packages.", ""] [] :=
        holds_plain (by simp only [List.forall_mem_cons]; decide)
      simpa [List.isEmpty_iff.mp hnone] using areLines_noOffenders.readsAs hplain
  · next hsome =>
      exact (areLines_markdownSection _ (by decide) (by simpa using hsome) hnames).readsAs
        (holds_section _ _)

/-! ### The head of a document -/

theorem isLine_headline (report : Report) : IsLine report.headline := by
  have hlabel := isLine_label report.edition
  unfold headline
  dsimp only
  split
  · exact .append (.append (.append (.append (by decide) (isLine_toString_nat _)) (by decide)) hlabel)
      (by decide)
  · refine .append (.append (.append (.append (.append (isLine_toString_nat _) (by decide)) ?_)
      (by decide)) hlabel) (by decide)
    split <;> decide

/-- A line that begins like neither a heading nor an item. -/
theorem plain_of_start {start : String}
    (htitle : ¬ "## ".toList <+: start.toList ∧ ¬ start.toList <+: "## ".toList)
    (hitem : ¬ "- `".toList <+: start.toList ∧ ¬ start.toList <+: "- `".toList) (rest : String) :
    titleOn? (start ++ rest) = none ∧ itemOn? (start ++ rest) = none :=
  ⟨behind?_eq_none htitle rest, by rw [itemOn?, behind?_eq_none hitem, Option.map_none]⟩

/-- The lines of the title. -/
def titleLines (edition : Int) : List String :=
  ["# " ++ (label edition ++ " Compatibility Report"), ""]

theorem areLines_title (edition : Int) :
    AreLines [s!"# {label edition} Compatibility Report\n"] (titleLines edition) := by
  have htext : s!"# {label edition} Compatibility Report\n" =
      "\n".intercalate (titleLines edition) := by
    have hend : " Compatibility Report\n" = " Compatibility Report" ++ "\n" := rfl
    simp [titleLines, ToString.toString, hend, String.append_assoc]
  rw [htext]
  refine .single (by simp [titleLines]) ?_
  simp only [titleLines, List.forall_mem_cons]
  exact ⟨.append (by decide) (.append (isLine_label edition) (by decide)), by decide, by simp⟩

theorem readsAs_title (heading : String) (edition : Int) :
    ReadsAs heading [s!"# {label edition} Compatibility Report\n"] [] := by
  refine (areLines_title edition).readsAs (holds_plain ?_)
  simp only [titleLines, List.forall_mem_cons]
  exact ⟨plain_of_start (by decide) (by decide) _, by decide, by simp⟩

/-- The lines of the summary. -/
def summaryLines (report : Report) : List String :=
  ["- **Result**: " ++ ((if report.passed then "PASS" else "FAIL") ++ (". " ++ report.headline)),
    "- **Compatible**: " ++ toString report.compatible.length,
    "- **Non-script**: " ++ toString report.nonSource.length,
    "- **Incompatible**: " ++ toString report.incompatible.length,
    "- **Unreadable**: " ++ toString report.unreadable.length] ++ [""]

theorem areLines_summary (report : Report) :
    AreLines [report.markdownSummary] report.summaryLines := by
  have htext : report.markdownSummary = "\n".intercalate report.summaryLines := by
    rw [summaryLines, String.intercalate_append_of_ne_nil (by simp) (by simp)]
    simp [markdownSummary, ToString.toString, String.append_assoc]
  rw [htext]
  refine .single (by simp [summaryLines]) ?_
  simp only [summaryLines, List.forall_mem_append, List.forall_mem_cons]
  refine ⟨⟨.append (by decide) (.append ?_ (.append (by decide) (isLine_headline report))),
    .append (by decide) (isLine_toString_nat _), .append (by decide) (isLine_toString_nat _),
    .append (by decide) (isLine_toString_nat _), .append (by decide) (isLine_toString_nat _),
    by simp⟩, by decide, by simp⟩
  split <;> decide

theorem readsAs_summary (heading : String) (report : Report) :
    ReadsAs heading [report.markdownSummary] [] := by
  refine (areLines_summary report).readsAs (holds_plain ?_)
  simp only [summaryLines, List.forall_mem_append, List.forall_mem_cons]
  exact ⟨⟨plain_of_start (by decide) (by decide) _, plain_of_start (by decide) (by decide) _,
    plain_of_start (by decide) (by decide) _, plain_of_start (by decide) (by decide) _,
    plain_of_start (by decide) (by decide) _, by simp⟩, by decide, by simp⟩

/-- A document is read back, whatever the names are. -/
theorem readMarkdown_markdown {report : Report} (h : report.NamesAreLines) (state : PackageState) :
    readMarkdown state (report.markdown false) = report.listed state := by
  have hhead := (readsAs_title (headingOf state) report.edition).append
    (readsAs_summary (headingOf state) report)
  have hbody := ((hhead.append
    (readsAs_markdownSection? "Compatible Packages" (by decide) (h.listed .compatible))).append
    (readsAs_markdownSection? "Non-script Packages" (by decide) (h.listed .nonSource))).append
    (readsAs_markdownOffenders (h.listed .incompatible))
  have hall := hbody.append
    (readsAs_markdownSection? "Unreadable Packages" (by decide) (h.listed .unreadable))
  refine (hall.itemsBelow_eq (by simp)).trans ?_
  -- of the four headings one is looked for
  cases state <;> simp [listed, headingOf]

/-! ## Reports that are printed alike -/

/-- Two reports that are printed alike, as listings or as documents, list the same packages in
the same lists: no name can be taken for a heading, a mark or the name of another list. -/
theorem lists_of_printed_alike {first second : Report} (hfirst : first.NamesAreLines)
    (hsecond : second.NamesAreLines)
    (halike : first.listing false = second.listing false ∨
      first.markdown false = second.markdown false) :
    first.compatible = second.compatible ∧ first.nonSource = second.nonSource ∧
      first.unreadable = second.unreadable ∧
      first.incompatible.map Offender.name = second.incompatible.map Offender.name := by
  have hlisted : ∀ state, first.listed state = second.listed state := by
    intro state
    obtain hlisting | hmarkdown := halike
    · rw [← readListing_listing hfirst, hlisting, readListing_listing hsecond]
    · rw [← readMarkdown_markdown hfirst, hmarkdown, readMarkdown_markdown hsecond]
  exact ⟨hlisted .compatible, hlisted .nonSource, hlisted .unreadable, hlisted .incompatible⟩

/-- A report with names that look like a marked line, a title, an item or a heading. -/
def disguisedReport (edition : Int) (diagnostic : Option Diagnostic) : Report where
  edition := edition
  compatible := ["  ➖ a", "All non-script packages are: "]
  nonSource := ["No incompatible packages."]
  incompatible := [⟨"b`\r- `c", .incompatible, diagnostic⟩,
    ⟨"## Unreadable Packages", .incompatible, none⟩]
  unreadable := ["", "- `d`"]

/-- Reports of different editions, with and without a reason, have the same listing. -/
theorem disguisedReport_lists :
    let plain := disguisedReport 5 none
    let explained := disguisedReport 6 (some ⟨"Unexpected token", some 1, none⟩)
    plain ≠ explained ∧ plain.NamesAreLines ∧ explained.NamesAreLines ∧
      plain.listing false = explained.listing false ∧
      plain.compatible = explained.compatible ∧ plain.nonSource = explained.nonSource ∧
      plain.unreadable = explained.unreadable ∧
      plain.incompatible.map Offender.name = explained.incompatible.map Offender.name := by
  intro plain explained
  have hplain : plain.NamesAreLines := by decide
  have hexplained : explained.NamesAreLines := by decide
  have hlisting : plain.listing false = explained.listing false := rfl
  exact ⟨by decide, hplain, hexplained, hlisting,
    lists_of_printed_alike hplain hexplained (.inl hlisting)⟩

end Report

end EditionSurvey
