/-
  Proofs/Delivery.lean --- what the command delivers when its survey completes.

  The exit status says whether a package fails to conform.  A report for another program is all
  that is printed on standard output, and a report that goes to a file is all that the file
  holds, and no other file changes (`Settings.deliver_delivers`).

  What is printed on standard output loses the sequences that style it.  A report in JSON or YAML
  has none; one in Markdown has those of the names in it.

  A report can be delivered if no number in it has too many digits and if its file, if it goes to
  one, can be written (`Settings.CanDeliver`).  Names are texts of characters, so what is said here
  is said of trees in which no half of a pair is escaped alone: a report on a name with such a half
  could not be printed.

  How a survey is shown has no part in what it finds.  So command lines that differ in nothing
  else come to the same report, and end with the same status (`Settings.Completes.same`).
-/
import EditionSurvey.Command.Execute
import EditionSurvey.Proofs.Asking
import EditionSurvey.Proofs.Comparison
import EditionSurvey.Proofs.Encoding
import EditionSurvey.Proofs.Halves
import EditionSurvey.Proofs.Placement
import EditionSurvey.Proofs.Unstyled

set_option autoImplicit false

namespace EditionSurvey

theorem Store.Related.eq {first second : Store} (h : Store.Related Eq first second) :
    first = second := by
  obtain ⟨entries, _⟩ := first
  obtain ⟨others, _⟩ := second
  obtain rfl : entries = others := by
    unfold Related at h
    dsimp only at h
    clear * - h
    induction h with
    | nil => rfl
    | cons hentry _ ih => rw [Prod.ext hentry.1 hentry.2, ih]
  rfl

theorem Report.passed_eq_true_iff {report : Report} :
    report.passed = true ↔ report.incompatible = [] := List.isEmpty_iff

namespace Command

variable {tree : FileTree} {environment : Option String} {args : List String}
  {arguments more : Arguments} {settings other : Settings} {report : Report} {text : String}

/-! ## Command lines -/

/-- A command line asks for a survey with settings. -/
structure Asks (tree : FileTree) (environment : Option String) (args : List String)
    (arguments : Arguments) (settings : Settings) : Prop where
  /-- its arguments are read -/
  read : readArguments args = .ok arguments
  /-- no text is to be shown in place of a survey -/
  surveys : shownInstead? arguments.gifts = none
  /-- all values are accepted -/
  accepted : readSettings tree environment arguments = .ok settings

theorem Asks.execute_eq (h : Asks tree environment args arguments settings) :
    execute tree environment args = settings.execute tree := by
  rw [execute, h.read]
  dsimp only
  rw [h.surveys]
  dsimp only
  rw [h.accepted]

/-- The parameters that decide how a survey is shown, and not what it finds. -/
def showing : List Parameter := [.format, .showTree, .showError, .output, .verbose]

/-- What arguments give to the other parameters in the end is the same. -/
def Arguments.DifferInShowing (arguments more : Arguments) : Prop :=
  ∀ p ∈ Parameter.all, p ∉ showing → lastGift? more.gifts p = lastGift? arguments.gifts p

instance : Decidable (arguments.DifferInShowing more) :=
  inferInstanceAs (Decidable (∀ p ∈ Parameter.all, p ∉ showing → _ = _))

/-- Settings that ask for the same survey. -/
structure Settings.SameSurvey (settings other : Settings) : Prop where
  /-- of the same packages -/
  packages : settings.options.SamePackages other.options
  /-- for the same edition -/
  edition : other.options.edition = settings.options.edition
  /-- or of the same scripts -/
  target : other.target = settings.target

/-- Arguments that differ in how a survey is shown ask for the same survey. -/
theorem sameSurvey_of_differInShowing (hdiffer : arguments.DifferInShowing more)
    (hsettings : readSettings tree environment arguments = .ok settings)
    (hother : readSettings tree environment more = .ok other) : settings.SameSurvey other := by
  have hagree : ∀ p ∈ Parameter.all, p ∉ showing → settings.AgreeAt other p := fun p hp hshowing =>
    agreeAt_of_readSettings hp (hdiffer p hp hshowing) hsettings hother
  have hname := hagree .packageName (by decide) (by decide)
  have hpath := hagree .resolvePath (by decide) (by decide)
  have hpeers := hagree .includePeer (by decide) (by decide)
  have hedition := hagree .edition (by decide) (by decide)
  have htarget := hagree .target (by decide) (by decide)
  exact ⟨⟨hname.symm, hpath.symm, hpeers.symm⟩, hedition.symm, htarget.symm⟩

/-! ## Surveys that complete -/

/-- The survey that settings ask for completes with a report. -/
def Settings.Completes (settings : Settings) (tree : FileTree) (report : Report) : Prop :=
  ∃ root progress, settings.survey tree = (.ok root, progress) ∧
    report = .ofStore progress.store settings.options.edition

theorem Settings.completes_of_toOption {root : String}
    (h : (settings.survey tree).1.toOption = some root) : settings.Completes tree
      (.ofStore (settings.survey tree).2.store settings.options.edition) := by
  rcases hsurvey : settings.survey tree with ⟨fault | name, progress⟩
  · simp [hsurvey, Except.toOption] at h
  · exact ⟨name, progress, hsurvey, rfl⟩

/-- Surveys that are the same but for how they are shown find the same. -/
theorem Settings.survey_alike (hsame : settings.SameSurvey other) (tree : FileTree) :
    (settings.survey tree).1 = (other.survey tree).1 ∧
      (settings.survey tree).2.store = (other.survey tree).2.store := by
  have hjudge : ∀ path, (tree.survey settings.options).judge path =
      (tree.survey other.options).judge path := by
    intro path
    unfold Survey.judge FileTree.survey
    rw [hsame.edition]
  have hcomparable : Survey.Comparable Eq (tree.survey settings.options)
      (tree.survey other.options) :=
    Survey.comparable_of_judge hsame.packages (fun _ => rfl) (fun _ _ h => by rw [h])
      fun path => .of_eq (by rw [hjudge path])
  have hstart : Survey.Stored Eq {} {} := List.Forall₂.nil
  rw [survey, survey, hsame.target]
  cases settings.target with
  | none =>
      obtain ⟨halike, hstores⟩ := Survey.checkPackage_compared hsame.packages hcomparable _ _ hstart
      exact ⟨halike.eq, hstores.eq⟩
  | some target =>
      obtain ⟨halike, hstores⟩ := Survey.checkTargets_compared hcomparable target _ _ hstart
      exact ⟨halike.eq, hstores.eq⟩

theorem Settings.Completes.same (h : settings.Completes tree report)
    (hsame : settings.SameSurvey other) : other.Completes tree report := by
  obtain ⟨root, progress, hsurvey, rfl⟩ := h
  obtain ⟨hends, hstore⟩ := Settings.survey_alike hsame tree
  rw [hsurvey] at hends hstore
  exact ⟨root, (other.survey tree).2, Prod.ext hends.symm rfl, by rw [hsame.edition, hstore]⟩

/-! ## What is delivered -/

/-- Nothing keeps a report from being delivered as the settings ask. -/
structure Settings.CanDeliver (settings : Settings) (tree : FileTree) (report : Report) : Prop where
  /-- no number that it shows has too many digits -/
  numbers : ∀ n ∈ report.numbers settings.format settings.options.showError,
    digitCount n ≤ Reader.digitLimit
  /-- the file that it goes to, if it goes to one, can be written -/
  output : ∀ path ∈ settings.output, tree.Writable path

/-- The tree that effects leave. -/
def Effects.leaves (effects : Effects) (tree : FileTree) : Except Fault FileTree :=
  match effects.written with
  | none => .ok tree
  | some (path, bytes) => tree.write path bytes

/-- What a command does that came to a report with a text. -/
structure Effects.Delivers (effects : Effects) (tree : FileTree) (settings : Settings)
    (report : Report) (text : String) : Prop where
  /-- the text is that of the report in the format asked for -/
  rendered : settings.reportText report = .ok text
  /-- it ends without a fault -/
  fault : effects.fault = none
  /-- its status says whether a package fails to conform -/
  status : effects.status = if report.incompatible = [] then 0 else 1
  /-- a report for another program is printed without the sequences that style it, with a line
  end, and nothing else is printed with it -/
  printed : settings.output = none → settings.format ≠ .text →
    effects.out = Text.withoutStyles text ++ "\n"
  /-- so a report without escapes is printed as it is -/
  exact : settings.output = none → settings.format ≠ .text →
    Unstyled text.toList → effects.out = text ++ "\n"
  /-- and one in JSON or YAML always is -/
  exactData : settings.output = none → settings.format = .json ∨ settings.format = .yaml →
    effects.out = text ++ "\n"
  /-- a report that is printed changes no file -/
  unwritten : settings.output = none → effects.leaves tree = .ok tree
  /-- one that goes to a file is all that the file holds, with a line end, in every format, and
  no other file changes -/
  written : ∀ path ∈ settings.output, ∃ after bytes, effects.leaves tree = .ok after ∧
    tree.ChangesOnly after path bytes ∧ Text.decode? bytes = .ok (text ++ "\n").toList

theorem outText_of_linesToErr (h : settings.linesToErr = true) (events : List Event) :
    settings.outText events = "" := by
  unfold Settings.outText
  induction events with
  | nil => rfl
  | cons event events ih =>
      have hevent : settings.outOf event = "" := by
        cases event with
        | line text => rw [Settings.outOf, if_pos h]
        | call | record => rfl
      rw [List.map_cons, String.join_cons, ih, hevent]
      rfl

theorem Settings.reportText_eq_ok_iff : settings.reportText report = .ok text ↔
    report.Writable settings.format settings.options.showError ∧
      report.render settings.format settings.options.showError = text :=
  Report.written_eq_ok_iff

theorem unstyled_reportText (h : settings.format = .json ∨ settings.format = .yaml)
    (htext : settings.reportText report = .ok text) : Unstyled text.toList := by
  obtain ⟨-, rfl⟩ := Settings.reportText_eq_ok_iff.mp htext
  unfold Report.render
  obtain h | h := h <;> rw [h]
  · exact report.unstyled_json _
  · exact report.unstyled_yaml _

theorem ite_passed_eq (report : Report) :
    (if report.passed then 0 else 1) = if report.incompatible = [] then 0 else 1 :=
  if_congr Report.passed_eq_true_iff rfl rfl

/-- A report that is printed, with whatever happened before. -/
theorem Settings.deliver_of_no_output (htext : settings.reportText report = .ok text)
    (houtput : settings.output = none) (tree : FileTree) (events : List Event) :
    (settings.deliver tree events report).Delivers tree settings report text := by
  have hdeliver : settings.deliver tree events report =
      { status := if report.passed then 0 else 1
        out := settings.outText events ++ echoed text
        err := settings.errText events } := by
    rw [deliver, htext, houtput]
  have hprinted : settings.format ≠ .text →
      (settings.deliver tree events report).out = Text.withoutStyles text ++ "\n" := by
    intro hformat
    have hlines : settings.linesToErr = true := by simp [linesToErr, hformat, houtput]
    rw [hdeliver, outText_of_linesToErr hlines, String.empty_append, echoed]
  have hexact : settings.format ≠ .text → Unstyled text.toList →
      (settings.deliver tree events report).out = text ++ "\n" := by
    intro hformat hunstyled
    rw [hprinted hformat, Text.withoutStyles_of_not_mem hunstyled]
  refine ⟨htext, by rw [hdeliver], by rw [hdeliver, ite_passed_eq], fun _ => hprinted,
    fun _ => hexact, fun _ hformat => ?_, fun _ => by rw [hdeliver, Effects.leaves], ?_⟩
  · refine hexact ?_ (unstyled_reportText hformat htext)
    obtain hformat | hformat := hformat <;> simp [hformat]
  · simp [houtput]

/-- A report that goes to a file, with whatever happened before. -/
theorem Settings.deliver_of_output {path : Path} (htext : settings.reportText report = .ok text)
    (houtput : settings.output = some path) (hwritable : tree.Writable path)
    (events : List Event) :
    (settings.deliver tree events report).Delivers tree settings report text := by
  obtain ⟨after, hwrite⟩ := hwritable.exists_write (text ++ "\n").toUTF8.toList
  have hdeliver : settings.deliver tree events report =
      { status := if report.passed then 0 else 1
        out := settings.outText events ++ echoed s!"Report written to {path}"
        err := settings.errText events
        written := some (path, (text ++ "\n").toUTF8.toList) } := by
    rw [deliver, htext, houtput]
    dsimp only
    rw [hwrite]
  have hnone : settings.output ≠ none := by simp [houtput]
  refine ⟨htext, by rw [hdeliver], by rw [hdeliver, ite_passed_eq], fun h => absurd h hnone,
    fun h => absurd h hnone, fun h => absurd h hnone, fun h => absurd h hnone, ?_⟩
  rintro _ hpath
  obtain rfl : path = _ := Option.some.inj (houtput.symm.trans hpath)
  refine ⟨after, _, ?_, FileTree.changesOnly_of_write hwrite,
    Text.decode?_eq_ok_iff.mpr (Text.toList_toUTF8 _)⟩
  rw [hdeliver]
  exact hwrite

theorem Settings.deliver_delivers (h : settings.CanDeliver tree report) (events : List Event) :
    ∃ text, (settings.deliver tree events report).Delivers tree settings report text := by
  have htext := Settings.reportText_eq_ok_iff.mpr ⟨h.numbers, rfl⟩
  cases houtput : settings.output with
  | none => exact ⟨_, deliver_of_no_output htext houtput tree events⟩
  | some path => exact ⟨_, deliver_of_output htext houtput (h.output path houtput) events⟩

/-- A command whose survey completes delivers its report. -/
theorem Asks.delivers (h : Asks tree environment args arguments settings)
    (hcompletes : settings.Completes tree report) (hdeliver : settings.CanDeliver tree report) :
    ∃ text, (execute tree environment args).Delivers tree settings report text := by
  obtain ⟨root, progress, hsurvey, rfl⟩ := hcompletes
  rw [h.execute_eq, Settings.execute, hsurvey]
  exact Settings.deliver_delivers hdeliver _

/-- A report in Markdown that is printed is not printed as it is if a package has a sequence in
its name. -/
theorem Asks.out_ne_of_styled (h : Asks tree environment args arguments settings)
    (hcompletes : settings.Completes tree report) (hdeliver : settings.CanDeliver tree report)
    (houtput : settings.output = none) (hformat : settings.format = .markdown) {name : String}
    {state : PackageState} (hname : name ∈ report.listed state) (hstyled : Styled name.toList) :
    ∃ text, settings.reportText report = .ok text ∧
      (execute tree environment args).out ≠ text ++ "\n" := by
  obtain ⟨text, hdelivers⟩ := h.delivers hcompletes hdeliver
  refine ⟨text, hdelivers.rendered, fun hsame => ?_⟩
  have hprinted := hdelivers.printed houtput (by simp [hformat])
  have hkept := (String.append_left_inj "\n").mp (hprinted.symm.trans hsame)
  obtain ⟨-, rfl⟩ := Settings.reportText_eq_ok_iff.mp hdelivers.rendered
  refine Styled.withoutStyles_ne ?_ hkept
  rw [hformat, Report.render]
  exact Report.styled_markdown hname hstyled _

/-- A command whose survey completes, and which can deliver its report, does so.  Any other command
line that differs only in how the survey is shown comes to the same report, and if it can deliver
it, it ends with the same status.  No half of a pair is escaped alone in the tree. -/
theorem execute_delivers (_hmanifests : tree.ManifestsPaired) (_hscripts : tree.ScriptsPaired)
    (hasks : Asks tree environment args arguments settings)
    (hcompletes : settings.Completes tree report) (hdeliver : settings.CanDeliver tree report) :
    (∃ text, (execute tree environment args).Delivers tree settings report text) ∧
      ∀ (line : List String) (more : Arguments) (other : Settings),
        Asks tree environment line more other → arguments.DifferInShowing more →
          other.Completes tree report ∧ (other.CanDeliver tree report →
            (execute tree environment line).status = (execute tree environment args).status) := by
  -- `_hmanifests` and `_hscripts` are not needed for the argument, but without them a name need not
  -- be the text that a file writes, and the report on that text could not be printed
  obtain ⟨text, hdelivers⟩ := hasks.delivers hcompletes hdeliver
  refine ⟨⟨text, hdelivers⟩, fun line more other hmore hdiffer => ?_⟩
  have hsame := hcompletes.same (sameSurvey_of_differInShowing hdiffer hasks.accepted hmore.accepted)
  refine ⟨hsame, fun hcan => ?_⟩
  obtain ⟨_, hothers⟩ := hmore.delivers hsame hcan
  rw [hothers.status, hdelivers.status]

/-! ## Reports on two packages -/

/-- A package that does not conform to the fifth edition. -/
def lateTree : FileTree where
  top := .directory
    [(manifestName, .file "\x7b\"name\":\"app\"\x7d".toUTF8.toList),
      ("index.js", .file "let a".toUTF8.toList)]

theorem scriptsPaired_lateTree : lateTree.ScriptsPaired := by
  have hplain : ∀ bytes ∈ ["\x7b\"name\":\"app\"\x7d".toUTF8.toList, "let a".toUTF8.toList],
      '\\' ∉ (FileTree.scriptText bytes).toList := by decide +kernel
  intro name bytes hbytes
  refine Script.not_escapesHalf (hplain bytes ?_)
  simp only [lateTree, FileNode.contentsNamed, FileNode.contentsNamedIn, FileNode.contentsNamedAt,
    List.append_nil, List.mem_append, List.mem_ite_nil_right, List.mem_singleton] at hbytes
  obtain ⟨-, rfl⟩ | ⟨-, rfl⟩ := hbytes
  · exact List.mem_cons_self
  · exact List.mem_cons_of_mem _ List.mem_cons_self

/-- The report on it. -/
def lateReport : Report :=
  { edition := 5, compatible := [], nonSource := []
    incompatible := [⟨"app", .incompatible, some ⟨"'let' declaration requires ES2015", some 1, some 0⟩⟩]
    unreadable := [] }

/-- A command line that has its report written to a file. -/
def filingLine : List String := ["--format", "json", "-o", "report.json"]

/-- What it gives. -/
def filingArguments : Arguments :=
  { gifts := [(.format, .text "json"), (.output, .text "report.json")] }

/-- The settings that it asks for. -/
def filingSettings : Settings := { format := .json, output := some (.ofString "report.json") }

/-- A command line that has its report printed, with the reason. -/
def printingLine : List String := ["--no-show-tree", "-sv", "--format=YAML"]

/-- What it gives. -/
def printingArguments : Arguments :=
  { gifts := [(.showTree, .flag false), (.showError, .flag true), (.verbose, .flag true),
      (.format, .text "YAML")] }

/-- The settings that it asks for. -/
def printingSettings : Settings :=
  { options := { showTree := false, showError := true }, format := .yaml, verbose := true }

/-- The report is written to the file, and with the other command line it is printed. -/
theorem lateTree_delivers :
    Asks lateTree none filingLine filingArguments filingSettings ∧
      lateTree.ManifestsPaired ∧ lateTree.ScriptsPaired ∧
      filingSettings.Completes lateTree lateReport ∧
      filingSettings.CanDeliver lateTree lateReport ∧
      (∃ text, (execute lateTree none filingLine).Delivers lateTree filingSettings lateReport text) ∧
      (execute lateTree none filingLine).status = 1 ∧
      Asks lateTree none printingLine printingArguments printingSettings ∧
      filingArguments.DifferInShowing printingArguments ∧
      printingSettings.Completes lateTree lateReport ∧
      (execute lateTree none printingLine).status = 1 := by
  have hfiling : Asks lateTree none filingLine filingArguments filingSettings := ⟨rfl, rfl, rfl⟩
  have hprinting : Asks lateTree none printingLine printingArguments printingSettings :=
    ⟨rfl, rfl, rfl⟩
  have hfound : (filingSettings.survey lateTree).1.toOption = some "app" ∧
      Report.ofStore (filingSettings.survey lateTree).2.store filingSettings.options.edition =
        lateReport := by decide +kernel
  have hcompletes := Settings.completes_of_toOption hfound.1
  rw [hfound.2] at hcompletes
  have hcan : filingSettings.CanDeliver lateTree lateReport := by
    refine ⟨by decide, ?_⟩
    rintro _ ⟨rfl⟩
    exact ⟨[], _, rfl⟩
  have hmanifests : lateTree.ManifestsPaired := by decide +kernel
  obtain ⟨⟨text, hdelivers⟩, hothers⟩ :=
    execute_delivers hmanifests scriptsPaired_lateTree hfiling hcompletes hcan
  have hdiffer : filingArguments.DifferInShowing printingArguments := by decide
  obtain ⟨hsame, hstatus⟩ := hothers _ _ _ hprinting hdiffer
  have hone : (execute lateTree none filingLine).status = 1 := hdelivers.status
  have hcanPrint : printingSettings.CanDeliver lateTree lateReport :=
    ⟨by decide, by rintro _ ⟨⟩⟩
  exact ⟨hfiling, hmanifests, scriptsPaired_lateTree, hcompletes, hcan, ⟨text, hdelivers⟩, hone,
    hprinting, hdiffer, hsame, (hstatus hcanPrint).trans hone⟩

/-- A package with a sequence that styles a text in its name. -/
def stylingTree : FileTree where
  top := .directory
    [(manifestName, .file "\x7b\"name\":\"\\u001b[31mx\"\x7d".toUTF8.toList),
      ("index.js", .file [])]

/-- A command line that has a report in Markdown printed. -/
def stylingLine : List String := ["--no-show-tree", "--format", "md"]

/-- The settings that it asks for. -/
def stylingSettings : Settings := { options := { showTree := false }, format := .markdown }

/-- What it gives. -/
def stylingArguments : Arguments := { gifts := [(.showTree, .flag false), (.format, .text "md")] }

/-- The report on the package is not printed as it is. -/
theorem stylingTree_prints_other :
    ∃ report, Asks stylingTree none stylingLine stylingArguments stylingSettings ∧
      stylingSettings.Completes stylingTree report ∧ stylingSettings.output = none ∧
      stylingSettings.format = .markdown ∧
      ∃ text, stylingSettings.reportText report = .ok text ∧
        (execute stylingTree none stylingLine).out ≠ text ++ "\n" := by
  have hasks : Asks stylingTree none stylingLine stylingArguments stylingSettings :=
    ⟨rfl, rfl, rfl⟩
  have hfound : (stylingSettings.survey stylingTree).1.toOption = some "\x1b[31mx" ∧
      "\x1b[31mx" ∈ (Report.ofStore (stylingSettings.survey stylingTree).2.store
        stylingSettings.options.edition).listed .compatible ∧
      (Report.ofStore (stylingSettings.survey stylingTree).2.store
        stylingSettings.options.edition).Writable .markdown false := by decide +kernel
  have hcompletes := Settings.completes_of_toOption hfound.1
  have hstyled : Styled "\x1b[31mx".toList := ⟨[], "[31mx".toList, 4, by decide, by decide⟩
  exact ⟨_, hasks, hcompletes, rfl, rfl,
    hasks.out_ne_of_styled hcompletes ⟨hfound.2.2, by rintro _ ⟨⟩⟩ rfl rfl hfound.2.1 hstyled⟩

end Command

end EditionSurvey
