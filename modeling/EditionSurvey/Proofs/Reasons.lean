/-
  Proofs/Reasons.lean --- reasons that are not to be shown.

  Where reasons are not to be shown, a report is rendered as if there were none, in every format
  (`render_withoutReasons`): a listing and a document have names alone, and the files have no member
  for a reason.  Without its reasons, the report on a store depends on the names and their states
  only (`withoutReasons_ofStore_eq`).  So two stores that differ in reasons cannot be told apart by
  anything that is rendered or said of them (`reasons_hidden`).
-/
import EditionSurvey.Proofs.Listings
import EditionSurvey.Report.Format
import EditionSurvey.Survey.Check

set_option autoImplicit false

namespace EditionSurvey

/-! ## Reports without reasons -/

/-- The package without the reason. -/
def Offender.withoutReason (offender : Offender) : Offender := { offender with diagnostic := none }

namespace Report

/-- The report without the reasons. -/
def withoutReasons (report : Report) : Report :=
  { report with incompatible := report.incompatible.map Offender.withoutReason }

variable (report : Report)

@[simp] theorem passed_withoutReasons : report.withoutReasons.passed = report.passed := by
  simp [passed, withoutReasons]

@[simp] theorem total_withoutReasons : report.withoutReasons.total = report.total := by
  simp [total, withoutReasons]

@[simp] theorem headline_withoutReasons : report.withoutReasons.headline = report.headline := by
  unfold headline
  rw [passed_withoutReasons, total_withoutReasons]
  simp [withoutReasons]

theorem listing_withoutReasons : report.withoutReasons.listing false = report.listing false := by
  have hpart : offenderPart false (report.incompatible.map Offender.withoutReason) =
      offenderPart false report.incompatible := by
    rw [offenderPart_false, offenderPart_false, List.isEmpty_map, List.map_map]
    rfl
  unfold listing listingLines
  simp only [withoutReasons, hpart]

theorem markdown_withoutReasons : report.withoutReasons.markdown false = report.markdown false := by
  have hsummary : report.withoutReasons.markdownSummary = report.markdownSummary := by
    unfold markdownSummary
    rw [passed_withoutReasons, headline_withoutReasons]
    simp [withoutReasons]
  have hoffenders : markdownOffenders (report.incompatible.map Offender.withoutReason) false =
      markdownOffenders report.incompatible false := by
    simp [markdownOffenders, Function.comp_def, Offender.withoutReason]
  unfold markdown
  rw [hsummary]
  simp only [withoutReasons, hoffenders]

theorem json_withoutReasons : report.withoutReasons.json false = report.json false := by
  have hoffenders : (report.incompatible.map Offender.withoutReason).map (Offender.toValue false) =
      report.incompatible.map (Offender.toValue false) := by
    rw [List.map_map]
    rfl
  unfold json toValue
  rw [passed_withoutReasons]
  simp only [withoutReasons, hoffenders]

theorem yaml_withoutReasons : report.withoutReasons.yaml false = report.yaml false := by
  have hoffender : ∀ offender : Offender,
      yamlOffender false offender.withoutReason = yamlOffender false offender := fun _ => rfl
  have hlist : yamlList "incompatible" (yamlOffender false)
        (report.incompatible.map Offender.withoutReason) =
      yamlList "incompatible" (yamlOffender false) report.incompatible := by
    simp [yamlList, List.flatMap_map, hoffender]
  unfold yaml
  rw [passed_withoutReasons]
  simp only [withoutReasons, hlist]

/-- Where reasons are not to be shown, a report is rendered as if there were none. -/
theorem render_withoutReasons (format : Format) :
    report.withoutReasons.render format false = report.render format false := by
  cases format with
  | text => exact report.listing_withoutReasons
  | markdown => exact report.markdown_withoutReasons
  | json => exact report.json_withoutReasons
  | yaml => exact report.yaml_withoutReasons

end Report

/-! ## Reports on stores with the same states -/

variable {first second : Store}

/-- The names in a state are known from the names with their states. -/
theorem Store.namesIn_eq_items (store : Store) (state : PackageState) :
    store.namesIn state = (store.items.filter fun item => item.2 = state).map Prod.fst := by
  simp [namesIn, items, List.filter_map, Function.comp_def]

/-- Without its reasons, the report on a store depends on the names with their states. -/
theorem Report.withoutReasons_ofStore_eq (h : first.items = second.items) (edition : Int) :
    (Report.ofStore first edition).withoutReasons =
      (Report.ofStore second edition).withoutReasons := by
  have hnames : first.namesIn = second.namesIn := by
    funext state
    rw [Store.namesIn_eq_items, h, ← Store.namesIn_eq_items]
  simp [withoutReasons, ofStore, hnames, Function.comp_def, Offender.withoutReason]

/-- Two stores that have the same names in the same states, in the same order, are not told apart
where reasons are not to be shown, whatever the reasons are: the reports on them are rendered alike
in every format and have the same result and size, and a survey says the same of every name and
state. -/
theorem reasons_hidden (h : first.items = second.items) (edition : Int) :
    (∀ format, (Report.ofStore first edition).render format false =
        (Report.ofStore second edition).render format false) ∧
      (Report.ofStore first edition).passed = (Report.ofStore second edition).passed ∧
      (Report.ofStore first edition).total = (Report.ofStore second edition).total ∧
      ∀ survey : Survey, survey.options.showError = false → ∀ name state,
        survey.describe first name state = survey.describe second name state := by
  have hreports := Report.withoutReasons_ofStore_eq h edition
  refine ⟨fun format => ?_, ?_, ?_, fun survey hhidden name state => ?_⟩
  · rw [← Report.render_withoutReasons, hreports, Report.render_withoutReasons]
  · rw [← Report.passed_withoutReasons, hreports, Report.passed_withoutReasons]
  · rw [← Report.total_withoutReasons, hreports, Report.total_withoutReasons]
  · simp [Survey.describe, hhidden]

/-- A store with a package that does not conform for the reason given. -/
def storeWithReason (reason : Option Diagnostic) : Store where
  entries := [("a", .compatible), ("b", .incompatible reason), ("c", .unreadable)]
  distinct := by simp

/-- A store with a reason and one without are told apart where reasons are shown, and only
there. -/
theorem storeWithReason_hidden :
    let explained := storeWithReason (some ⟨"Unexpected token", some 1, some 2⟩)
    let plain := storeWithReason none
    let survey := FileTree.survey { top := .directory [] } {}
    explained.items = plain.items ∧ survey.options.showError = false ∧
      (Report.ofStore explained 5).listing true ≠ (Report.ofStore plain 5).listing true ∧
      (Report.ofStore explained 5).render .yaml false = (Report.ofStore plain 5).render .yaml false ∧
      survey.describe explained "b" .incompatible = survey.describe plain "b" .incompatible := by
  intro explained plain survey
  have hitems : explained.items = plain.items := rfl
  obtain ⟨hrender, -, -, hdescribe⟩ := reasons_hidden hitems 5
  exact ⟨hitems, rfl, by decide +kernel, hrender .yaml, hdescribe survey rfl "b" .incompatible⟩

end EditionSurvey
