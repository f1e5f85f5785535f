/-
  Proofs/Visit.lean --- what the visit of one dependency does.

  A dependency that has a verdict is announced, and nothing else happens (`visit_on_of_known`).
  What happens to one that has none is the same whatever was done before
  (`visit_on_of_fresh`): its own entry is looked for and judged, the verdict is recorded and
  announced, and if it is `unreadable` the manifest in its directory is asked for.

  `finding`, `directoryFor`, `listing` and `expansion` are what a name comes to in this way;
  they read the surroundings and no progress.
-/
import EditionSurvey.Proofs.Run
import EditionSurvey.Survey.Walk

set_option autoImplicit false

namespace EditionSurvey

/-- A verdict is recorded, unless a fault kept it from being found. -/
def Progress.settleBy (progress : Progress) (name : String) :
    Except Fault Verdict → Progress
  | .ok verdict => progress.settle name verdict
  | .error _ => progress

/-- A package that was to be opened is recorded if it has no manifest that can be read. -/
def Progress.settleOpening (progress : Progress) (name : String) :
    Except Fault (Option (List String)) → Progress
  | .ok none => progress.settle name .unreadable
  | _ => progress

theorem Progress.settleOpening_of_known {progress : Progress} {name : String}
    (names : Except Fault (Option (List String))) (h : progress.store.verdict? name ≠ none) :
    progress.settleOpening name names = progress := by
  unfold settleOpening
  split
  · exact settle_of_known _ h
  · rfl

namespace Survey

/-! ## What a name comes to -/

/-- Look for the entry of a package and judge it, without recording the verdict. -/
def inquire (survey : Survey) (name : String) : Run (Option Path × Verdict) := do
  let entry ← survey.entryOf name
  let verdict ← survey.evaluate entry
  pure (entry, verdict)

/-- The verdict that the entry of a package leads to, unless a fault ends the search. -/
def finding (survey : Survey) (name : String) : Except Fault Verdict :=
  (survey.inquire name).result.map Prod.snd

/-- The directory in which a package is looked for. -/
def directoryFor (survey : Survey) (name : String) : Except Fault Path :=
  (survey.surroundings.locate name survey.options.resolvePath).result

/-- The names of the dependencies of the package in a directory, if it has a manifest that can
be read. -/
def listing (survey : Survey) (directory : Path) : Except Fault (Option (List String)) :=
  (survey.surroundings.manifest directory).result.map fun answer =>
    answer.toOption.map (·.dependencyNames survey.options.includePeer)

/-- The names that are visited because of a package in a state. -/
def descent (survey : Survey) (name : String) (state : PackageState) :
    Except Fault (Option (List String)) :=
  if state.needsDescent then survey.directoryFor name >>= survey.listing else .ok none

/-- The names that are visited because of a package that has no verdict. -/
def expansion (survey : Survey) (name : String) : Except Fault (Option (List String)) :=
  survey.finding name >>= fun verdict => survey.descent name verdict.state

/-- What is asked for when a package is visited and no package has a verdict. -/
def callsFor (survey : Survey) (name : String) : List Call :=
  ((survey.visit name 0).on {}).2.calls

/-- A directory lists names exactly if it has a manifest with these dependencies. -/
theorem listing_eq_some_iff {survey : Survey} {directory : Path} {names : List String} :
    survey.listing directory = .ok (some names) ↔
      ∃ manifest, (survey.surroundings.manifest directory).result = .ok (.ok manifest) ∧
        manifest.dependencyNames survey.options.includePeer = names := by
  unfold listing
  rcases (survey.surroundings.manifest directory).result with fault | failure | manifest <;>
    simp [Except.map, Except.toOption]

theorem needsDescent_state_iff {verdict : Verdict} :
    verdict.state.needsDescent = true ↔ verdict = .unreadable := by
  cases verdict <;> simp [Verdict.state, PackageState.needsDescent]

/-- Names are visited because of a package exactly if it has no usable entry, a directory and
a manifest there. -/
theorem expansion_eq_some_iff {survey : Survey} {name : String} {names : List String} :
    survey.expansion name = .ok (some names) ↔
      survey.finding name = .ok .unreadable ∧
        ∃ directory, survey.directoryFor name = .ok directory ∧
          survey.listing directory = .ok (some names) := by
  unfold expansion descent
  cases hfinding : survey.finding name with
  | error fault => simp [bind, Except.bind]
  | ok verdict =>
      by_cases hverdict : verdict = .unreadable
      · subst hverdict
        cases survey.directoryFor name <;>
          simp [bind, Except.bind, Verdict.state, PackageState.needsDescent]
      · have hstate : ¬verdict.state.needsDescent = true :=
          fun h => hverdict (needsDescent_state_iff.mp h)
        simp [bind, Except.bind, hstate, hverdict]

/-! ## Judging an entry looks at no progress -/

theorem blind_entryOf (survey : Survey) (name : String) : (survey.entryOf name).Blind := by
  refine Run.blind_bind (Run.blind_ask _ _) ?_
  rintro (failure | entry)
  · exact Run.blind_bind (Run.blind_emit _) fun _ => Run.blind_pure _
  · exact Run.blind_pure _

/-- The entry of a package is what was answered. -/
theorem resolve_of_entryOf {survey : Survey} {name : String} {path : Path}
    (h : (survey.entryOf name).result = .ok (some path)) :
    (survey.surroundings.resolve name survey.options.resolvePath).result = .ok (.ok path) := by
  rw [Run.result, entryOf, Run.on_bind, Run.on_ask] at h
  rcases hanswer : (survey.surroundings.resolve name survey.options.resolvePath).result with
    fault | failure | found
  all_goals simp only [hanswer] at h
  · cases h
  · rw [Run.on_bind_of_ok _ (Run.on_write _ _ _ _)] at h
    cases h
  · obtain rfl : found = path := by simpa using h
    rfl

theorem blind_verdictOf (path : Path) (judgement : Except Script.Refusal Unit) :
    (verdictOf path judgement).Blind := by
  rcases judgement with (diagnostic | _ | _) | _
  · exact Run.blind_pure _
  · exact Run.blind_bind (Run.blind_emit _) fun _ => Run.blind_pure _
  · exact Run.blind_throw _
  · exact Run.blind_pure _

theorem blind_judge (survey : Survey) (path : Path) : (survey.judge path).Blind := by
  refine Run.blind_bind (Run.blind_ask _ _) ?_
  rintro (failure | source)
  · exact Run.blind_bind (Run.blind_emit _) fun _ => Run.blind_pure _
  · exact Run.blind_bind (Run.blind_emit _) fun _ => blind_verdictOf _ _

theorem blind_evaluate (survey : Survey) (entry : Option Path) :
    (survey.evaluate entry).Blind := by
  cases entry with
  | none => exact Run.blind_pure _
  | some path =>
      by_cases h : isNonSource path = true
      · rw [evaluate, if_pos h]
        exact Run.blind_pure _
      · rw [evaluate, if_neg h]
        exact survey.blind_judge path

/-- What an inquiry yields and what happens in it, by the outcomes of its two parts. -/
theorem inquire_of_entry_fault (survey : Survey) {name : String} {fault : Fault}
    (h : (survey.entryOf name).result = .error fault) :
    (survey.inquire name).result = .error fault ∧
      (survey.inquire name).journal = (survey.entryOf name).journal := by
  have hnext := fun entry => Run.blind_bind (survey.blind_evaluate entry)
    fun verdict => Run.blind_pure (entry, verdict)
  have hentry := survey.blind_entryOf name
  refine ⟨?_, hentry.journal_bind_of_error h⟩
  rw [inquire, hentry.result_bind hnext, h]
  rfl

theorem inquire_of_entry (survey : Survey) {name : String} {entry : Option Path}
    (h : (survey.entryOf name).result = .ok entry) :
    (survey.inquire name).result = (survey.evaluate entry).result.map (entry, ·) ∧
      (survey.inquire name).journal =
        (survey.entryOf name).journal ++ (survey.evaluate entry).journal := by
  have hpure := fun verdict : Verdict => Run.blind_pure (entry, verdict)
  have hnext := fun entry => Run.blind_bind (survey.blind_evaluate entry)
    fun verdict => Run.blind_pure (entry, verdict)
  have hentry := survey.blind_entryOf name
  have hevaluate := survey.blind_evaluate entry
  constructor
  · rw [inquire, hentry.result_bind hnext, h]
    show (survey.evaluate entry >>= fun verdict => pure (entry, verdict)).result = _
    rw [hevaluate.result_bind hpure]
    cases (survey.evaluate entry).result <;> rfl
  · rw [inquire, hentry.journal_bind_of_ok hnext h]
    congr 1
    cases houtcome : (survey.evaluate entry).result with
    | error fault => exact hevaluate.journal_bind_of_error houtcome
    | ok verdict =>
        rw [hevaluate.journal_bind_of_ok hpure houtcome, Run.journal_pure, List.append_nil]

/-! ## Announcing -/

theorem calls_records (log : List LogRecord) :
    (log.map Event.record).filterMap Event.call? = [] := by
  simp [List.filterMap_map, Function.comp_def, Event.call?]

/-- The line for a package with a verdict, without its indentation. -/
def describeVerdict (survey : Survey) (name : String) (verdict : Verdict) : String :=
  verdict.state.symbol ++ " " ++ describeState survey.options.label name verdict.state
    (if survey.options.showError then verdict.diagnostic? else none)

/-- What is printed for a package with a verdict. -/
def announcement (survey : Survey) (name : String) (verdict : Verdict) (depth : Int) :
    List Event :=
  if survey.prints && survey.options.showTree then
    [.line (indentation depth ++ survey.describeVerdict name verdict)]
  else []

theorem announce_on (survey : Survey) {name : String} {verdict : Verdict} {p : Progress}
    (h : p.store.verdict? name = some verdict) (depth : Int) :
    (survey.announce name verdict.state depth).on p =
      (.ok (), p.extend (survey.announcement name verdict depth)) := by
  have hreason : p.store.diagnostic? name = verdict.diagnostic? := by
    simp [Store.diagnostic?, h]
  unfold announce announcement
  split
  · rw [Run.on_bind_of_ok _ (Run.on_get p)]
    simp only [Run.print, Run.on_emit, describe, describeVerdict, hreason]
  · rfl

@[simp] theorem calls_announcement (survey : Survey) (name : String) (verdict : Verdict)
    (depth : Int) : (survey.announcement name verdict depth).filterMap Event.call? = [] := by
  unfold announcement
  split <;> rfl

/-! ## Opening a package -/

theorem calls_settleOpening (p : Progress) (name : String)
    (names : Except Fault (Option (List String))) :
    (p.settleOpening name names).calls = p.calls := by
  unfold Progress.settleOpening
  split <;> rfl

/-- What happens when a package is opened. -/
def openingEvents (survey : Survey) (directory : Path) : List Event :=
  .call (.manifest directory) :: (survey.surroundings.manifest directory).log.map .record ++
    match (survey.surroundings.manifest directory).result with
    | .ok (.error failure) => [.record ⟨.debug, .walker, failure.message⟩]
    | _ => []

/-- A package without a manifest is recorded, and what is yielded are the names to visit. -/
theorem openPackage_on (survey : Survey) (name : String) (directory : Path) (depth : Int)
    (p : Progress) :
    (survey.openPackage name directory depth).on p =
      ((survey.listing directory).map (Option.map (⟨·, depth⟩)),
        (p.settleOpening name (survey.listing directory)).extend
          (survey.openingEvents directory)) := by
  unfold openPackage listing openingEvents
  rw [Run.on_bind, Run.on_ask]
  rcases (survey.surroundings.manifest directory).result with fault | failure | manifest
  · simp [Progress.settleOpening, Except.map]
  · simp only [Except.map, Except.toOption, Option.map_none]
    rw [Run.on_bind_of_ok _ (Run.on_write _ _ _ _), Run.on_bind_of_ok _ (Run.on_modify _ _)]
    simp [Progress.settleOpening, Progress.settle, Progress.extend]
  · simp [Progress.settleOpening, Except.map, Except.toOption]

theorem calls_openingEvents (survey : Survey) (directory : Path) :
    (survey.openingEvents directory).filterMap Event.call? = [.manifest directory] := by
  unfold openingEvents
  simp only [List.filterMap_append, List.filterMap_cons, Event.call?, calls_records]
  split <;> rfl

/-- Opening a package that yields asked for one manifest. -/
theorem openPackage_ok {survey : Survey} {name : String} {directory : Path} {depth : Int}
    {p q : Progress} {frame : Option Frame}
    (h : (survey.openPackage name directory depth).on p = (.ok frame, q)) :
    ∃ names, survey.listing directory = .ok names ∧ frame = names.map (⟨·, depth⟩) ∧
      q.store = (p.settleOpening name (.ok names)).store ∧
      q.calls = p.calls ++ [.manifest directory] := by
  rw [openPackage_on] at h
  obtain ⟨hframe, rfl⟩ := Prod.mk.inj h
  cases hlisting : survey.listing directory with
  | error fault => simp [hlisting, Except.map] at hframe
  | ok names =>
      refine ⟨names, rfl, by simpa [hlisting, Except.map, eq_comm] using hframe, rfl, ?_⟩
      rw [Progress.calls_extend, calls_openingEvents, calls_settleOpening]

theorem openPackage_error {survey : Survey} {name : String} {directory : Path} {depth : Int}
    {p q : Progress} {fault : Fault}
    (h : (survey.openPackage name directory depth).on p = (.error fault, q)) :
    survey.listing directory = .error fault ∧ q.store = p.store ∧
      q.calls = p.calls ++ [.manifest directory] := by
  rw [openPackage_on] at h
  obtain ⟨hfault, rfl⟩ := Prod.mk.inj h
  cases hlisting : survey.listing directory with
  | error fault =>
      refine ⟨by simpa [hlisting, Except.map] using hfault, rfl, ?_⟩
      rw [Progress.calls_extend, calls_openingEvents, calls_settleOpening]
  | ok names => simp [hlisting, Except.map] at hfault

/-! ## Descending into a package -/

/-- What happens when the dependencies of a package in a state are to be visited. -/
def descentEvents (survey : Survey) (name : String) (state : PackageState) : List Event :=
  if state.needsDescent then
    .call (.locate name) ::
        (survey.surroundings.locate name survey.options.resolvePath).log.map .record ++
      match survey.directoryFor name with
      | .ok directory => survey.openingEvents directory
      | .error _ => []
  else []

/-- A package that has a verdict keeps it when it is descended into. -/
theorem descend_on (survey : Survey) {name : String} {p : Progress}
    (hknown : p.store.verdict? name ≠ none) (state : PackageState) (depth : Int) :
    (survey.descend name state depth).on p =
      ((survey.descent name state).map (Option.map (⟨·, depth + 1⟩)),
        p.extend (survey.descentEvents name state)) := by
  unfold descend descent descentEvents
  by_cases hstate : state.needsDescent = true
  · simp only [hstate, if_true]
    rw [Run.on_bind, Run.on_ask]
    cases hdirectory : survey.directoryFor name with
    | error fault =>
        rw [directoryFor] at hdirectory
        simp [hdirectory, bind, Except.bind, Except.map]
    | ok directory =>
        have hresult := hdirectory
        rw [directoryFor] at hresult
        have hopen := survey.openPackage_on name directory (depth + 1)
        simp only [hresult, hopen, bind, Except.bind]
        rw [Progress.settleOpening_of_known _
          (show (p.extend _).store.verdict? name ≠ none from hknown), Progress.extend_extend]
  · simp only [hstate]
    rfl

/-! ## Visiting -/

theorem visit_on_of_known (survey : Survey) {name : String} {verdict : Verdict} {p : Progress}
    (h : p.store.verdict? name = some verdict) (depth : Int) :
    (survey.visit name depth).on p =
      (.ok none, p.extend (survey.announcement name verdict depth)) := by
  have hget : p.store.get? name = some verdict.state := by simp [Store.get?, h]
  unfold visit
  rw [Run.on_bind_of_ok _ (Run.on_get p)]
  simp only [hget]
  rw [Run.on_bind_of_ok _ (survey.announce_on h depth), Run.on_pure]

/-- What happens when a package without a verdict is visited. -/
def visitEvents (survey : Survey) (name : String) (depth : Int) : List Event :=
  (survey.inquire name).journal ++
    match (survey.inquire name).result with
    | .error _ => []
    | .ok (entry, verdict) =>
        .record ⟨.debug, .classifier,
            s!"Classified {name} as {verdict.state.text} ({entryText entry})"⟩ ::
          survey.announcement name verdict depth ++ survey.descentEvents name verdict.state

theorem classify_on_of_fresh (survey : Survey) {name : String} {p : Progress}
    (hfresh : p.store.verdict? name = none) (entry : Option Path) (depth : Int) :
    (survey.classify name entry depth).on p =
      match (survey.evaluate entry).result with
      | .error fault => (.error fault, p.extend (survey.evaluate entry).journal)
      | .ok verdict => (.ok verdict.state, (p.settle name verdict).extend
          ((survey.evaluate entry).journal ++ .record ⟨.debug, .classifier,
            s!"Classified {name} as {verdict.state.text} ({entryText entry})"⟩ ::
            survey.announcement name verdict depth)) := by
  have hget : p.store.get? name = none := by simp [Store.get?, hfresh]
  have hevaluate := (survey.blind_evaluate entry).on_eq p
  unfold classify
  rw [Run.on_bind_of_ok _ (Run.on_get p)]
  simp only [hget]
  unfold classifyNew
  cases hresult : (survey.evaluate entry).result with
  | error fault => rw [Run.on_bind_of_error _ (hresult ▸ hevaluate)]
  | ok verdict =>
      rw [Run.on_bind_of_ok _ (hresult ▸ hevaluate), Run.on_bind_of_ok _ (Run.on_modify _ _),
        Run.on_bind_of_ok _ (Run.on_write _ _ _ _)]
      have hrecorded : (p.store.record name verdict).verdict? name = some verdict := by
        simp [Store.verdict?_record, hfresh]
      have hannounce : ∀ q : Progress, q.store = p.store.record name verdict →
          (survey.announce name verdict.state depth).on q =
            (.ok (), q.extend (survey.announcement name verdict depth)) :=
        fun q hq => survey.announce_on (hq ▸ hrecorded) depth
      rw [Run.on_bind_of_ok _ (hannounce _ rfl)]
      simp [Progress.settle, Progress.extend]

theorem classify_on_of_known (survey : Survey) {name : String} {verdict : Verdict} {p : Progress}
    (h : p.store.verdict? name = some verdict) (entry : Option Path) (depth : Int) :
    (survey.classify name entry depth).on p =
      (.ok verdict.state, p.extend (survey.announcement name verdict depth)) := by
  have hget : p.store.get? name = some verdict.state := by simp [Store.get?, h]
  unfold classify
  rw [Run.on_bind_of_ok _ (Run.on_get p)]
  simp only [hget]
  rw [Run.on_bind_of_ok _ (survey.announce_on h depth), Run.on_pure]

/-- A package without a verdict that is judged has the verdict that its entry leads to. -/
theorem exists_of_classify_fresh {survey : Survey} {name : String} {entry : Option Path}
    {depth : Int} {p q : Progress} {state : PackageState} (hfresh : p.store.verdict? name = none)
    (h : (survey.classify name entry depth).on p = (.ok state, q)) :
    ∃ verdict, (survey.evaluate entry).result = .ok verdict ∧
      q = (p.settle name verdict).extend
        ((survey.evaluate entry).journal ++ .record ⟨.debug, .classifier,
          s!"Classified {name} as {verdict.state.text} ({entryText entry})"⟩ ::
          survey.announcement name verdict depth) := by
  rw [survey.classify_on_of_fresh hfresh] at h
  cases hresult : (survey.evaluate entry).result with
  | error fault => simp [hresult] at h
  | ok verdict =>
      rw [hresult] at h
      obtain ⟨_, rfl⟩ := Prod.mk.inj h
      exact ⟨verdict, rfl, rfl⟩

/-- A package that was judged has a verdict. -/
theorem mem_names_of_classify {survey : Survey} {name : String} {entry : Option Path}
    {depth : Int} {p q : Progress} {state : PackageState}
    (h : (survey.classify name entry depth).on p = (.ok state, q)) : name ∈ q.store.names := by
  cases hverdict : p.store.verdict? name with
  | some verdict =>
      rw [survey.classify_on_of_known hverdict] at h
      obtain ⟨_, rfl⟩ := Prod.mk.inj h
      exact Store.mem_names_of_verdict? hverdict
  | none =>
      obtain ⟨verdict, -, rfl⟩ := exists_of_classify_fresh hverdict h
      simp [Store.names, Store.entries_record_of_fresh verdict hverdict]

/-- The visit of a package that has no verdict does the same whatever was done before. -/
theorem visit_on_of_fresh (survey : Survey) {name : String} {p : Progress}
    (hfresh : p.store.verdict? name = none) (depth : Int) :
    (survey.visit name depth).on p =
      ((survey.expansion name).map (Option.map (⟨·, depth + 1⟩)),
        (p.settleBy name (survey.finding name)).extend (survey.visitEvents name depth)) := by
  have hget : p.store.get? name = none := by simp [Store.get?, hfresh]
  have hentry := (survey.blind_entryOf name).on_eq p
  have hfresh' : (p.extend (survey.entryOf name).journal).store.verdict? name = none := hfresh
  unfold visit visitNew expansion visitEvents
  rw [Run.on_bind_of_ok _ (Run.on_get p)]
  simp only [hget]
  cases hresolved : (survey.entryOf name).result with
  | error fault =>
      obtain ⟨hresult, hjournal⟩ := survey.inquire_of_entry_fault hresolved
      rw [Run.on_bind_of_error _ (hresolved ▸ hentry), finding, hresult, hjournal]
      simp [Except.map, bind, Except.bind, Progress.settleBy]
  | ok entry =>
      obtain ⟨hresult, hjournal⟩ := survey.inquire_of_entry hresolved
      rw [Run.on_bind_of_ok _ (hresolved ▸ hentry), Run.on_bind,
        survey.classify_on_of_fresh hfresh', finding, hresult, hjournal]
      cases (survey.evaluate entry).result with
      | error fault => simp [Except.map, bind, Except.bind, Progress.settleBy]
      | ok verdict =>
          have hknown : (p.store.record name verdict).verdict? name ≠ none := by
            simp [Store.verdict?_record, hfresh]
          simp only [Except.map, bind, Except.bind, Progress.settleBy]
          rw [survey.descend_on hknown]
          simp [Progress.settle, Progress.extend, Except.map]

theorem calls_settleBy (p : Progress) (name : String) (finding : Except Fault Verdict) :
    (p.settleBy name finding).calls = p.calls := by
  cases finding <;> rfl

/-- How deep a package is visited makes no difference to what is asked for. -/
theorem calls_visitEvents (survey : Survey) (name : String) (depth : Int) :
    (survey.visitEvents name depth).filterMap Event.call? = survey.callsFor name := by
  have hdepth : (survey.visitEvents name depth).filterMap Event.call? =
      (survey.visitEvents name 0).filterMap Event.call? := by
    unfold visitEvents
    cases (survey.inquire name).result with
    | error fault => rfl
    | ok found =>
        simp only [List.filterMap_append, List.filterMap_cons, Event.call?, calls_announcement]
  rw [callsFor, survey.visit_on_of_fresh rfl, Progress.calls_extend, calls_settleBy, hdepth]
  rfl

/-! ## What a visit can do -/

/-- A visit that yields leaves a known package alone, or records the verdict on a new one and
yields what its dependencies are. -/
theorem visit_ok {survey : Survey} {name : String} {depth : Int} {p q : Progress}
    {frame : Option Frame} (h : (survey.visit name depth).on p = (.ok frame, q)) :
    (name ∈ p.store.names ∧ frame = none ∧ q.store = p.store ∧ q.calls = p.calls) ∨
      (name ∉ p.store.names ∧ q.calls = p.calls ++ survey.callsFor name ∧
        (∃ verdict, survey.finding name = .ok verdict ∧
          q.store.entries = p.store.entries ++ [(name, verdict)]) ∧
        ∃ names, survey.expansion name = .ok names ∧ frame = names.map (⟨·, depth + 1⟩)) := by
  cases hverdict : p.store.verdict? name with
  | some verdict =>
      rw [survey.visit_on_of_known hverdict] at h
      obtain ⟨hframe, rfl⟩ := Prod.mk.inj h
      exact .inl ⟨Store.mem_names_of_verdict? hverdict, (Except.ok.inj hframe).symm, rfl, by simp⟩
  | none =>
      rw [survey.visit_on_of_fresh hverdict] at h
      obtain ⟨hframe, rfl⟩ := Prod.mk.inj h
      refine .inr ⟨Store.verdict?_eq_none_iff.mp hverdict, ?_, ?_, ?_⟩
      · rw [Progress.calls_extend, calls_settleBy, calls_visitEvents]
      · cases hfinding : survey.finding name with
        | error fault => simp [expansion, hfinding, bind, Except.bind, Except.map] at hframe
        | ok verdict =>
            exact ⟨verdict, rfl, Store.entries_record_of_fresh verdict hverdict⟩
      · cases hexpansion : survey.expansion name with
        | error fault => simp [hexpansion, Except.map] at hframe
        | ok names => exact ⟨names, rfl, by simpa [hexpansion, Except.map, eq_comm] using hframe⟩

/-- A visit that a fault ends was the visit of a new package. -/
theorem visit_error {survey : Survey} {name : String} {depth : Int} {p q : Progress}
    {fault : Fault} (h : (survey.visit name depth).on p = (.error fault, q)) :
    name ∉ p.store.names ∧ survey.expansion name = .error fault ∧
      q.calls = p.calls ++ survey.callsFor name ∧
      q.store = (p.settleBy name (survey.finding name)).store := by
  cases hverdict : p.store.verdict? name with
  | some verdict => simp [survey.visit_on_of_known hverdict] at h
  | none =>
      rw [survey.visit_on_of_fresh hverdict] at h
      obtain ⟨hfault, rfl⟩ := Prod.mk.inj h
      refine ⟨Store.verdict?_eq_none_iff.mp hverdict, ?_, ?_, rfl⟩
      · cases hexpansion : survey.expansion name with
        | error fault => simpa [hexpansion, Except.map] using hfault
        | ok names => simp [hexpansion, Except.map] at hfault
      · rw [Progress.calls_extend, calls_settleBy, calls_visitEvents]

/-! ## Surveys that fail only as expected -/

/-- Everything that a survey asks for is answered, by a result or by an expected failure. -/
structure Reliable (survey : Survey) : Prop where
  /-- a manifest is there, or it cannot be read -/
  manifest : ∀ directory, ∃ answer, (survey.surroundings.manifest directory).result = .ok answer
  /-- a name has an entry or none -/
  resolve : ∀ name, ∃ answer,
    (survey.surroundings.resolve name survey.options.resolvePath).result = .ok answer
  /-- a name has a directory -/
  locate : ∀ name, ∃ directory, survey.directoryFor name = .ok directory
  /-- a script is there, or it cannot be read -/
  read : ∀ path, ∃ answer, (survey.surroundings.read path).result = .ok answer
  /-- a script that is there conforms, or does not, or is given up -/
  validate : ∀ path source, (survey.surroundings.read path).result = .ok (.ok source) →
    survey.surroundings.validate source survey.options.edition ≠ .error .templateWithoutHead

variable {survey : Survey}

theorem exists_listing (h : survey.Reliable) (directory : Path) :
    ∃ names, survey.listing directory = .ok names := by
  obtain ⟨answer, hanswer⟩ := h.manifest directory
  exact ⟨_, by rw [listing, hanswer]; rfl⟩

theorem exists_result_entryOf (h : survey.Reliable) (name : String) :
    ∃ entry, (survey.entryOf name).result = .ok entry := by
  obtain ⟨answer, hanswer⟩ := h.resolve name
  rw [Run.result, entryOf, Run.on_bind, Run.on_ask, hanswer]
  cases answer with
  | error failure => exact ⟨none, rfl⟩
  | ok entry => exact ⟨some entry, rfl⟩

theorem exists_result_judge (h : survey.Reliable) (path : Path) :
    ∃ verdict, (survey.judge path).result = .ok verdict := by
  obtain ⟨answer, hanswer⟩ := h.read path
  rw [Run.result, judge, Run.on_bind, Run.on_ask, hanswer]
  cases answer with
  | error failure => exact ⟨.unreadable, rfl⟩
  | ok source =>
      simp only [Run.on_bind_of_ok _ (Run.on_emit _ _)]
      have hvalidate := h.validate path source hanswer
      rcases hjudgement : survey.surroundings.validate source survey.options.edition with
        (diagnostic | _ | _) | _
      · exact ⟨.incompatible (some diagnostic), rfl⟩
      · exact ⟨.unreadable, rfl⟩
      · exact absurd hjudgement hvalidate
      · exact ⟨.compatible, rfl⟩

theorem exists_result_evaluate (h : survey.Reliable) (entry : Option Path) :
    ∃ verdict, (survey.evaluate entry).result = .ok verdict := by
  cases entry with
  | none => exact ⟨.unreadable, rfl⟩
  | some path =>
      by_cases hsource : isNonSource path = true
      · rw [evaluate, if_pos hsource]
        exact ⟨.nonSource, rfl⟩
      · rw [evaluate, if_neg hsource]
        exact exists_result_judge h path

theorem exists_finding (h : survey.Reliable) (name : String) :
    ∃ verdict, survey.finding name = .ok verdict := by
  obtain ⟨entry, hentry⟩ := exists_result_entryOf h name
  obtain ⟨verdict, hverdict⟩ := exists_result_evaluate h entry
  exact ⟨verdict, by rw [finding, (survey.inquire_of_entry hentry).1, hverdict]; rfl⟩

theorem exists_expansion (h : survey.Reliable) (name : String) :
    ∃ names, survey.expansion name = .ok names := by
  obtain ⟨verdict, hverdict⟩ := exists_finding h name
  obtain ⟨directory, hdirectory⟩ := h.locate name
  obtain ⟨names, hnames⟩ := exists_listing h directory
  rw [expansion, hverdict]
  show ∃ names, survey.descent name verdict.state = .ok names
  unfold descent
  split
  · exact ⟨names, by rw [hdirectory]; exact hnames⟩
  · exact ⟨none, rfl⟩

end Survey

end EditionSurvey
