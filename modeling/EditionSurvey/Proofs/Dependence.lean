/-
  Proofs/Dependence.lean --- what a walk depends on.

  What a walk finds, prints and asks for depends on the manifest of its start, on the entries of
  the names that it records and how these are read and judged, and on the directories and
  manifests of those that it records as unreadable.  It depends on no other answer
  (`walk_depends_on`): two surroundings that agree on these may differ everywhere else.

  The agreement is on what the first walk records, and this is known only when it is over.  The
  proof goes through the loop with the last store in view: a name that is visited anew has its
  verdict in there, because verdicts stay.  Only a name that a fault keeps from being judged has
  none; there the walk ends.  What is written to the log is left out, because the records that
  come with an answer are no part of it.
-/
import EditionSurvey.Proofs.Catalog
import EditionSurvey.Proofs.Inquiry
import EditionSurvey.Proofs.Lockstep

set_option autoImplicit false

namespace EditionSurvey

/-! ## What happens besides the log -/

/-- Whether an event is no log record. -/
def Event.isVisible : Event → Bool
  | .record _ => false
  | _ => true

/-- The events that are no log records. -/
def visible (events : List Event) : List Event := events.filter Event.isVisible

@[simp] theorem visible_nil : visible [] = [] := rfl

@[simp] theorem visible_append (first next : List Event) :
    visible (first ++ next) = visible first ++ visible next :=
  List.filter_append ..

@[simp] theorem visible_record (record : LogRecord) (events : List Event) :
    visible (.record record :: events) = visible events := rfl

@[simp] theorem visible_call (call : Call) (events : List Event) :
    visible (.call call :: events) = .call call :: visible events := rfl

@[simp] theorem visible_records (log : List LogRecord) : visible (log.map .record) = [] := by
  simp [visible, List.filter_map, Function.comp_def, Event.isVisible]

theorem filterMap_visible {α : Type} {pick : Event → Option α}
    (hpick : ∀ record, pick (.record record) = none) (events : List Event) :
    (visible events).filterMap pick = events.filterMap pick := by
  induction events with
  | nil => rfl
  | cons event rest ih =>
      cases event with
      | record record => rw [visible_record, ih, List.filterMap_cons_none (hpick record)]
      | call call => rw [visible_call, List.filterMap_cons, List.filterMap_cons, ih]
      | line text =>
          show (Event.line text :: visible rest).filterMap pick = _
          rw [List.filterMap_cons, List.filterMap_cons, ih]

/-- Progress with the same store, and with the same events in the same order apart from the
log. -/
structure Progress.Echoes (p q : Progress) : Prop where
  /-- the same verdicts -/
  store : q.store = p.store
  /-- the same calls and lines -/
  visible : visible q.events = visible p.events

namespace Progress.Echoes

variable {p q : Progress}

theorem refl (p : Progress) : p.Echoes p := ⟨rfl, rfl⟩

theorem lines (h : p.Echoes q) : q.lines = p.lines := by
  rw [Progress.lines, ← filterMap_visible (fun _ => rfl), h.visible,
    filterMap_visible (fun _ => rfl), Progress.lines]

theorem calls (h : p.Echoes q) : q.calls = p.calls := by
  rw [Progress.calls, ← filterMap_visible (fun _ => rfl), h.visible,
    filterMap_visible (fun _ => rfl), Progress.calls]

theorem settleBy (h : p.Echoes q) (name : String) (finding : Except Fault Verdict) :
    (p.settleBy name finding).Echoes (q.settleBy name finding) := by
  cases finding with
  | error fault => exact h
  | ok verdict => exact ⟨by simp [Progress.settleBy, h.store], h.visible⟩

theorem extend (h : p.Echoes q) {events others : List Event}
    (hevents : EditionSurvey.visible others = EditionSurvey.visible events) :
    (p.extend events).Echoes (q.extend others) := by
  refine ⟨h.store, ?_⟩
  rw [Progress.events_extend, Progress.events_extend, visible_append, visible_append, h.visible,
    hevents]

end Progress.Echoes

namespace Run

variable {α : Type}

/-- Parts that do not look back and are in lockstep yield the same and do the same apart from
the log. -/
theorem Lockstep.echoed {first second : Run α} (h : Lockstep Progress.Echoes Eq first second) :
    second.result = first.result ∧ visible second.journal = visible first.journal :=
  have hboth := h {} {} (.refl {})
  ⟨hboth.1.eq.symm, hboth.2.visible⟩

end Run

namespace Survey

/-! ## Agreement -/

/-- The survey with other surroundings. -/
def relyingOn (survey : Survey) (theirs : Surroundings) : Survey :=
  { survey with surroundings := theirs }

variable {survey : Survey} {theirs : Surroundings}

/-- Other surroundings give a name the same entry, and read and judge it in the same way.  An
entry that is no script is neither read nor judged. -/
structure AgreesOnEntry (survey : Survey) (theirs : Surroundings) (name : String) : Prop where
  /-- the same entry -/
  resolve : (theirs.resolve name survey.options.resolvePath).result =
    (survey.surroundings.resolve name survey.options.resolvePath).result
  /-- the same text -/
  read : ∀ path, (survey.surroundings.resolve name survey.options.resolvePath).result =
      .ok (.ok path) → isNonSource path = false →
    (theirs.read path).result = (survey.surroundings.read path).result
  /-- the same judgement -/
  validate : ∀ path, (survey.surroundings.resolve name survey.options.resolvePath).result =
      .ok (.ok path) → isNonSource path = false →
    ∀ source, (survey.surroundings.read path).result = .ok (.ok source) →
      theirs.validate source survey.options.edition =
        survey.surroundings.validate source survey.options.edition

/-- Other surroundings give a name the same directory, and the same manifest there. -/
structure AgreesOnDescent (survey : Survey) (theirs : Surroundings) (name : String) : Prop where
  /-- the same directory -/
  locate : (theirs.locate name survey.options.resolvePath).result =
    (survey.surroundings.locate name survey.options.resolvePath).result
  /-- the same manifest -/
  manifest : ∀ directory, survey.directoryFor name = .ok directory →
    (theirs.manifest directory).result = (survey.surroundings.manifest directory).result

/-- Other surroundings agree on all that a walk from a start depends on that records what one
store has more than another and ends with a result. -/
structure AgreesAlong (survey : Survey) (theirs : Surroundings) (start : Path)
    (before after : Store) (result : Except Fault Unit) : Prop where
  /-- the same manifest of the start -/
  start : (theirs.manifest start).result = (survey.surroundings.manifest start).result
  /-- what is recorded is judged in the same way -/
  entry : ∀ name ∈ after.names, name ∉ before.names → survey.AgreesOnEntry theirs name
  /-- what is recorded as unreadable is opened in the same way -/
  descent : ∀ name, after.verdict? name = some .unreadable → name ∉ before.names →
    survey.AgreesOnDescent theirs name
  /-- what cannot be judged for the fault that ends the walk meets the same fault -/
  faulted : ∀ name fault, result = .error fault → survey.finding name = .error fault →
    survey.AgreesOnEntry theirs name

/-! ## One name -/

theorem entryOf_echoed {name : String} (h : survey.AgreesOnEntry theirs name) :
    Run.Lockstep Progress.Echoes Eq (survey.entryOf name)
      ((survey.relyingOn theirs).entryOf name) := by
  refine Run.lockstep_bind (Run.lockstep_ask (.of_eq h.resolve.symm)
    fun _ _ hechoes => hechoes.extend (by simp)) ?_
  rintro (failure | entry) _ rfl
  · exact Run.lockstep_bind (Run.lockstep_emit fun _ _ hechoes => hechoes.extend rfl)
      fun _ _ _ => Run.lockstep_pure rfl
  · exact Run.lockstep_pure rfl

theorem verdictOf_echoed (path : Path) (judgement : Except Script.Refusal Unit) :
    Run.Lockstep Progress.Echoes Eq (verdictOf path judgement) (verdictOf path judgement) :=
  Run.lockstep_of_blind (blind_verdictOf _ _) (blind_verdictOf _ _) (.of_eq rfl)
    fun _ _ hechoes => hechoes.extend rfl

theorem judge_echoed {path : Path}
    (hread : (theirs.read path).result = (survey.surroundings.read path).result)
    (hvalidate : ∀ source, (survey.surroundings.read path).result = .ok (.ok source) →
      theirs.validate source survey.options.edition =
        survey.surroundings.validate source survey.options.edition) :
    Run.Lockstep Progress.Echoes Eq (survey.judge path)
      ((survey.relyingOn theirs).judge path) := by
  have hask : Run.Lockstep Progress.Echoes Eq
      (Run.ask (.read path) (survey.surroundings.read path))
      (Run.ask (.read path) (theirs.read path)) :=
    Run.lockstep_ask (.of_eq hread.symm) fun _ _ hechoes => hechoes.extend (by simp)
  refine Run.lockstep_bind (hask.with_result (Run.blind_ask _ _)) ?_
  rintro (failure | source) _ ⟨rfl, hsource⟩
  · exact Run.lockstep_bind (Run.lockstep_emit fun _ _ hechoes => hechoes.extend rfl)
      fun _ _ _ => Run.lockstep_pure rfl
  · refine Run.lockstep_bind (Run.lockstep_emit fun _ _ hechoes => hechoes.extend rfl)
      fun _ _ _ => ?_
    show Run.Lockstep _ _ _ (verdictOf path (theirs.validate source survey.options.edition))
    rw [hvalidate source (by simpa [Run.result] using hsource)]
    exact verdictOf_echoed path _

theorem evaluate_echoed {name : String} (h : survey.AgreesOnEntry theirs name)
    {entry : Option Path} (hentry : (survey.entryOf name).result = .ok entry) :
    Run.Lockstep Progress.Echoes Eq (survey.evaluate entry)
      ((survey.relyingOn theirs).evaluate entry) := by
  cases entry with
  | none => exact Run.lockstep_pure rfl
  | some path =>
      have hresolve := resolve_of_entryOf hentry
      rw [evaluate, evaluate]
      by_cases hsource : isNonSource path = true
      · rw [if_pos hsource, if_pos hsource]
        exact Run.lockstep_pure rfl
      · rw [if_neg hsource, if_neg hsource]
        rw [Bool.not_eq_true] at hsource
        exact judge_echoed (h.read path hresolve hsource) (h.validate path hresolve hsource)

/-- A name comes to the same verdict in the same way. -/
theorem inquire_echoed {name : String} (h : survey.AgreesOnEntry theirs name) :
    ((survey.relyingOn theirs).inquire name).result = (survey.inquire name).result ∧
      visible ((survey.relyingOn theirs).inquire name).journal =
        visible (survey.inquire name).journal := by
  refine Run.Lockstep.echoed ?_
  refine Run.lockstep_bind ((entryOf_echoed h).with_result (survey.blind_entryOf name)) ?_
  rintro entry _ ⟨rfl, hentry⟩
  refine Run.lockstep_bind (evaluate_echoed h hentry) ?_
  rintro verdict _ rfl
  exact Run.lockstep_pure rfl

theorem finding_echoed {name : String} (h : survey.AgreesOnEntry theirs name) :
    (survey.relyingOn theirs).finding name = survey.finding name := by
  rw [finding, finding, (inquire_echoed h).1]

theorem listing_echoed {directory : Path}
    (h : (theirs.manifest directory).result = (survey.surroundings.manifest directory).result) :
    (survey.relyingOn theirs).listing directory = survey.listing directory := by
  show (theirs.manifest directory).result.map _ = _
  rw [h]
  rfl

/-- Apart from the log, opening a package is asking for its manifest. -/
theorem visible_openingEvents (survey : Survey) (directory : Path) :
    visible (survey.openingEvents directory) = [.call (.manifest directory)] := by
  unfold openingEvents
  split <;> simp

theorem descent_echoed {name : String} (h : survey.AgreesOnDescent theirs name)
    (state : PackageState) :
    (survey.relyingOn theirs).descent name state = survey.descent name state := by
  have hdirectory : (survey.relyingOn theirs).directoryFor name = survey.directoryFor name :=
    h.locate
  rw [descent, descent, hdirectory]
  cases hfound : survey.directoryFor name with
  | error fault => rfl
  | ok directory =>
      have hlisting := listing_echoed (h.manifest directory hfound)
      split
      · exact hlisting
      · rfl

theorem descentEvents_echoed {name : String} (h : survey.AgreesOnDescent theirs name)
    (state : PackageState) :
    visible ((survey.relyingOn theirs).descentEvents name state) =
      visible (survey.descentEvents name state) := by
  have hdirectory : (survey.relyingOn theirs).directoryFor name = survey.directoryFor name :=
    h.locate
  rw [descentEvents, descentEvents, hdirectory]
  split
  · cases survey.directoryFor name <;> simp [visible_openingEvents]
  · rfl

/-! ## One visit -/

/-- Other surroundings agree on all that the visit of a new name depends on.  A verdict that needs
no descent leads nowhere, so nothing more is to be agreed on then. -/
structure AgreesOnVisit (survey : Survey) (theirs : Surroundings) (name : String) : Prop where
  /-- the same judgement, or the same fault -/
  entry : survey.AgreesOnEntry theirs name
  /-- the same dependencies, if these are visited -/
  descent : survey.finding name = .ok .unreadable → survey.AgreesOnDescent theirs name

theorem AgreesOnVisit.descent_echoed {name : String} {verdict : Verdict}
    (h : survey.AgreesOnVisit theirs name) (hfinding : survey.finding name = .ok verdict) :
    (survey.relyingOn theirs).descent name verdict.state =
        survey.descent name verdict.state ∧
      visible ((survey.relyingOn theirs).descentEvents name verdict.state) =
        visible (survey.descentEvents name verdict.state) := by
  by_cases hverdict : verdict = .unreadable
  · have hdescent := h.descent (hverdict ▸ hfinding)
    exact ⟨Survey.descent_echoed hdescent _, descentEvents_echoed hdescent _⟩
  · have hstate : ¬verdict.state.needsDescent = true :=
      fun h => hverdict (needsDescent_state_iff.mp h)
    simp [Survey.descent, descentEvents, hstate]

theorem expansion_echoed {name : String} (h : survey.AgreesOnVisit theirs name) :
    (survey.relyingOn theirs).expansion name = survey.expansion name := by
  rw [expansion, expansion, finding_echoed h.entry]
  cases hfinding : survey.finding name with
  | error fault => rfl
  | ok verdict => exact (h.descent_echoed hfinding).1

theorem visitEvents_echoed {name : String} (h : survey.AgreesOnVisit theirs name) (depth : Int) :
    visible ((survey.relyingOn theirs).visitEvents name depth) =
      visible (survey.visitEvents name depth) := by
  obtain ⟨hresult, hjournal⟩ := inquire_echoed h.entry
  rw [visitEvents, visitEvents, hresult]
  cases hinquired : (survey.inquire name).result with
  | error fault => simp only [visible_append, hjournal]
  | ok found =>
      obtain ⟨entry, verdict⟩ := found
      have hfinding : survey.finding name = .ok verdict := by
        rw [finding, hinquired]
        rfl
      have hannouncement : (survey.relyingOn theirs).announcement name verdict depth =
          survey.announcement name verdict depth := rfl
      simp only [visible_append, visible_record, List.cons_append, hjournal, hannouncement,
        (h.descent_echoed hfinding).2]

theorem visit_echoed {name : String} {p q : Progress} (hechoes : p.Echoes q)
    (hfresh : p.store.verdict? name = none → survey.AgreesOnVisit theirs name) (depth : Int) :
    (((survey.relyingOn theirs).visit name depth).on q).1 = ((survey.visit name depth).on p).1 ∧
      Progress.Echoes ((survey.visit name depth).on p).2
        (((survey.relyingOn theirs).visit name depth).on q).2 := by
  have hstore := hechoes.store
  cases hverdict : p.store.verdict? name with
  | some verdict =>
      rw [visit_on_of_known _ hverdict, visit_on_of_known _ (hstore ▸ hverdict)]
      exact ⟨rfl, hechoes.extend rfl⟩
  | none =>
      have hagrees := hfresh hverdict
      rw [visit_on_of_fresh _ hverdict, visit_on_of_fresh _ (hstore ▸ hverdict),
        expansion_echoed hagrees, finding_echoed hagrees.entry]
      exact ⟨rfl, (hechoes.settleBy name _).extend (visitEvents_echoed hagrees depth)⟩

/-! ## Walks -/

/-- A visit from verdicts that a walk had is one that the surroundings agree on, if the walk has
the verdicts of the visit in the end, and ends with its fault if it has one. -/
theorem AgreesAlong.visit {start : Path} {before after : Store} {result : Except Fault Unit}
    {name : String} {depth : Int} {p now : Progress} {outcome : Except Fault (Option Frame)}
    (hagrees : survey.AgreesAlong theirs start before after result)
    (hvisit : (survey.visit name depth).on p = (outcome, now))
    (hbefore : before.names ⊆ p.store.names) (hafter : now.store.entries ⊆ after.entries)
    (hended : ∀ fault, outcome = .error fault → result = .error fault)
    (hfresh : p.store.verdict? name = none) : survey.AgreesOnVisit theirs name := by
  rw [survey.visit_on_of_fresh hfresh] at hvisit
  obtain ⟨rfl, rfl⟩ := Prod.mk.inj hvisit
  cases hfinding : survey.finding name with
  | error fault =>
      have hresult : result = .error fault := hended fault (by rw [expansion, hfinding]; rfl)
      exact ⟨hagrees.faulted name fault hresult hfinding, fun h => by cases hfinding.symm.trans h⟩
  | ok verdict =>
      have hnew : name ∉ before.names := fun hold =>
        Store.verdict?_eq_none_iff.mp hfresh (hbefore hold)
      have hrecorded : after.verdict? name = some verdict := by
        refine Store.verdict?_eq_some_iff.mpr (hafter ?_)
        rw [hfinding]
        show _ ∈ (p.store.record name verdict).entries
        simp [Store.entries_record_of_fresh verdict hfresh]
      refine ⟨hagrees.entry name (Store.mem_names_of_verdict? hrecorded) hnew, ?_⟩
      intro hunreadable
      obtain rfl : verdict = .unreadable := by simpa [hfinding] using hunreadable
      exact hagrees.descent name hrecorded hnew

/-- The loop in both surroundings, when they agree on what it has recorded in the end. -/
theorem walkFrames_echoed {start : Path} {before after : Store} {result : Except Fault Unit}
    (hagrees : survey.AgreesAlong theirs start before after result) (fuel : Nat) :
    ∀ (stack : List Frame) (p q last : Progress), p.Echoes q → before.names ⊆ p.store.names →
      (survey.walkFrames fuel stack).on p = (result, last) → last.store = after →
      (((survey.relyingOn theirs).walkFrames fuel stack).on q).1 = result ∧
        Progress.Echoes last (((survey.relyingOn theirs).walkFrames fuel stack).on q).2 := by
  induction fuel with
  | zero =>
      intro stack p q last hechoes _ hwalk _
      cases stack <;> obtain ⟨rfl, rfl⟩ := Prod.mk.inj hwalk <;> exact ⟨rfl, hechoes⟩
  | succ fuel ih =>
      intro stack p q last hechoes hbefore hwalk hafter
      match stack with
      | [] =>
          obtain ⟨rfl, rfl⟩ := Prod.mk.inj hwalk
          exact ⟨rfl, hechoes⟩
      | ⟨[], _⟩ :: rest => exact ih rest p q last hechoes hbefore hwalk hafter
      | ⟨name :: names, depth⟩ :: rest =>
          rw [walkFrames] at hwalk
          rw [walkFrames]
          rcases hvisit : (survey.visit name depth).on p with ⟨fault | opened, now⟩
          · rw [Run.on_bind_of_error _ hvisit] at hwalk
            obtain ⟨rfl, rfl⟩ := Prod.mk.inj hwalk
            have hagreed := hagrees.visit hvisit hbefore (hafter ▸ List.Subset.refl _)
              (fun _ heq => by cases heq; rfl)
            obtain ⟨houtcome, hlater⟩ := visit_echoed hechoes hagreed depth
            rcases hother : ((survey.relyingOn theirs).visit name depth).on q with ⟨_, later⟩
            rw [hvisit, hother] at houtcome hlater
            obtain rfl := houtcome
            rw [Run.on_bind_of_error _ hother]
            exact ⟨rfl, hlater⟩
          · rw [Run.on_bind_of_ok _ hvisit] at hwalk
            -- what the visit recorded is still there when the loop ends
            obtain ⟨_, hnext⟩ := survey.exists_inquired_walkFrames fuel
              (opened.toList ++ ⟨names, depth⟩ :: rest) now
            obtain ⟨_, hkept⟩ := (Inquired.refl rfl rfl).visit hvisit
            rw [hwalk] at hnext
            have hagreed := hagrees.visit hvisit hbefore (hafter ▸ hnext.kept)
              (fun _ heq => by cases heq)
            obtain ⟨houtcome, hlater⟩ := visit_echoed hechoes hagreed depth
            rcases hother : ((survey.relyingOn theirs).visit name depth).on q with ⟨_, later⟩
            rw [hvisit, hother] at houtcome hlater
            obtain rfl := houtcome
            rw [Run.on_bind_of_ok _ hother]
            have hstill : before.names ⊆ now.store.names :=
              fun _ hold => List.map_subset _ hkept.kept (hbefore hold)
            exact ih _ now later last hlater hstill hwalk hafter

theorem walk_echoed {fuel : Nat} {root : String} {start : Path} {depth : Int} {p q : Progress}
    {result : Except Fault Unit}
    (hwalk : (survey.walk fuel root start depth).on p = (result, q))
    (hagrees : survey.AgreesAlong theirs start p.store q.store result) :
    (((survey.relyingOn theirs).walk fuel root start depth).on p).1 = result ∧
      Progress.Echoes q (((survey.relyingOn theirs).walk fuel root start depth).on p).2 := by
  have hlisting := listing_echoed hagrees.start
  have hechoes : ∀ names, Progress.Echoes
      ((p.settleOpening root names).extend (survey.openingEvents start))
      ((p.settleOpening root names).extend ((survey.relyingOn theirs).openingEvents start)) :=
    fun names => (Progress.Echoes.refl _).extend (by simp [visible_openingEvents])
  have hkept : ∀ names, p.store.names ⊆ (p.settleOpening root names).store.names := by
    intro names
    unfold Progress.settleOpening
    split
    · exact p.store.names_subset_record root .unreadable
    · exact List.Subset.refl _
  have hfirst := survey.openPackage_on root start depth p
  have hsecond := (survey.relyingOn theirs).openPackage_on root start depth p
  rw [hlisting] at hsecond
  unfold walk at hwalk ⊢
  cases hlisted : survey.listing start with
  | error fault =>
      rw [hlisted] at hfirst hsecond
      rw [Run.on_bind_of_error _ hfirst] at hwalk
      obtain ⟨rfl, rfl⟩ := Prod.mk.inj hwalk
      rw [Run.on_bind_of_error _ hsecond]
      exact ⟨rfl, hechoes _⟩
  | ok names =>
      rw [hlisted] at hfirst hsecond
      rw [Run.on_bind_of_ok _ hfirst] at hwalk
      rw [Run.on_bind_of_ok _ hsecond]
      exact walkFrames_echoed hagrees fuel _ _ _ q (hechoes _) (hkept _) hwalk rfl

/-- Two walks end in the same way, with the same verdicts and reasons, the same lines and the same
calls. -/
structure SameEnd (first second : Except Fault Unit × Progress) : Prop where
  /-- both yield, or the same fault ends both -/
  result : second.1 = first.1
  /-- the same names in the same order, with the same states and reasons -/
  store : second.2.store = first.2.store
  /-- the same lines -/
  lines : second.2.lines = first.2.lines
  /-- the same calls -/
  calls : second.2.calls = first.2.calls

/-- A walk is the same in other surroundings that agree on the manifest of its start, on the
entries of what it newly records and on what these are read and judged as, and on the directories
and manifests of what it newly records as unreadable.  If a fault ends the walk, a name that the
fault keeps from being judged is not recorded, and the surroundings have to agree on its entry,
too.  In particular all other manifests may be changed, however the walk ends. -/
theorem walk_depends_on (survey : Survey) (fuel : Nat) (root : String) (start : Path) (depth : Int)
    (p q : Progress) (result : Except Fault Unit)
    (hwalk : (survey.walk fuel root start depth).on p = (result, q)) :
    (∀ theirs, survey.AgreesAlong theirs start p.store q.store result →
      SameEnd (result, q) (((survey.relyingOn theirs).walk fuel root start depth).on p)) ∧
    ∀ manifest, (manifest start).result = (survey.surroundings.manifest start).result →
      (∀ name directory, q.store.verdict? name = some .unreadable → name ∉ p.store.names →
        survey.directoryFor name = .ok directory →
          (manifest directory).result = (survey.surroundings.manifest directory).result) →
      SameEnd (result, q)
        (((survey.relyingOn { survey.surroundings with manifest }).walk fuel root start depth).on
          p) := by
  have hagreed : ∀ theirs, survey.AgreesAlong theirs start p.store q.store result →
      SameEnd (result, q) (((survey.relyingOn theirs).walk fuel root start depth).on p) := by
    intro theirs hagrees
    obtain ⟨hresult, hechoes⟩ := walk_echoed hwalk hagrees
    exact ⟨hresult, hechoes.store, hechoes.lines, hechoes.calls⟩
  refine ⟨hagreed, fun manifest hstart hdescent => hagreed _ ⟨hstart, ?_, ?_, ?_⟩⟩
  · exact fun name _ _ => ⟨rfl, fun _ _ _ => rfl, fun _ _ _ _ _ => rfl⟩
  · intro name hunreadable hnew
    exact ⟨rfl, fun directory => hdescent name directory hunreadable hnew⟩
  · exact fun name _ _ _ => ⟨rfl, fun _ _ _ => rfl, fun _ _ _ _ _ => rfl⟩

/-- A catalog in which `app` needs `lib`, which has no entry and needs `leaf`, which has one. -/
def layered : Catalog where
  packages :=
    [("app", { dependencies := some ["lib"] }), ("lib", { dependencies := some ["leaf"] }),
      ("leaf", { entry := some "main.js", source := some "let x" })]

/-- A manifest for `leaf`, whose entry can be judged. -/
def leafManifest (directory : Path) : Logged (Except ManifestFailure Manifest) :=
  if directory = Catalog.directoryOf "leaf" then
    pure (.ok { dependencies := [("hidden", "*")] })
  else layered.surroundings.manifest directory

/-- Surroundings with this manifest, and with an entry for what it depends on. -/
def hiddenSurroundings : Surroundings :=
  { layered.surroundings with
    manifest := leafManifest
    resolve := fun name searchRoot =>
      if name = "hidden" then pure (.ok (Path.ofString "/hidden/main.js"))
      else layered.surroundings.resolve name searchRoot }

/-- The walk from `app` over the catalog in given surroundings. -/
def layeredWalk (theirs : Surroundings) : Run Unit :=
  ((layered.survey {}).relyingOn theirs).walk 9 "app" (Catalog.directoryOf "app") 0

/-- The walk does not come to what is hidden behind an entry that can be judged. -/
theorem layeredWalk_depends_on :
    ∃ q, (layeredWalk layered.surroundings).on {} = (.ok (), q) ∧ q.store.names = ["lib", "leaf"] ∧
      SameEnd (.ok (), q) ((layeredWalk hiddenSurroundings).on {}) ∧
      SameEnd (.ok (), q)
        ((layeredWalk { layered.surroundings with manifest := leafManifest }).on {}) := by
  have hwalk : (layeredWalk layered.surroundings).on {} =
      (.ok (), ((layeredWalk layered.surroundings).on {}).2) :=
    Run.on_eq_of_toOption (by decide +kernel)
  have hrecorded : ∀ entry ∈ ((layeredWalk layered.surroundings).on {}).2.store.entries,
      entry.1 ≠ "hidden" ∧ (entry.2 = .unreadable →
        Catalog.directoryOf entry.1 ≠ Catalog.directoryOf "leaf") := by decide +kernel
  have hnames : ((layeredWalk layered.surroundings).on {}).2.store.names = ["lib", "leaf"] := by
    decide +kernel
  generalize ((layeredWalk layered.surroundings).on {}).2 = q at hwalk hrecorded hnames
  obtain ⟨hagreed, hmanifest⟩ :=
    walk_depends_on (layered.survey {}) 9 "app" (Catalog.directoryOf "app") 0 {} q (.ok ()) hwalk
  have helsewhere : ∀ name directory, q.store.verdict? name = some .unreadable →
      (layered.survey {}).directoryFor name = .ok directory →
        (leafManifest directory).result = (layered.surroundings.manifest directory).result := by
    intro name directory hunreadable hdirectory
    obtain rfl : Catalog.directoryOf name = directory := Except.ok.inj hdirectory
    have hplace := (hrecorded _ (Store.verdict?_eq_some_iff.mp hunreadable)).2 rfl
    rw [leafManifest, if_neg hplace]
  refine ⟨q, hwalk, hnames, hagreed hiddenSurroundings ⟨rfl, ?_, ?_, fun _ _ h => by cases h⟩,
    hmanifest leafManifest rfl ?_⟩
  · intro name hname _
    obtain ⟨entry, hentry, rfl⟩ := List.mem_map.mp hname
    refine ⟨?_, fun _ _ _ => rfl, fun _ _ _ _ _ => rfl⟩
    show (if _ then _ else _ : Logged _).result = _
    rw [if_neg (hrecorded entry hentry).1]
    rfl
  · intro name hunreadable _
    exact ⟨rfl, fun directory => helsewhere name directory hunreadable⟩
  · exact fun name directory hunreadable _ => helsewhere name directory hunreadable

end Survey

end EditionSurvey
