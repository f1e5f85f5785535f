/-
  Proofs/Announcing.lean --- the lines of a survey agree with its report.

  A visit prints one line, whether it finds a verdict or meets one that is there.  Verdicts stay,
  so what the line says of the name holds to the end, when the report is made
  (`Announced.announce`).  Everything else that a survey does prints nothing (`Run.Quiet`).

  A line is owed for each name that a frame of the stack still has.  The manifest of a package
  that is opened puts as many names on the stack as the package has dependencies, and so the lines
  are counted by the manifests that were asked for (`Loop.lines_and_owed`).
-/
import EditionSurvey.Proofs.Grouping
import EditionSurvey.Proofs.Recording
import EditionSurvey.Proofs.Termination
import Mathlib.Data.List.Forall2

set_option autoImplicit false

namespace EditionSurvey

/-! ## Lines and manifests -/

/-- The directory whose manifest is asked for, if one is. -/
def Call.manifest? : Call → Option Path
  | .manifest directory => some directory
  | _ => none

@[simp] theorem lines_records (log : List LogRecord) :
    (log.map Event.record).filterMap Event.line? = [] := by
  simp [List.filterMap_map, Function.comp_def, Event.line?]

namespace Progress

/-- The directories whose manifests were asked for, in order. -/
def manifests (progress : Progress) : List Path := progress.calls.filterMap Call.manifest?

@[simp] theorem lines_extend (progress : Progress) (events : List Event) :
    (progress.extend events).lines = progress.lines ++ events.filterMap Event.line? := by
  rw [lines, events_extend, List.filterMap_append, lines]

/-- The same verdicts, lines and manifests, whatever else happened in between. -/
structure SameSoFar (p q : Progress) : Prop where
  /-- no verdict was recorded -/
  store : q.store = p.store
  /-- no line was printed -/
  lines : q.lines = p.lines
  /-- no manifest was asked for -/
  manifests : q.manifests = p.manifests

theorem SameSoFar.refl (p : Progress) : p.SameSoFar p := ⟨rfl, rfl, rfl⟩

theorem SameSoFar.trans {p q r : Progress} (h : p.SameSoFar q) (hnext : q.SameSoFar r) :
    p.SameSoFar r :=
  ⟨hnext.store.trans h.store, hnext.lines.trans h.lines, hnext.manifests.trans h.manifests⟩

theorem SameSoFar.extend (p : Progress) {events : List Event}
    (hlines : events.filterMap Event.line? = [])
    (hmanifests : (events.filterMap Event.call?).filterMap Call.manifest? = []) :
    p.SameSoFar (p.extend events) where
  store := rfl
  lines := by rw [lines_extend, hlines, List.append_nil]
  manifests := by
    rw [Progress.manifests, calls_extend, List.filterMap_append, hmanifests, List.append_nil,
      Progress.manifests]

end Progress

/-! ## Quiet parts of a survey -/

namespace Run

variable {α β : Type}

/-- A part of a survey that records no verdict, prints no line and asks for no manifest. -/
def Quiet (run : Run α) : Prop := ∀ p : Progress, p.SameSoFar (run.on p).2

theorem quiet_pure (a : α) : Quiet (pure a) := fun p => .refl p

theorem quiet_throw (fault : Fault) : Quiet (throw fault : Run α) := fun p => .refl p

theorem quiet_write (level : Level) (source : Source) (message : String) :
    Quiet (write level source message) := by
  intro p
  rw [on_write]
  exact .extend p rfl rfl

theorem quiet_validate (edition : Int) : Quiet (emit (.call (.validate edition))) := by
  intro p
  rw [on_emit]
  exact .extend p rfl rfl

theorem quiet_perform (work : Logged α) : Quiet (perform work) := by
  intro p
  rw [on_perform]
  refine .extend p (lines_records work.log) ?_
  rw [Survey.calls_records, List.filterMap_nil]

theorem quiet_ask {call : Call} (work : Logged α) (hcall : call.manifest? = none) :
    Quiet (ask call work) := by
  intro p
  rw [on_ask]
  refine .extend p ?_ ?_
  · rw [List.filterMap_cons_none rfl, lines_records]
  · have hasked : (Event.call call).call? = some call := rfl
    rw [List.filterMap_cons_some hasked, Survey.calls_records, List.filterMap_cons_none hcall,
      List.filterMap_nil]

theorem quiet_bind {run : Run α} {next : α → Run β} (hrun : run.Quiet)
    (hnext : ∀ a, (next a).Quiet) : Quiet (run >>= next) := by
  intro p
  have hfirst := hrun p
  rw [on_bind]
  rcases hrun' : run.on p with ⟨fault | a, later⟩
  · rw [hrun'] at hfirst
    exact hfirst
  · rw [hrun'] at hfirst
    exact hfirst.trans (hnext a later)

theorem Quiet.of_ok {run : Run α} (h : run.Quiet) {p q : Progress} {a : α}
    (hrun : run.on p = (.ok a, q)) : p.SameSoFar q := by
  have hsame := h p
  rw [hrun] at hsame
  exact hsame

end Run

namespace Survey

variable {survey : Survey}

theorem quiet_entryOf (survey : Survey) (name : String) : (survey.entryOf name).Quiet := by
  refine Run.quiet_bind (Run.quiet_ask _ rfl) ?_
  rintro (failure | entry)
  · exact Run.quiet_bind (Run.quiet_write _ _ _) fun _ => Run.quiet_pure _
  · exact Run.quiet_pure _

theorem quiet_verdictOf (path : Path) (judgement : Except Script.Refusal Unit) :
    (verdictOf path judgement).Quiet := by
  rcases judgement with (diagnostic | _ | _) | _
  · exact Run.quiet_pure _
  · exact Run.quiet_bind (Run.quiet_write _ _ _) fun _ => Run.quiet_pure _
  · exact Run.quiet_throw _
  · exact Run.quiet_pure _

theorem quiet_evaluate (survey : Survey) (entry : Option Path) :
    (survey.evaluate entry).Quiet := by
  cases entry with
  | none => exact Run.quiet_pure _
  | some path =>
      by_cases hsource : isNonSource path = true
      · rw [evaluate, if_pos hsource]
        exact Run.quiet_pure _
      · rw [evaluate, if_neg hsource]
        refine Run.quiet_bind (Run.quiet_ask _ rfl) ?_
        rintro (failure | source)
        · exact Run.quiet_bind (Run.quiet_write _ _ _) fun _ => Run.quiet_pure _
        · exact Run.quiet_bind (Run.quiet_validate _) fun _ => quiet_verdictOf _ _

theorem quiet_rootManifest (tree : FileTree) (directory : Path) :
    (rootManifest tree directory).Quiet := by
  refine Run.quiet_bind (Run.quiet_perform _) ?_
  rintro (failure | manifest)
  · exact Run.quiet_bind (Run.quiet_write _ _ _) fun _ => Run.quiet_pure _
  · exact Run.quiet_pure _

theorem quiet_noteResult (options : Options) : (noteResult options).Quiet :=
  Run.quiet_bind (fun p => .refl p) fun _ => Run.quiet_write _ _ _

/-! ## Announcing a name -/

/-- The survey prints a line for each visit. -/
def ShowsLines (survey : Survey) : Prop := (survey.prints && survey.options.showTree) = true

theorem showsLines_survey (tree : FileTree) {options : Options}
    (hshow : options.showTree = true) : (tree.survey options).ShowsLines := hshow

/-- The line for a package with a verdict at a depth. -/
def lineFor (survey : Survey) (name : String) (verdict : Verdict) (depth : Int) : String :=
  indentation depth ++ survey.describeVerdict name verdict

/-- A part of a survey announces a name: it prints the line for the verdict that the name has
then, and it records no other name. -/
structure Announces (survey : Survey) (name : String) (depth : Int) (p q : Progress) : Prop where
  /-- one line is printed -/
  line : ∃ verdict, q.store.verdict? name = some verdict ∧
    q.lines = p.lines ++ [survey.lineFor name verdict depth]
  /-- verdicts stay -/
  kept : p.store.entries <+: q.store.entries
  /-- no other name is recorded -/
  only : q.store.names ⊆ name :: p.store.names

theorem Announces.after {name : String} {depth : Int} {p p' q : Progress}
    (hbefore : p.SameSoFar p') (h : survey.Announces name depth p' q) :
    survey.Announces name depth p q := by
  obtain ⟨hline, hkept, honly⟩ := h
  rw [hbefore.lines] at hline
  rw [hbefore.store] at hkept honly
  exact ⟨hline, hkept, honly⟩

theorem Announces.before {name : String} {depth : Int} {p q q' : Progress}
    (h : survey.Announces name depth p q) (hstore : q'.store = q.store)
    (hlines : q'.lines = q.lines) : survey.Announces name depth p q' := by
  obtain ⟨hline, hkept, honly⟩ := h
  rw [← hstore] at hline hkept honly
  rw [← hlines] at hline
  exact ⟨hline, hkept, honly⟩

theorem lines_announcement (hshown : survey.ShowsLines) (name : String) (verdict : Verdict)
    (depth : Int) :
    (survey.announcement name verdict depth).filterMap Event.line? =
      [survey.lineFor name verdict depth] := by
  unfold ShowsLines at hshown
  rw [announcement, if_pos hshown]
  rfl

/-- A known name is announced with the verdict that it has. -/
theorem announces_of_known (hshown : survey.ShowsLines) {name : String} {verdict : Verdict}
    {p : Progress} (hverdict : p.store.verdict? name = some verdict) (depth : Int) :
    survey.Announces name depth p (p.extend (survey.announcement name verdict depth)) where
  line := ⟨verdict, hverdict, by rw [Progress.lines_extend, lines_announcement hshown]⟩
  kept := List.prefix_rfl
  only := List.subset_cons_self name p.store.names

/-- A new name is announced with the verdict that is recorded for it. -/
theorem announces_of_fresh {name : String} {verdict : Verdict} {depth : Int} {p : Progress}
    {events : List Event} (hfresh : p.store.verdict? name = none)
    (hlines : events.filterMap Event.line? = [survey.lineFor name verdict depth]) :
    survey.Announces name depth p ((p.settle name verdict).extend events) := by
  have hentries := Store.entries_record_of_fresh verdict hfresh
  have hrecorded : (p.store.record name verdict).verdict? name = some verdict := by
    simp [Store.verdict?_record, hfresh]
  refine ⟨⟨verdict, hrecorded, ?_⟩, p.store.entries_prefix_record name verdict, ?_⟩
  · rw [Progress.lines_extend, hlines]
    rfl
  · rw [Progress.store_extend, Progress.store_settle, Store.names_of_added hentries]
    intro other hother
    rcases List.mem_append.mp hother with hold | hnew
    · exact List.mem_cons_of_mem name hold
    · rw [List.mem_singleton.mp hnew]
      exact List.mem_cons_self

theorem manifests_extend_announcement (survey : Survey) (name : String) (verdict : Verdict)
    (depth : Int) (p : Progress) :
    (p.extend (survey.announcement name verdict depth)).manifests = p.manifests := by
  rw [Progress.manifests, Progress.calls_extend, calls_announcement, List.append_nil,
    Progress.manifests]

/-- A package that is judged is announced, and no manifest is asked for. -/
theorem classify_announces (hshown : survey.ShowsLines) {name : String} {entry : Option Path}
    {depth : Int} {p q : Progress} {state : PackageState}
    (h : (survey.classify name entry depth).on p = (.ok state, q)) :
    survey.Announces name depth p q ∧ q.manifests = p.manifests := by
  cases hverdict : p.store.verdict? name with
  | some verdict =>
      rw [survey.classify_on_of_known hverdict] at h
      obtain ⟨_, rfl⟩ := Prod.mk.inj h
      exact ⟨announces_of_known hshown hverdict depth,
        survey.manifests_extend_announcement name verdict depth p⟩
  | none =>
      obtain ⟨verdict, -, rfl⟩ := exists_of_classify_fresh hverdict h
      have hquiet := survey.quiet_evaluate entry {}
      -- the journal of the judgement has neither lines nor manifests
      have hlines : (survey.evaluate entry).journal.filterMap Event.line? = [] := hquiet.lines
      have hmanifests : ((survey.evaluate entry).journal.filterMap Event.call?).filterMap
          Call.manifest? = [] := hquiet.manifests
      constructor
      · apply announces_of_fresh hverdict
        rw [List.filterMap_append, hlines, List.filterMap_cons_none rfl,
          lines_announcement hshown, List.nil_append]
      · rw [Progress.manifests, Progress.calls_extend, List.filterMap_append,
          List.filterMap_append, List.filterMap_append, hmanifests,
          List.filterMap_cons_none rfl, calls_announcement, Progress.calls_settle]
        exact List.append_nil _

/-! ## Opening a package -/

/-- The number of dependencies that the manifest in a directory names, none if there is no
manifest that can be read. -/
def dependencyCount (survey : Survey) (directory : Path) : Nat :=
  match survey.listing directory with
  | .ok (some names) => names.length
  | _ => 0

/-- The number of dependencies that the manifests name that were asked for. -/
def dependencyTotal (survey : Survey) (p : Progress) : Nat :=
  (p.manifests.map survey.dependencyCount).sum

/-- The number of names that the frames of a stack still have. -/
def owed (stack : List Frame) : Nat := (stack.map fun frame => frame.names.length).sum

@[simp] theorem owed_cons (frame : Frame) (rest : List Frame) :
    owed (frame :: rest) = frame.names.length + owed rest := by
  simp [owed]

@[simp] theorem owed_append (first next : List Frame) :
    owed (first ++ next) = owed first + owed next := by
  simp [owed]

theorem dependencyTotal_eq {p q : Progress} (h : q.manifests = p.manifests) :
    survey.dependencyTotal q = survey.dependencyTotal p := by
  rw [dependencyTotal, dependencyTotal, h]

/-- A part of a survey opens a package, or finds out that there is nothing to open: it records
and prints nothing, and the names that the package needs are owed from then on. -/
structure Opens (survey : Survey) (opened : Option Frame) (p q : Progress) : Prop where
  /-- no verdict is recorded -/
  store : q.store = p.store
  /-- no line is printed -/
  lines : q.lines = p.lines
  /-- what the manifest names is owed -/
  total : survey.dependencyTotal q = survey.dependencyTotal p + owed opened.toList

theorem Opens.after {opened : Option Frame} {p p' q : Progress} (hbefore : p.SameSoFar p')
    (h : survey.Opens opened p' q) : survey.Opens opened p q where
  store := h.store.trans hbefore.store
  lines := h.lines.trans hbefore.lines
  total := by rw [h.total, dependencyTotal_eq hbefore.manifests]

theorem lines_openingEvents (survey : Survey) (directory : Path) :
    (survey.openingEvents directory).filterMap Event.line? = [] := by
  unfold openingEvents
  simp only [List.filterMap_append, List.filterMap_cons, Event.line?, lines_records]
  split <;> rfl

/-- A package that has a verdict is opened. -/
theorem openPackage_opens {name : String} {directory : Path} {depth : Int} {p q : Progress}
    {opened : Option Frame} (hknown : name ∈ p.store.names)
    (h : (survey.openPackage name directory depth).on p = (.ok opened, q)) :
    survey.Opens opened p q := by
  have hverdict : p.store.verdict? name ≠ none := fun hnone =>
    Store.verdict?_eq_none_iff.mp hnone hknown
  obtain ⟨listed, hlisting, rfl, _, hcalls⟩ := openPackage_ok h
  rw [openPackage_on, Progress.settleOpening_of_known _ hverdict] at h
  obtain ⟨_, rfl⟩ := Prod.mk.inj h
  refine ⟨rfl, ?_, ?_⟩
  · rw [Progress.lines_extend, lines_openingEvents, List.append_nil]
  · have hmanifests : (p.extend (survey.openingEvents directory)).manifests =
        p.manifests ++ [directory] := by
      rw [Progress.manifests, hcalls, List.filterMap_append]
      rfl
    have hcount : survey.dependencyCount directory =
        owed (listed.map fun names => (⟨names, depth⟩ : Frame)).toList := by
      rw [dependencyCount, hlisting]
      cases listed with
      | none => rfl
      | some names => simp [owed]
    rw [dependencyTotal, hmanifests, List.map_append, List.sum_append, List.map_singleton,
      List.sum_singleton, hcount, dependencyTotal]

/-- So is one that is descended into. -/
theorem descend_opens {name : String} {state : PackageState} {depth : Int} {p q : Progress}
    {opened : Option Frame} (hknown : name ∈ p.store.names)
    (h : (survey.descend name state depth).on p = (.ok opened, q)) :
    survey.Opens opened p q := by
  unfold descend at h
  split at h
  · obtain ⟨directory, asked, hasked, hopened⟩ := Run.exists_of_bind_ok h
    have hbefore := (Run.quiet_ask _ rfl).of_ok hasked
    have hstill : name ∈ asked.store.names := by rwa [hbefore.store]
    exact (openPackage_opens hstill hopened).after hbefore
  · rw [Run.on_pure] at h
    obtain ⟨hnone, rfl⟩ := Prod.mk.inj h
    obtain rfl := Except.ok.inj hnone
    exact ⟨rfl, rfl, rfl⟩

/-! ## Visiting -/

/-- A visit that yields announces the name that is visited, and what the package needs that it
opens, if it opens one, is owed from then on. -/
theorem visit_announces (hshown : survey.ShowsLines) {name : String} {depth : Int}
    {p q : Progress} {opened : Option Frame}
    (h : (survey.visit name depth).on p = (.ok opened, q)) :
    survey.Announces name depth p q ∧
      survey.dependencyTotal q = survey.dependencyTotal p + owed opened.toList := by
  cases hverdict : p.store.verdict? name with
  | some verdict =>
      rw [survey.visit_on_of_known hverdict] at h
      obtain ⟨hopened, rfl⟩ := Prod.mk.inj h
      obtain rfl := Except.ok.inj hopened
      exact ⟨announces_of_known hshown hverdict depth,
        dependencyTotal_eq (survey.manifests_extend_announcement name verdict depth p)⟩
  | none =>
      have hget : p.store.get? name = none := by simp [Store.get?, hverdict]
      unfold visit at h
      rw [Run.on_bind_of_ok _ (Run.on_get p)] at h
      simp only [hget] at h
      unfold visitNew at h
      obtain ⟨entry, resolved, hresolved, h⟩ := Run.exists_of_bind_ok h
      obtain ⟨state, judged, hjudged, hopened⟩ := Run.exists_of_bind_ok h
      have hbefore := (survey.quiet_entryOf name).of_ok hresolved
      obtain ⟨hannounced, hmanifests⟩ := classify_announces hshown hjudged
      have hopens := descend_opens (mem_names_of_classify hjudged) hopened
      refine ⟨(hannounced.after hbefore).before hopens.store hopens.lines, ?_⟩
      rw [hopens.total, dependencyTotal_eq hmanifests, dependencyTotal_eq hbefore.manifests]

/-! ## What was announced -/

/-- A line says of a name what the store says of it. -/
def SaysOf (survey : Survey) (store : Store) (item : String × Int) (line : String) : Prop :=
  ∃ verdict, store.verdict? item.1 = some verdict ∧ line = survey.lineFor item.1 verdict item.2

/-- What a line says stays true when verdicts are added. -/
theorem SaysOf.of_prefix {before after : Store} {item : String × Int} {line : String}
    (h : survey.SaysOf before item line) (hkept : before.entries <+: after.entries) :
    survey.SaysOf after item line := by
  obtain ⟨verdict, hverdict, hline⟩ := h
  have hentry := Store.verdict?_eq_some_iff.mp hverdict
  exact ⟨verdict, Store.verdict?_eq_some_iff.mpr (hkept.subset hentry), hline⟩

/-- What was announced so far, name by name with the depth: the lines say of the names what the
store says of them now, and the names are those of the store. -/
structure Announced (survey : Survey) (p : Progress) (announced : List (String × Int)) :
    Prop where
  /-- each line is the one for the verdict that its name has now -/
  lines : List.Forall₂ (survey.SaysOf p.store) announced p.lines
  /-- the names with a verdict were announced, and no others -/
  names : ∀ name, name ∈ p.store.names ↔ name ∈ announced.map Prod.fst

variable {stack : List Frame} {p q : Progress} {iterations : List Iteration}
  {result : Except Fault Unit} {announced : List (String × Int)}

/-- Nothing was announced at the start. -/
theorem announced_nil (survey : Survey) : survey.Announced {} [] := ⟨.nil, fun _ => Iff.rfl⟩

/-- One more announcement leaves the earlier lines as true as they were. -/
theorem Announced.announce {name : String} {depth : Int} (h : survey.Announced p announced)
    (hnext : survey.Announces name depth p q) :
    survey.Announced q (announced ++ [(name, depth)]) := by
  obtain ⟨verdict, hverdict, hline⟩ := hnext.line
  have hearlier : List.Forall₂ (survey.SaysOf q.store) announced p.lines :=
    h.lines.imp fun _ _ hsays => hsays.of_prefix hnext.kept
  constructor
  · rw [hline]
    exact List.rel_append hearlier (.cons ⟨verdict, hverdict, rfl⟩ .nil)
  · intro other
    rw [List.map_append, List.mem_append, ← h.names other]
    constructor
    · intro hother
      rcases List.mem_cons.mp (hnext.only hother) with rfl | hold
      · exact .inr (List.mem_singleton_self _)
      · exact .inl hold
    · rintro (hold | hnew)
      · exact (hnext.kept.map Prod.fst).subset hold
      · rw [List.mem_singleton.mp hnew]
        exact Store.mem_names_of_verdict? hverdict

/-- The loop announces more, and what was announced before stays true. -/
theorem Announced.run (hshown : survey.ShowsLines)
    (hloop : Loop survey stack p iterations result q) (hresult : result = .ok ())
    (h : survey.Announced p announced) : ∃ more, survey.Announced q (announced ++ more) := by
  induction hloop generalizing announced with
  | done => exact ⟨[], by rwa [List.append_nil]⟩
  | leave _ ih => exact ih hresult h
  | @visit name _ depth _ _ _ _ _ _ _ first _ ih =>
      obtain ⟨more, hmore⟩ := ih hresult (h.announce (visit_announces hshown first).1)
      exact ⟨(name, depth) :: more, by rwa [List.append_assoc] at hmore⟩
  | fault => cases hresult

/-- A visit pays for one of the names that a frame has, and puts as many on the stack as the
manifest names that it asks for.  So lines and manifests are in balance. -/
theorem Loop.lines_and_owed (hshown : survey.ShowsLines)
    (h : Loop survey stack p iterations result q) (hresult : result = .ok ()) :
    q.lines.length + survey.dependencyTotal p =
      p.lines.length + owed stack + survey.dependencyTotal q := by
  induction h with
  | done =>
      simp only [owed, List.map_nil, List.sum_nil]
      omega
  | leave _ ih =>
      have hrest := ih hresult
      rw [owed_cons, List.length_nil]
      omega
  | visit first _ ih =>
      have hrest := ih hresult
      obtain ⟨hannounced, htotal⟩ := visit_announces hshown first
      obtain ⟨_, _, hline⟩ := hannounced.line
      rw [hline, List.length_append, List.length_singleton, owed_append] at hrest
      simp only [owed_cons, List.length_cons] at hrest ⊢
      omega
  | fault => cases hresult

/-! ## Whole surveys -/

/-- A start that yields found the package and asked for its entry, and it judged the package by the
name that it yields. -/
theorem exists_of_startPackage_ok {tree : FileTree} {options : Options} {name : String}
    {directory : Path} (h : (startPackage tree options).on p = (.ok (name, directory), q)) :
    ∃ asked manifest entry state resolved, tree.locateRoot options = .ok (asked, directory) ∧
      name = asked.getD (ownName manifest directory) ∧
      (tree.entryOfDirectory directory).result = .ok entry ∧ p.SameSoFar resolved ∧
      ((tree.survey options).classify name entry 0).on resolved = (.ok state, q) := by
  unfold startPackage at h
  obtain ⟨⟨asked, place⟩, located, hlocated, h⟩ := Run.exists_of_bind_ok h
  obtain ⟨_, noted, hnoted, h⟩ := Run.exists_of_bind_ok h
  obtain ⟨manifest, read, hread, h⟩ := Run.exists_of_bind_ok h
  obtain ⟨entry, resolved, hresolved, h⟩ := Run.exists_of_bind_ok h
  obtain ⟨state, judged, hjudged, h⟩ := Run.exists_of_bind_ok h
  rw [Run.on_pure] at h
  obtain ⟨hstart, rfl⟩ := Prod.mk.inj h
  obtain ⟨rfl, rfl⟩ := Prod.mk.inj (Except.ok.inj hstart)
  have hbefore : p.SameSoFar resolved :=
    (((Run.quiet_perform _).of_ok hlocated).trans ((Run.quiet_write _ _ _).of_ok hnoted)).trans
      (((quiet_rootManifest tree place).of_ok hread).trans
        ((Run.quiet_perform _).of_ok hresolved))
  rw [Run.on_perform] at hlocated hresolved
  exact ⟨asked, manifest, entry, state, resolved, (Prod.mk.inj hlocated).1, rfl,
    (Prod.mk.inj hresolved).1, hbefore, hjudged⟩

/-- What a survey starts with is announced at depth zero, and no manifest is asked for. -/
theorem startPackage_announces {tree : FileTree} {options : Options}
    (hshow : options.showTree = true) {name : String} {directory : Path}
    (h : (startPackage tree options).on p = (.ok (name, directory), q)) :
    (tree.survey options).Announces name 0 p q ∧ q.manifests = p.manifests := by
  obtain ⟨_, _, _, _, resolved, -, -, -, hbefore, hjudged⟩ := exists_of_startPackage_ok h
  obtain ⟨hannounced, hmanifests⟩ := classify_announces (showsLines_survey tree hshow) hjudged
  exact ⟨hannounced.after hbefore, hmanifests.trans hbefore.manifests⟩

/-- A survey that yields announced the package that it starts with at first, and then one name
for each dependency that the manifests name. -/
theorem checkPackage_announced {tree : FileTree} {options : Options}
    (hshow : options.showTree = true) {root : String}
    (h : (checkPackage tree options).on {} = (.ok root, q)) :
    (∃ more, (tree.survey options).Announced q ((root, 0) :: more)) ∧
      q.lines.length = 1 + (tree.survey options).dependencyTotal q := by
  have hshown := showsLines_survey tree hshow
  obtain ⟨directory, begun, last, hstart, hwalk, hnoted⟩ := exists_of_checkPackage_ok h
  obtain ⟨opened, walking, hopened, hframes⟩ := Run.exists_of_bind_ok hwalk
  obtain ⟨iterations, hloop⟩ := exists_loop_of_walkFrames hframes
  have hafter := (quiet_noteResult options).of_ok hnoted
  obtain ⟨hannounces, hmanifests⟩ := startPackage_announces hshow hstart
  have hopens := openPackage_opens (mem_names_of_startPackage hstart) hopened
  have hfirst := hannounces.before hopens.store hopens.lines
  constructor
  · have hrun := ((tree.survey options).announced_nil.announce hfirst).run hshown hloop rfl
    obtain ⟨more, hlines, hnames⟩ := hrun
    rw [← hafter.store] at hlines hnames
    rw [← hafter.lines] at hlines
    exact ⟨more, hlines, hnames⟩
  · have hbalance := hloop.lines_and_owed hshown rfl
    obtain ⟨_, _, hline⟩ := hfirst.line
    have htotal : (tree.survey options).dependencyTotal walking = owed opened.toList := by
      rw [hopens.total, dependencyTotal_eq hmanifests]
      exact Nat.zero_add _
    have hone : walking.lines.length = 1 := by
      rw [hline, List.length_append]
      rfl
    rw [htotal, hone] at hbalance
    rw [hafter.lines, dependencyTotal_eq hafter.manifests]
    omega

theorem describe_of_verdict? {store : Store} {name : String} {verdict : Verdict}
    (h : store.verdict? name = some verdict) :
    survey.describe store name verdict.state = survey.describeVerdict name verdict := by
  simp [describe, describeVerdict, Store.diagnostic?, h]

/-- The lines of a survey that yields agree with its report.  There is a sequence of names with
depths, one for each line, such that a line is the indentation for the depth and the description
of the name with the state, and the reason, that the final store has; the names of the sequence
are the names of the report; the first one is the package that was started with, at depth zero;
and the lines are one more than the dependencies that the manifests name that the walk asked
for. -/
theorem checkPackage_lines_agree (tree : FileTree) (options : Options)
    (hshow : options.showTree = true) (root : String) (q : Progress)
    (h : (checkPackage tree options).outcome = (.ok root, q)) :
    ∃ announced : List (String × Int),
      List.Forall₂ (fun item line => ∃ state, q.store.get? item.1 = some state ∧
          line = indentation item.2 ++ (tree.survey options).describe q.store item.1 state)
        announced q.lines ∧
      (∀ name, name ∈ (Report.ofStore q.store options.edition).names ↔
        name ∈ announced.map Prod.fst) ∧
      announced.head? = some (root, 0) ∧
      q.lines.length =
        1 + (q.manifests.map (tree.survey options).dependencyCount).sum := by
  obtain ⟨⟨more, hannounced⟩, hlength⟩ := checkPackage_announced hshow h
  refine ⟨(root, 0) :: more, ?_, ?_, rfl, hlength⟩
  · refine hannounced.lines.imp ?_
    rintro item line ⟨verdict, hverdict, rfl⟩
    refine ⟨verdict.state, ?_, ?_⟩
    · rw [Store.get?, hverdict, Option.map_some]
    · rw [describe_of_verdict? hverdict, lineFor]
  · intro name
    rw [(Report.names_ofStore_perm q.store options.edition).mem_iff]
    exact hannounced.names name

/-- A package that does not conform to the fifth edition needs `lib`, which has no entry and needs
itself. -/
def loopingTree : FileTree where
  top := .directory
    [(manifestName, .file
        "\x7b\"name\":\"app\",\"dependencies\":\x7b\"lib\":\"1\"\x7d\x7d".toUTF8.toList),
      ("index.js", .file "let a".toUTF8.toList),
      (installedName, .directory
        [("lib", .directory [(manifestName, .file
          "\x7b\"dependencies\":\x7b\"lib\":\"1\"\x7d\x7d".toUTF8.toList)])])]

/-- Its survey shows reasons. -/
def loopingOptions : Options := { showError := true }

/-- After the package `lib` is announced, and again below itself: two manifests name a dependency
each. -/
theorem loopingTree_lines_agree :
    ∃ q, (checkPackage loopingTree loopingOptions).outcome = (.ok "app", q) ∧
      q.lines.length = 3 ∧
      ∃ announced : List (String × Int),
        List.Forall₂ (fun item line => ∃ state, q.store.get? item.1 = some state ∧
            line = indentation item.2 ++
              (loopingTree.survey loopingOptions).describe q.store item.1 state)
          announced q.lines ∧
        (∀ name, name ∈ (Report.ofStore q.store loopingOptions.edition).names ↔
          name ∈ announced.map Prod.fst) ∧
        announced.head? = some ("app", 0) ∧
        q.lines.length =
          1 + (q.manifests.map (loopingTree.survey loopingOptions).dependencyCount).sum := by
  have hmentioned : (loopingTree.top.contentsNamed manifestName).flatMap
      FileTree.namesInManifest = ["lib", "lib"] := by decide +kernel
  have hnames : loopingTree.dependencyNames = ["lib"] := by
    rw [FileTree.dependencyNames, hmentioned, inOrder, List.mergeSort_of_pairwise (by decide)]
    rfl
  have hrun : ((checkPackage loopingTree loopingOptions).on {}).1.toOption = some "app" ∧
      ((checkPackage loopingTree loopingOptions).on {}).2.lines.length = 3 := by
    rw [checkPackage, hnames]
    decide +kernel
  have hyields := Run.on_eq_of_toOption hrun.1
  exact ⟨_, hyields, hrun.2,
    checkPackage_lines_agree loopingTree loopingOptions rfl "app" _ hyields⟩

end Survey

end EditionSurvey
