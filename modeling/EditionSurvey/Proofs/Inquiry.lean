/-
  Proofs/Inquiry.lean --- what a walk asks for, and how often.

  A walk asks for something only when it opens its start and when it visits a name that has no
  verdict, and what it asks for then depends on the name alone (`callsFor`).  So what a whole
  walk asks for is known from the names that it visits anew (`Inquired`), and each of these is
  visited anew once.

  `questions` bounds what is asked for because of one name: its entry, the text and the judgement
  of the entry, and for a name without a usable entry its directory and the manifest there.
-/
import EditionSurvey.Proofs.Termination

set_option autoImplicit false

namespace EditionSurvey

/-! ## Kinds of calls -/

/-- What kind of thing is asked for. -/
inductive CallKind where
  /-- an entry -/
  | resolve
  /-- the text of a script -/
  | read
  /-- a judgement -/
  | validate
  /-- a directory -/
  | locate
  /-- a manifest -/
  | manifest
  deriving DecidableEq, Repr

/-- The kind of a call. -/
def Call.kind : Call → CallKind
  | .manifest _ => .manifest
  | .resolve _ => .resolve
  | .locate _ => .locate
  | .read _ => .read
  | .validate _ => .validate

namespace Survey

/-! ## What is asked for because of one name -/

/-- A call is made because of a name: it names it, or asks for its entry or in its directory. -/
def Concerns (survey : Survey) (name : String) : Call → Prop
  | .resolve other => other = name
  | .read path => (survey.entryOf name).result = .ok (some path)
  | .validate edition => edition = survey.options.edition
  | .locate other => other = name
  | .manifest directory => survey.directoryFor name = .ok directory

/-- All that may be asked for to judge the entry of a name. -/
def entryQuestions (survey : Survey) : Option Path → List Call
  | none => []
  | some path => [.read path, .validate survey.options.edition]

/-- All that is asked for to descend into a name in a state. -/
def descentQuestions (survey : Survey) (name : String) (state : PackageState) : List Call :=
  if state.needsDescent then
    .locate name :: match survey.directoryFor name with
      | .ok directory => [.manifest directory]
      | .error _ => []
  else []

/-- All that may be asked for when a name is visited. -/
def questions (survey : Survey) (name : String) : List Call :=
  .resolve name ::
    ((match (survey.entryOf name).result with
      | .ok entry => survey.entryQuestions entry
      | .error _ => []) ++
    match survey.finding name with
    | .ok verdict => survey.descentQuestions name verdict.state
    | .error _ => [])

theorem calls_entryOf (survey : Survey) (name : String) :
    (survey.entryOf name).journal.filterMap Event.call? = [.resolve name] := by
  show ((survey.entryOf name).on {}).2.calls = _
  unfold entryOf
  rw [Run.on_bind, Run.on_ask]
  rcases (survey.surroundings.resolve name survey.options.resolvePath).result with
    fault | failure | entry
  · simp [Event.call?]
  · simp only [Run.on_bind_of_ok _ (Run.on_write _ _ _ _), Run.on_pure]
    simp [Event.call?]
  · simp [Event.call?]

theorem calls_verdictOf (path : Path) (judgement : Except Script.Refusal Unit) (p : Progress) :
    ((verdictOf path judgement).on p).2.calls = p.calls := by
  rcases judgement with (diagnostic | _ | _) | _
  · rfl
  · rw [verdictOf, Run.on_bind_of_ok _ (Run.on_write _ _ _ _), Run.on_pure]
    simp [Event.call?]
  · rfl
  · rfl

theorem calls_judge (survey : Survey) (path : Path) :
    ((survey.judge path).on {}).2.calls.Sublist (survey.entryQuestions (some path)) := by
  unfold judge
  rw [Run.on_bind, Run.on_ask]
  rcases (survey.surroundings.read path).result with fault | failure | source
  · simp [entryQuestions, Event.call?]
  · simp only [Run.on_bind_of_ok _ (Run.on_write _ _ _ _), Run.on_pure]
    simp [entryQuestions, Event.call?]
  · simp only [Run.on_bind_of_ok _ (Run.on_emit _ _), calls_verdictOf]
    simp [entryQuestions, Event.call?]

theorem calls_evaluate (survey : Survey) (entry : Option Path) :
    ((survey.evaluate entry).journal.filterMap Event.call?).Sublist
      (survey.entryQuestions entry) := by
  cases entry with
  | none => exact List.Sublist.refl _
  | some path =>
      by_cases hsource : isNonSource path = true
      · rw [evaluate, if_pos hsource]
        exact List.nil_sublist _
      · rw [evaluate, if_neg hsource]
        exact survey.calls_judge path

theorem calls_inquire (survey : Survey) (name : String) :
    ((survey.inquire name).journal.filterMap Event.call?).Sublist
      (.resolve name :: match (survey.entryOf name).result with
        | .ok entry => survey.entryQuestions entry
        | .error _ => []) := by
  cases hentry : (survey.entryOf name).result with
  | error fault =>
      rw [(survey.inquire_of_entry_fault hentry).2, calls_entryOf]
  | ok entry =>
      rw [(survey.inquire_of_entry hentry).2, List.filterMap_append, calls_entryOf]
      exact (survey.calls_evaluate entry).cons_cons _

theorem calls_descentEvents (survey : Survey) (name : String) (state : PackageState) :
    (survey.descentEvents name state).filterMap Event.call? =
      survey.descentQuestions name state := by
  unfold descentEvents descentQuestions
  split
  · cases survey.directoryFor name with
    | error fault => simp [Event.call?]
    | ok directory => simp [Event.call?, calls_openingEvents]
  · rfl

theorem callsFor_sublist (survey : Survey) (name : String) :
    (survey.callsFor name).Sublist (survey.questions name) := by
  rw [← survey.calls_visitEvents name 0, visitEvents, List.filterMap_append, questions,
    ← List.cons_append]
  refine (survey.calls_inquire name).append ?_
  unfold finding
  cases (survey.inquire name).result with
  | error fault => exact List.Sublist.refl _
  | ok found =>
      obtain ⟨entry, verdict⟩ := found
      simp only [List.cons_append, List.filterMap_cons, List.filterMap_append, Event.call?,
        calls_announcement, calls_descentEvents]
      exact List.Sublist.refl _

/-- Nothing is asked for twice because of one name. -/
theorem nodup_kinds_callsFor (survey : Survey) (name : String) :
    ((survey.callsFor name).map Call.kind).Nodup := by
  refine List.Nodup.sublist ((survey.callsFor_sublist name).map Call.kind) ?_
  unfold questions entryQuestions descentQuestions
  repeat' split
  all_goals simp [Call.kind]

theorem concerns_of_mem_entryQuestions {survey : Survey} {name : String} {entry : Option Path}
    {call : Call} (hentry : (survey.entryOf name).result = .ok entry)
    (h : call ∈ survey.entryQuestions entry) :
    survey.Concerns name call ∧ call.kind ≠ .locate ∧ call.kind ≠ .manifest := by
  cases entry with
  | none => exact absurd h List.not_mem_nil
  | some path =>
      obtain rfl | rfl : call = .read path ∨ call = .validate survey.options.edition := by
        simpa [entryQuestions] using h
      · exact ⟨hentry, by simp [Call.kind]⟩
      · exact ⟨rfl, by simp [Call.kind]⟩

theorem concerns_of_mem_descentQuestions {survey : Survey} {name : String}
    {state : PackageState} {call : Call} (h : call ∈ survey.descentQuestions name state) :
    survey.Concerns name call ∧ state.needsDescent = true := by
  unfold descentQuestions at h
  split at h
  · next hstate =>
      refine ⟨?_, hstate⟩
      rcases List.mem_cons.mp h with rfl | h
      · rfl
      · cases hdirectory : survey.directoryFor name with
        | error fault => simp [hdirectory] at h
        | ok directory =>
            obtain rfl : call = .manifest directory := by simpa [hdirectory] using h
            exact hdirectory
  · cases h

/-- What is asked for because of a name concerns it, and its directory and the manifest there are
asked for only when it has no usable entry. -/
theorem concerns_of_mem_callsFor {survey : Survey} {name : String} {call : Call}
    (h : call ∈ survey.callsFor name) :
    survey.Concerns name call ∧
      (call.kind = .locate ∨ call.kind = .manifest → survey.finding name = .ok .unreadable) := by
  have hmem := (survey.callsFor_sublist name).subset h
  rcases List.mem_cons.mp hmem with rfl | hmem
  · exact ⟨rfl, by simp [Call.kind]⟩
  · rcases List.mem_append.mp hmem with hmem | hmem
    · cases hentry : (survey.entryOf name).result with
      | error fault => simp [hentry] at hmem
      | ok entry =>
          rw [hentry] at hmem
          obtain ⟨hconcerns, hlocate, hmanifest⟩ := concerns_of_mem_entryQuestions hentry hmem
          exact ⟨hconcerns, fun hkind => absurd hkind (not_or.mpr ⟨hlocate, hmanifest⟩)⟩
    · cases hfinding : survey.finding name with
      | error fault => simp [hfinding] at hmem
      | ok verdict =>
          rw [hfinding] at hmem
          obtain ⟨hconcerns, hstate⟩ := concerns_of_mem_descentQuestions hmem
          exact ⟨hconcerns, fun _ => by rw [needsDescent_state_iff.mp hstate]⟩

/-! ## What the loop asks for -/

/-- The walk goes from one progress to another by visiting the given names anew, in order.  It
asks for what these lead to and for nothing else, and records what is found of them. -/
structure Inquired (survey : Survey) (p q : Progress) (news : List String) : Prop where
  /-- no name is visited anew twice -/
  nodup : news.Nodup
  /-- a name that has a verdict is not visited anew -/
  fresh : ∀ name ∈ news, name ∉ p.store.names
  /-- nothing else is asked for -/
  calls : q.calls = p.calls ++ news.flatMap survey.callsFor
  /-- verdicts stay -/
  kept : p.store.entries ⊆ q.store.entries
  /-- what is found is recorded -/
  recorded : ∀ name ∈ news, ∀ verdict, survey.finding name = .ok verdict →
    (name, verdict) ∈ q.store.entries

variable {survey : Survey} {p now q : Progress} {name : String} {news : List String}
  {depth : Int}

theorem Inquired.refl (hstore : q.store = p.store) (hcalls : q.calls = p.calls) :
    survey.Inquired p q [] :=
  ⟨List.nodup_nil, by simp, by simp [hcalls], by simp [hstore], by simp⟩

/-- A visit that yields comes before the rest. -/
theorem Inquired.visit {opened : Option Frame}
    (hvisit : (survey.visit name depth).on p = (.ok opened, now))
    (h : survey.Inquired now q news) : ∃ news, survey.Inquired p q news := by
  rcases visit_ok hvisit with
    ⟨_, _, hstore, hcalls⟩ | ⟨hfresh, hcalls, ⟨verdict, hfinding, hentries⟩, _⟩
  · exact ⟨news, h.nodup, hstore ▸ h.fresh, hcalls ▸ h.calls, hstore ▸ h.kept, h.recorded⟩
  · have hnames : now.store.names = p.store.names ++ [name] := Store.names_of_added hentries
    refine ⟨name :: news, ?_, ?_, ?_, ?_, ?_⟩
    · refine List.nodup_cons.mpr ⟨fun hmem => h.fresh name hmem ?_, h.nodup⟩
      simp [hnames]
    · intro other hother
      rcases List.mem_cons.mp hother with rfl | hother
      · exact hfresh
      · intro hold
        exact h.fresh other hother (hnames ▸ List.mem_append_left _ hold)
    · rw [h.calls, hcalls, List.flatMap_cons, List.append_assoc]
    · intro entry hentry
      exact h.kept (hentries ▸ List.mem_append_left _ hentry)
    · -- the visit records its verdict, and later visits keep it
      intro other hother found hfound
      rcases List.mem_cons.mp hother with rfl | hother
      · obtain rfl : verdict = found := Except.ok.inj (hfinding.symm.trans hfound)
        exact h.kept (by simp [hentries])
      · exact h.recorded other hother found hfound

/-- A fault may end the visit of one more name. -/
theorem Inquired.fault {fault : Fault}
    (hvisit : (survey.visit name depth).on p = (.error fault, q)) :
    survey.Inquired p q [name] := by
  obtain ⟨hfresh, _, hcalls, hstore⟩ := visit_error hvisit
  have hentries : ∀ verdict, survey.finding name = .ok verdict →
      q.store.entries = p.store.entries ++ [(name, verdict)] := by
    intro verdict hfinding
    rw [hstore, hfinding]
    exact Store.entries_record_of_fresh verdict (Store.verdict?_eq_none_iff.mpr hfresh)
  refine ⟨List.nodup_singleton name, by simpa using hfresh, by simpa using hcalls, ?_, ?_⟩
  · cases hfinding : survey.finding name with
    | error _ =>
        rw [hstore, hfinding]
        exact List.Subset.refl _
    | ok verdict =>
        rw [hentries verdict hfinding]
        exact List.subset_append_left _ _
  · intro other hother verdict hfinding
    obtain rfl := List.mem_singleton.mp hother
    simp [hentries verdict hfinding]

/-- Whatever is on the stack and however many steps are left, names are visited anew once. -/
theorem exists_inquired_walkFrames (survey : Survey) (fuel : Nat) :
    ∀ (stack : List Frame) (p : Progress),
      ∃ news, survey.Inquired p ((survey.walkFrames fuel stack).on p).2 news := by
  induction fuel with
  | zero =>
      intro stack p
      cases stack <;> exact ⟨[], .refl rfl rfl⟩
  | succ fuel ih =>
      intro stack p
      match stack with
      | [] => exact ⟨[], .refl rfl rfl⟩
      | ⟨[], _⟩ :: rest => exact ih rest p
      | ⟨name :: names, depth⟩ :: rest =>
          rw [walkFrames]
          rcases hvisit : (survey.visit name depth).on p with ⟨fault | opened, now⟩
          · rw [Run.on_bind_of_error _ hvisit]
            exact ⟨[name], .fault hvisit⟩
          · rw [Run.on_bind_of_ok _ hvisit]
            obtain ⟨news, hnews⟩ := ih (opened.toList ++ ⟨names, depth⟩ :: rest) now
            exact hnews.visit hvisit

/-! ## How often a walk asks -/

/-- What is asked for because of names, each call with its name. -/
def inquiries (survey : Survey) (names : List String) : List (String × Call) :=
  names.flatMap fun name => (survey.callsFor name).map (name, ·)

/-- How often a kind of thing is asked for because of a name. -/
def timesAsked (log : List (String × Call)) (name : String) (kind : CallKind) : Nat :=
  (log.map fun entry => (entry.1, entry.2.kind)).count (name, kind)

theorem mem_inquiries {entry : String × Call} {names : List String} :
    entry ∈ survey.inquiries names ↔ entry.1 ∈ names ∧ entry.2 ∈ survey.callsFor entry.1 := by
  obtain ⟨name, call⟩ := entry
  simp only [inquiries, List.mem_flatMap, List.mem_map, Prod.mk.injEq]
  constructor
  · rintro ⟨_, hname, _, hcall, rfl, rfl⟩
    exact ⟨hname, hcall⟩
  · rintro ⟨hname, hcall⟩
    exact ⟨name, hname, call, hcall, rfl, rfl⟩

theorem map_snd_inquiries (survey : Survey) (names : List String) :
    (survey.inquiries names).map Prod.snd = names.flatMap survey.callsFor := by
  simp [inquiries, List.map_flatMap, Function.comp_def]

/-- Because of names that differ nothing is asked for twice. -/
theorem nodup_kinds_inquiries (survey : Survey) {names : List String} (h : names.Nodup) :
    ((survey.inquiries names).map fun entry => (entry.1, entry.2.kind)).Nodup := by
  rw [inquiries, List.map_flatMap, List.nodup_flatMap]
  refine ⟨fun name _ => ?_, ?_⟩
  · rw [List.map_map]
    have hkinds := (survey.nodup_kinds_callsFor name).map (Prod.mk_right_injective name)
    rwa [List.map_map] at hkinds
  · refine h.imp fun hne => ?_
    intro label hfirst hsecond
    obtain ⟨entry, hentry, rfl⟩ := List.mem_map.mp hfirst
    obtain ⟨other, hother, hlabel⟩ := List.mem_map.mp hsecond
    obtain ⟨_, _, rfl⟩ := List.mem_map.mp hentry
    obtain ⟨_, _, rfl⟩ := List.mem_map.mp hother
    exact hne (Prod.mk.inj hlabel).1.symm

theorem timesAsked_inquiries_le (survey : Survey) {names : List String} (h : names.Nodup)
    (name : String) (kind : CallKind) : timesAsked (survey.inquiries names) name kind ≤ 1 :=
  List.nodup_iff_count_le_one.mp (survey.nodup_kinds_inquiries h) _

theorem timesAsked_inquiries_eq_zero (survey : Survey) {names : List String} {name : String}
    (h : name ∉ names) (kind : CallKind) :
    timesAsked (survey.inquiries names) name kind = 0 := by
  refine List.count_eq_zero.mpr fun hmem => h ?_
  obtain ⟨entry, hentry, hlabel⟩ := List.mem_map.mp hmem
  obtain rfl := (Prod.mk.inj hlabel).1
  exact (mem_inquiries.mp hentry).1

theorem exists_inquired_walk (survey : Survey) (fuel : Nat) (root : String) (directory : Path)
    (depth : Int) (p : Progress) :
    ∃ now news, now.calls = p.calls ++ [.manifest directory] ∧
      p.store.names ⊆ now.store.names ∧
      survey.Inquired now ((survey.walk fuel root directory depth).on p).2 news := by
  unfold walk
  rcases hopen : (survey.openPackage root directory depth).on p with ⟨fault | frame, now⟩
  · obtain ⟨_, hstore, hcalls⟩ := openPackage_error hopen
    rw [Run.on_bind_of_error _ hopen]
    exact ⟨now, [], hcalls, hstore ▸ List.Subset.refl _, .refl rfl rfl⟩
  · obtain ⟨names, _, _, hstore, hcalls⟩ := openPackage_ok hopen
    rw [Run.on_bind_of_ok _ hopen]
    obtain ⟨news, hnews⟩ := survey.exists_inquired_walkFrames fuel frame.toList now
    refine ⟨now, news, hcalls, ?_, hnews⟩
    cases names with
    | some names => exact hstore ▸ List.Subset.refl _
    | none => exact hstore ▸ p.store.names_subset_record root .unreadable

/-- What a walk asks for, each call with the name because of which it is made: the manifest of
the start, and then what the names lead to that are visited anew. -/
def walkLog (survey : Survey) (root : String) (directory : Path) (news : List String) :
    List (String × Call) :=
  (root, .manifest directory) :: survey.inquiries news

theorem timesAsked_walkLog (survey : Survey) (root : String) (directory : Path)
    (news : List String) (name : String) (kind : CallKind) :
    timesAsked (survey.walkLog root directory news) name kind =
      timesAsked (survey.inquiries news) name kind +
        if root = name ∧ .manifest = kind then 1 else 0 := by
  unfold walkLog timesAsked
  rw [List.map_cons, List.count_cons]
  simp [Call.kind]

/-- Because of one name a walk asks at most once for an entry, a script, a judgement, a directory
and a manifest, but for the manifest that it starts with.  It asks for nothing because of a name
that had a verdict, and for a directory and a manifest only because of a name that it records as
unreadable.  This holds of walks that a fault or a lack of steps ends, too.  The walk of a survey
of a package starts with a name that has a verdict. -/
theorem walk_asks_once (survey : Survey) (fuel : Nat) (root : String) (directory : Path)
    (depth : Int) (p : Progress) :
    ∃ q news, ((survey.walk fuel root directory depth).on p).2 = q ∧
      q.calls = p.calls ++ (survey.walkLog root directory news).map Prod.snd ∧
      (∀ entry ∈ survey.inquiries news, survey.Concerns entry.1 entry.2) ∧
      (∀ name kind, kind ≠ .manifest →
        timesAsked (survey.walkLog root directory news) name kind ≤ 1) ∧
      (∀ name, name ≠ root →
        timesAsked (survey.walkLog root directory news) name .manifest ≤ 1) ∧
      timesAsked (survey.walkLog root directory news) root .manifest ≤ 2 ∧
      (root ∈ p.store.names →
        timesAsked (survey.walkLog root directory news) root .manifest ≤ 1) ∧
      (∀ name ∈ p.store.names, ∀ kind, kind ≠ .manifest →
        timesAsked (survey.walkLog root directory news) name kind = 0) ∧
      (∀ entry ∈ survey.inquiries news, entry.2.kind = .locate ∨ entry.2.kind = .manifest →
        entry.1 ∉ p.store.names ∧ (entry.1, .unreadable) ∈ q.store.entries) ∧
      (∀ (tree : FileTree) (options : Options) (start : Progress) name place now,
        (startPackage tree options).on start = (.ok (name, place), now) →
          name ∈ now.store.names) := by
  obtain ⟨now, news, hcalls, hkept, hnews⟩ :=
    survey.exists_inquired_walk fuel root directory depth p
  have hfresh : ∀ name ∈ p.store.names, name ∉ news :=
    fun name hname hagain => hnews.fresh name hagain (hkept hname)
  have honce := survey.timesAsked_inquiries_le hnews.nodup
  refine ⟨_, news, rfl, ?_, ?_, ?_, ?_, ?_, ?_, ?_, ?_,
    fun _ _ _ _ _ _ => mem_names_of_startPackage⟩
  · rw [hnews.calls, hcalls, List.append_assoc, walkLog, List.map_cons, map_snd_inquiries]
    rfl
  · intro entry hentry
    exact (concerns_of_mem_callsFor (mem_inquiries.mp hentry).2).1
  · intro name kind hkind
    rw [timesAsked_walkLog, if_neg fun h => hkind h.2.symm]
    exact honce name kind
  · intro name hname
    rw [timesAsked_walkLog, if_neg fun h => hname h.1.symm]
    exact honce name .manifest
  · rw [timesAsked_walkLog, if_pos ⟨rfl, rfl⟩]
    exact Nat.succ_le_succ (honce root .manifest)
  · intro hroot
    rw [timesAsked_walkLog, if_pos ⟨rfl, rfl⟩,
      survey.timesAsked_inquiries_eq_zero (hfresh root hroot)]
  · intro name hname kind hkind
    rw [timesAsked_walkLog, if_neg fun h => hkind h.2.symm,
      survey.timesAsked_inquiries_eq_zero (hfresh name hname)]
  · intro entry hentry hkind
    obtain ⟨hmem, hcall⟩ := mem_inquiries.mp hentry
    have hfinding := (concerns_of_mem_callsFor hcall).2 hkind
    exact ⟨fun hold => hfresh _ hold hmem, hnews.recorded _ hmem _ hfinding⟩

end Survey

end EditionSurvey
