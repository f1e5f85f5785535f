/-
  Proofs/Reach.lean --- which names a walk records.

  `Reached` is the least set of names that the start depends on, directly or through a package
  that had no verdict before and has no usable entry.  `walk_records_reached` says that a walk
  over a finite graph adds exactly these names to the store, less those that were there, each
  with the verdict that its own entry leads to.

  What carries the proof is `Explored`: a name that is reached has a verdict, or some frame on
  the stack still has it before it.  The loop keeps this, and in the end no frame is left.
-/
import EditionSurvey.Proofs.Catalog

set_option autoImplicit false

namespace EditionSurvey

namespace Survey

/-! ## The names that are reached -/

/-- The names that the start depends on, directly or through a package that was not known and
has no usable entry. -/
inductive Reached (survey : Survey) (known : List String) (start : Path) : String → Prop where
  /-- the start depends on it -/
  | direct {names : List String} {name : String}
      (listed : survey.listing start = .ok (some names)) (mem : name ∈ names) :
      Reached survey known start name
  /-- a package that is reached depends on it -/
  | onward {parent name : String} {directory : Path} {names : List String}
      (earlier : Reached survey known start parent) (new : parent ∉ known)
      (unusable : survey.finding parent = .ok .unreadable)
      (located : survey.directoryFor parent = .ok directory)
      (listed : survey.listing directory = .ok (some names)) (mem : name ∈ names) :
      Reached survey known start name

theorem Reached.expand {survey : Survey} {known : List String} {start : Path}
    {parent name : String} {names : List String} (h : survey.Reached known start parent)
    (hnew : parent ∉ known) (hexpansion : survey.expansion parent = .ok (some names))
    (hmem : name ∈ names) : survey.Reached known start name := by
  obtain ⟨hfinding, directory, hdirectory, hlisting⟩ := expansion_eq_some_iff.mp hexpansion
  exact .onward h hnew hfinding hdirectory hlisting hmem

/-! ## What the stack still owes -/

/-- A name has a verdict, or a frame of the stack has it before it. -/
def Covered (stack : List Frame) (p : Progress) (name : String) : Prop :=
  name ∈ p.store.names ∨ ∃ frame ∈ stack, name ∈ frame.names

theorem Covered.leave {depth : Int} {rest : List Frame} {p : Progress} {name : String}
    (h : Covered (⟨[], depth⟩ :: rest) p name) : Covered rest p name := by
  rcases h with hknown | ⟨frame, hframe, hname⟩
  · exact .inl hknown
  · rcases List.mem_cons.mp hframe with rfl | hframe
    · simp at hname
    · exact .inr ⟨frame, hframe, hname⟩

/-- A name that is visited is covered by its verdict from then on. -/
theorem Covered.visit {name other : String} {names : List String} {depth : Int}
    {rest : List Frame} {p now : Progress} (h : Covered (⟨name :: names, depth⟩ :: rest) p other)
    (hkept : p.store.names ⊆ now.store.names) (hname : name ∈ now.store.names)
    (opened : List Frame) :
    Covered (opened ++ ⟨names, depth⟩ :: rest) now other := by
  rcases h with hknown | ⟨frame, hframe, hother⟩
  · exact .inl (hkept hknown)
  · rcases List.mem_cons.mp hframe with rfl | hframe
    · rcases List.mem_cons.mp hother with rfl | hother
      · exact .inl hname
      · exact .inr ⟨⟨names, depth⟩, by simp, hother⟩
    · exact .inr ⟨frame, by simp [hframe], hother⟩

/-- The state of a walk that started from the store `base`.  What it recorded and what it has
before it is reached, and what it still has to record is covered. -/
structure Explored (survey : Survey) (base : Store) (start : Path) (stack : List Frame)
    (p : Progress) : Prop where
  /-- verdicts were only added, on names that are reached and as their entries have it -/
  recorded : ∃ new, p.store.entries = base.entries ++ new ∧
    ∀ entry ∈ new, survey.Reached base.names start entry.1 ∧
      survey.finding entry.1 = .ok entry.2
  /-- what is before the walk is reached -/
  held : ∀ frame ∈ stack, ∀ name ∈ frame.names, survey.Reached base.names start name
  /-- what the start depends on is covered -/
  started : ∀ names, survey.listing start = .ok (some names) →
    ∀ name ∈ names, Covered stack p name
  /-- what a package depends on that was recorded by the walk is covered -/
  closed : ∀ parent ∈ p.store.names, parent ∉ base.names →
    ∀ names, survey.expansion parent = .ok (some names) → ∀ name ∈ names, Covered stack p name

variable {survey : Survey} {base : Store} {start : Path} {stack rest : List Frame}
  {p now q : Progress} {name : String} {names : List String} {depth : Int}

/-! ## The loop keeps the invariant -/

theorem Explored.leave (h : survey.Explored base start (⟨[], depth⟩ :: rest) p) :
    survey.Explored base start rest p where
  recorded := h.recorded
  held frame hframe := h.held frame (List.mem_cons_of_mem _ hframe)
  started names hnames name hname := (h.started names hnames name hname).leave
  closed parent hparent hnew names hnames name hname :=
    (h.closed parent hparent hnew names hnames name hname).leave

theorem Explored.visit_known
    (h : survey.Explored base start (⟨name :: names, depth⟩ :: rest) p)
    (hknown : name ∈ p.store.names) (hstore : now.store = p.store) :
    survey.Explored base start (⟨names, depth⟩ :: rest) now where
  recorded := hstore ▸ h.recorded
  held frame hframe other hother := by
    rcases List.mem_cons.mp hframe with rfl | hframe
    · exact h.held _ List.mem_cons_self other (List.mem_cons_of_mem name hother)
    · exact h.held frame (List.mem_cons_of_mem _ hframe) other hother
  started listed hlisted other hother :=
    (h.started listed hlisted other hother).visit (hstore ▸ List.Subset.refl _)
      (hstore ▸ hknown) []
  closed parent hparent hnew listed hlisted other hother :=
    (h.closed parent (hstore ▸ hparent) hnew listed hlisted other hother).visit
      (hstore ▸ List.Subset.refl _) (hstore ▸ hknown) []

theorem Explored.visit_new {verdict : Verdict} {expanded : Option (List String)} {inner : Int}
    (h : survey.Explored base start (⟨name :: names, depth⟩ :: rest) p)
    (hfresh : name ∉ p.store.names) (hfinding : survey.finding name = .ok verdict)
    (hentries : now.store.entries = p.store.entries ++ [(name, verdict)])
    (hexpansion : survey.expansion name = .ok expanded) :
    survey.Explored base start
      ((expanded.map (⟨·, inner⟩)).toList ++ ⟨names, depth⟩ :: rest) now := by
  have hnames : now.store.names = p.store.names ++ [name] := Store.names_of_added hentries
  have hkept : p.store.names ⊆ now.store.names := hnames ▸ List.subset_append_left _ _
  have hname : name ∈ now.store.names := by simp [hnames]
  have hreached := h.held _ List.mem_cons_self name List.mem_cons_self
  obtain ⟨new, hnew, hsound⟩ := h.recorded
  have hbase : name ∉ base.names := by
    intro hmem
    apply hfresh
    rw [Store.names_of_added hnew]
    exact List.mem_append_left _ hmem
  refine ⟨⟨new ++ [(name, verdict)], ?_, ?_⟩, ?_, ?_, ?_⟩
  · rw [hentries, hnew, List.append_assoc]
  · intro entry hentry
    rcases List.mem_append.mp hentry with hentry | hentry
    · exact hsound entry hentry
    · obtain rfl := List.mem_singleton.mp hentry
      exact ⟨hreached, hfinding⟩
  · intro frame hframe other hother
    rcases List.mem_append.mp hframe with hframe | hframe
    · obtain ⟨inner, rfl, rfl⟩ : ∃ inner', expanded = some inner' ∧ ⟨inner', inner⟩ = frame := by
        simpa using hframe
      exact hreached.expand hbase hexpansion hother
    · rcases List.mem_cons.mp hframe with rfl | hframe
      · exact h.held _ List.mem_cons_self other (List.mem_cons_of_mem name hother)
      · exact h.held frame (List.mem_cons_of_mem _ hframe) other hother
  · exact fun listed hlisted other hother =>
      (h.started listed hlisted other hother).visit hkept hname _
  · intro parent hparent hparentNew listed hlisted other hother
    rw [hnames, List.mem_append, List.mem_singleton] at hparent
    rcases hparent with hparent | rfl
    · exact (h.closed parent hparent hparentNew listed hlisted other hother).visit hkept hname _
    · -- what the new package depends on is in the frame that was opened for it
      rw [hexpansion, Except.ok.injEq] at hlisted
      subst hlisted
      exact .inr ⟨⟨listed, inner⟩, by simp, hother⟩

/-- The invariant holds once the start is opened. -/
theorem Explored.opened (hlisting : survey.listing start = .ok (some names))
    (hstore : p.store = base) : survey.Explored base start [⟨names, depth⟩] p where
  recorded := ⟨[], by simp [hstore], by simp⟩
  held frame hframe name hname := by
    obtain rfl := List.mem_singleton.mp hframe
    exact .direct hlisting hname
  started listed hlisted name hname := by
    obtain rfl : names = listed := by simpa [hlisting] using hlisted
    exact .inr ⟨_, List.mem_singleton_self _, hname⟩
  closed parent hparent hnew := absurd (hstore ▸ hparent) hnew

/-- The loop keeps the invariant to its end, when it yields. -/
theorem Explored.run {iterations : List Iteration} {result : Except Fault Unit}
    (hloop : Loop survey stack p iterations result q) (hresult : result = .ok ())
    (h : survey.Explored base start stack p) : survey.Explored base start [] q := by
  induction hloop with
  | done => exact h
  | leave _ ih => exact ih hresult h.leave
  | visit first _ ih =>
      rcases visit_ok first with
        ⟨hknown, rfl, hstore, _⟩ |
          ⟨hfresh, _, ⟨verdict, hfinding, hentries⟩, expanded, hexpansion, rfl⟩
      · exact ih hresult (h.visit_known hknown hstore)
      · exact ih hresult (h.visit_new hfresh hfinding hentries hexpansion)
  | fault => cases hresult

/-- When no frame is left, every name that is reached has a verdict. -/
theorem Explored.mem_names (h : survey.Explored base start [] q)
    (hname : survey.Reached base.names start name) : name ∈ q.store.names := by
  have hcovered : ∀ {other}, Covered [] q other → other ∈ q.store.names := by
    intro other hother
    simpa [Covered] using hother
  induction hname with
  | direct listed mem => exact hcovered (h.started _ listed _ mem)
  | @onward parent _ directory _ _ new unusable located listed mem ih =>
      have hexpansion := expansion_eq_some_iff.mpr ⟨unusable, directory, located, listed⟩
      exact hcovered (h.closed parent ih new _ hexpansion _ mem)

/-- When no frame is left, the verdicts are those that were there, and on each name that is
reached and was not there the one that its entry leads to. -/
theorem Explored.verdict?_eq_some_iff (h : survey.Explored base start [] q) {verdict : Verdict} :
    q.store.verdict? name = some verdict ↔
      base.verdict? name = some verdict ∨
        name ∉ base.names ∧ survey.Reached base.names start name ∧
          survey.finding name = .ok verdict := by
  obtain ⟨new, hnew, hsound⟩ := h.recorded
  rw [Store.verdict?_eq_some_iff, Store.verdict?_eq_some_iff, hnew, List.mem_append]
  refine or_congr_right ⟨fun hentry => ?_, fun ⟨hold, hreached, hfinding⟩ => ?_⟩
  · have hname := (Store.mem_added_iff hnew).mp (List.mem_map.mpr ⟨_, hentry, rfl⟩)
    exact ⟨hname.2, hsound _ hentry⟩
  · obtain ⟨⟨other, found⟩, hentry, rfl⟩ := List.mem_map.mp
      ((Store.mem_added_iff hnew).mpr ⟨h.mem_names hreached, hold⟩)
    obtain rfl : found = verdict := Except.ok.inj ((hsound _ hentry).2.symm.trans hfinding)
    exact hentry

/-! ## Whole walks -/

theorem Walks.explored {root : String} {frame : Option Frame} {iterations : List Iteration}
    (h : Walks survey root start depth p frame iterations (.ok ()) q)
    (hnames : survey.listing start = .ok (some names)) :
    survey.Explored p.store start [] q := by
  cases h with
  | start first next =>
      obtain ⟨listed, hlisting, rfl, hstore, _⟩ := openPackage_ok first
      obtain rfl : listed = some names := by simpa [hnames, eq_comm] using hlisting
      exact (Explored.opened hnames hstore).run next rfl

theorem Walks.store_of_unlisted {root : String} {frame : Option Frame}
    {iterations : List Iteration} (h : Walks survey root start depth p frame iterations (.ok ()) q)
    (hnone : survey.listing start = .ok none) : q.store = p.store.record root .unreadable := by
  cases h with
  | start first next =>
      obtain ⟨listed, hlisting, rfl, hstore, _⟩ := openPackage_ok first
      obtain rfl : listed = none := by simpa [hnone, eq_comm] using hlisting
      cases next with
      | done => exact hstore

/-- A walk that yields found out whether its start has a manifest. -/
theorem Walks.exists_listing {root : String} {frame : Option Frame}
    {iterations : List Iteration} (h : Walks survey root start depth p frame iterations (.ok ()) q) :
    ∃ listed, survey.listing start = .ok listed := by
  cases h with
  | start first _ =>
      obtain ⟨listed, hlisting, _⟩ := openPackage_ok first
      exact ⟨listed, hlisting⟩

/-- A walk over a finite graph that fails only as expected yields.  When the start has a
manifest, the walk adds to the store exactly the names that are reached and were not there, each
with the verdict that its entry leads to.  When it has none, the walk records that, and nothing
else. -/
theorem walk_records_reached {scope : List String} (hconfined : survey.ConfinedTo start scope)
    (hreliable : survey.Reliable) {fuel : Nat} (hfuel : stepsFor scope.length ≤ fuel)
    (name : String) (depth : Int) (p : Progress) :
    ∃ q, (survey.walk fuel name start depth).on p = (.ok (), q) ∧
      (∀ names, survey.listing start = .ok (some names) →
        ∃ new, q.store.entries = p.store.entries ++ new ∧
          (∀ other, other ∈ new.map Prod.fst ↔
            survey.Reached p.store.names start other ∧ other ∉ p.store.names) ∧
          ∀ entry ∈ new, survey.finding entry.1 = .ok entry.2) ∧
      (survey.listing start = .ok none →
        q.store.entries =
          if name ∈ p.store.names then p.store.entries
          else p.store.entries ++ [(name, .unreadable)]) := by
  obtain ⟨root, iterations, result, q, hwalks, hlength⟩ := exists_walks hconfined name depth p
  obtain rfl := hwalks.result_eq_ok hreliable
  refine ⟨q, walk_of_walks hwalks (hlength.trans hfuel), ?_, ?_⟩
  · intro names hnames
    cases hwalks with
    | start first next =>
        obtain ⟨listed, hlisting, rfl, hstore, _⟩ := openPackage_ok first
        obtain rfl : listed = some names := by simpa [hnames, eq_comm] using hlisting
        have hexplored := (Explored.opened hnames hstore).run next rfl
        obtain ⟨new, hnew, hsound⟩ := hexplored.recorded
        refine ⟨new, hnew, fun other => ?_, fun entry hentry => (hsound entry hentry).2⟩
        rw [Store.mem_added_iff hnew]
        refine and_congr_left fun hold => ⟨fun hafter => ?_, hexplored.mem_names⟩
        obtain ⟨entry, hentry, rfl⟩ := List.mem_map.mp ((Store.mem_added_iff hnew).mpr ⟨hafter, hold⟩)
        exact (hsound entry hentry).1
  · intro hnone
    cases hwalks with
    | start first next =>
        obtain ⟨listed, hlisting, rfl, hstore, _⟩ := openPackage_ok first
        obtain rfl : listed = none := by simpa [hnone, eq_comm] using hlisting
        cases next with
        | done =>
            rw [hstore]
            exact Store.entries_record p.store name .unreadable

/-- The walk over the small catalog records the names that are reached. -/
theorem walk_sample_records_reached :
    ∃ q, (Catalog.sample.walk {} "app" 0).on {} = (.ok (), q) ∧
      ∀ other, other ∈ q.store.names ↔
        (Catalog.sample.survey {}).Reached [] (Catalog.directoryOf "app") other := by
  obtain ⟨q, hwalk, hreadable, _⟩ := walk_records_reached Catalog.confinedTo_sample
    Catalog.reliable_sample (Nat.le_refl _) "app" 0 {}
  obtain ⟨new, hnew, hmem, _⟩ := hreadable _ rfl
  refine ⟨q, hwalk, fun other => ?_⟩
  have hother := hmem other
  rw [Store.mem_added_iff hnew, and_congr_left_iff] at hother
  exact hother List.not_mem_nil

end Survey

end EditionSurvey
