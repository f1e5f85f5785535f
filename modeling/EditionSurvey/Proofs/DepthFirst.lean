/-
  Proofs/DepthFirst.lean --- the walk is a plain depth-first recursion.

  `explore` visits the dependencies of a package by recursion: a dependency that has no usable
  entry is explored, with all that it leads to, before the next one is looked at.  It keeps no
  stack.  `walk_eq_explore` says that over every finite graph the walk and the recursion do the
  same from every progress: the same verdicts in the same order, the same lines, the same calls
  and the same log records, in the same order.

  The recursion is bounded by how deep packages may nest, the walk by its number of steps.  On a
  finite graph neither bound is met: a package is explored only when a verdict was just
  recorded for it, so each level of nesting leaves fewer names without a verdict.
-/
import EditionSurvey.Proofs.Catalog

set_option autoImplicit false

namespace EditionSurvey

namespace Survey

/-! ## The recursion -/

/-- Visit a dependency.  A known one is only announced; a new one is judged by its entry, and
without a usable entry it is explored in its directory. -/
def exploreDependency (survey : Survey) (exploreInner : String → Path → Run Unit)
    (depth : Int) (name : String) : Run Unit := do
  match (← get).store.get? name with
  | some state => survey.announce name state depth
  | none => do
      let entry ← survey.entryOf name
      let state ← survey.classify name entry depth
      if state.needsDescent then do
        let directory ← Run.ask (.locate name)
          (survey.surroundings.locate name survey.options.resolvePath)
        exploreInner name directory

/-- Visit the dependencies of a package in order, each with all that it leads to before the
next.  A package without a manifest is recorded as unreadable unless it has a verdict.
Packages may nest as deep as `nesting` says, this one included. -/
def explore (survey : Survey) : (nesting : Nat) → (name : String) → (directory : Path) →
    (depth : Int) → Run Unit
  | 0, _, _, _ => throw .unfinished
  | nesting + 1, name, directory, depth => do
      match ← Run.ask (.manifest directory) (survey.surroundings.manifest directory) with
      | .error failure => do
          Run.write .debug .walker failure.message
          modify fun progress => { progress with store := progress.store.record name .unreadable }
      | .ok manifest =>
          forM (manifest.dependencyNames survey.options.includePeer)
            (survey.exploreDependency
              (fun inner place => survey.explore nesting inner place (depth + 1)) depth)

/-- Explore what a frame has left. -/
def exploreFrame (survey : Survey) (nesting : Nat) (frame : Frame) : Run Unit :=
  forM frame.names (survey.exploreDependency
    (fun name directory => survey.explore nesting name directory (frame.depth + 1)) frame.depth)

/-! ## The recursion in terms of visits -/

/-- To explore a package is to open it and to explore the frame that this gives. -/
theorem explore_succ (survey : Survey) (nesting : Nat) (name : String) (directory : Path)
    (depth : Int) :
    survey.explore (nesting + 1) name directory depth =
      survey.openPackage name directory depth >>= fun root =>
        forM root.toList (survey.exploreFrame nesting) := by
  unfold openPackage
  rw [explore, bind_assoc]
  congr 1
  funext answer
  cases answer with
  | error failure => simp [bind_assoc]
  | ok manifest => simp [exploreFrame]

/-- To explore a dependency is to visit it and to explore the frame that this gives. -/
theorem exploreDependency_eq (survey : Survey) (nesting : Nat) (depth : Int) (name : String) :
    survey.exploreDependency
        (fun inner place => survey.explore (nesting + 1) inner place (depth + 1)) depth name =
      survey.visit name depth >>= fun opened =>
        forM opened.toList (survey.exploreFrame nesting) := by
  unfold exploreDependency visit visitNew descend
  rw [bind_assoc]
  congr 1
  funext progress
  cases progress.store.get? name with
  | some state => simp
  | none =>
      simp only [bind_assoc]
      congr 1
      funext entry
      congr 1
      funext state
      by_cases hstate : state.needsDescent = true
      · simp only [hstate, if_true, bind_assoc, explore_succ]
      · simp [hstate]

/-- Exploring a known dependency is visiting it, however deep packages may nest. -/
theorem exploreDependency_on_of_known (survey : Survey) {name : String} {p now : Progress}
    {depth : Int} (exploreInner : String → Path → Run Unit) (hknown : name ∈ p.store.names)
    (hvisit : (survey.visit name depth).on p = (.ok none, now)) :
    (survey.exploreDependency exploreInner depth name).on p = (.ok (), now) := by
  cases hverdict : p.store.verdict? name with
  | none => exact absurd hknown (Store.verdict?_eq_none_iff.mp hverdict)
  | some verdict =>
      have hget : p.store.get? name = some verdict.state := by simp [Store.get?, hverdict]
      rw [survey.visit_on_of_known hverdict] at hvisit
      unfold exploreDependency
      rw [Run.on_bind_of_ok _ (Run.on_get p)]
      simp only [hget]
      rw [survey.announce_on hverdict, (Prod.mk.inj hvisit).2]

theorem exploreFrame_nil (survey : Survey) (nesting : Nat) (depth : Int) :
    survey.exploreFrame nesting ⟨[], depth⟩ = pure () := rfl

theorem exploreFrame_cons (survey : Survey) (nesting : Nat) (name : String)
    (names : List String) (depth : Int) :
    survey.exploreFrame nesting ⟨name :: names, depth⟩ =
      survey.exploreDependency
          (fun inner place => survey.explore nesting inner place (depth + 1)) depth name >>=
        fun _ => survey.exploreFrame nesting ⟨names, depth⟩ := rfl

/-! ## The loop and the recursion -/

/-- The loop explores the frames of its stack one after the other.  Each frame has its own bound
on nesting, and each bound is large enough as long as it is at least the number of names
without a verdict. -/
theorem explore_of_loop {survey : Survey} {start : Path} {scope : List String}
    (hconfined : survey.ConfinedTo start scope) {stack : List Frame} {p q : Progress}
    {iterations : List Iteration} {result : Except Fault Unit}
    (h : Loop survey stack p iterations result q) :
    ∀ work : List (Nat × Frame), work.map Prod.snd = stack → HoldsWithin scope stack →
      (∀ item ∈ work, pending scope p ≤ item.1) →
      Run.on (forM work fun item => survey.exploreFrame item.1 item.2) p = (result, q) := by
  induction h with
  | done =>
      intro work hwork _ _
      rw [List.map_eq_nil_iff.mp hwork]
      rfl
  | leave _ ih =>
      intro work hwork hstack hroom
      obtain ⟨⟨nesting, frame⟩, work, rfl, rfl, hrest⟩ := List.map_eq_cons_iff.mp hwork
      rw [List.forM_cons, exploreFrame_nil, pure_bind]
      exact ih work hrest hstack.tail fun item hitem => hroom item (List.mem_cons_of_mem _ hitem)
  | @visit name names depth rest p now q opened iterations result first _ ih =>
      intro work hwork hstack hroom
      obtain ⟨⟨nesting, frame⟩, work, rfl, rfl, hrest⟩ := List.map_eq_cons_iff.mp hwork
      rw [List.forM_cons, exploreFrame_cons, bind_assoc]
      rcases visit_ok first with ⟨hknown, rfl, hstore, _⟩ | ⟨hfresh, _, ⟨_, _, hentries⟩, _⟩
      · rw [Run.on_bind_of_ok _ (survey.exploreDependency_on_of_known _ hknown first)]
        refine ih ((nesting, ⟨names, depth⟩) :: work) (by simp [hrest])
          (hstack.visit hconfined first) ?_
        rw [pending_eq hstore]
        simpa using hroom
      · have hpending : pending scope now < pending scope p :=
          pending_lt (hstack _ List.mem_cons_self List.mem_cons_self) hfresh hentries
        have hnesting : pending scope p ≤ nesting := hroom _ List.mem_cons_self
        obtain ⟨inner, rfl⟩ := Nat.exists_eq_add_of_le' (Nat.one_le_of_lt
          (Nat.lt_of_lt_of_le hpending hnesting))
        -- what is opened nests one level deeper, and one name less is without a verdict
        rw [exploreDependency_eq, bind_assoc, Run.on_bind_of_ok _ first]
        have hlater := ih (opened.toList.map (inner, ·) ++ (inner + 1, ⟨names, depth⟩) :: work)
          (by simp [hrest]) (hstack.visit hconfined first) (by
            intro item hitem
            rcases List.mem_append.mp hitem with hitem | hitem
            · obtain ⟨frame, _, rfl⟩ := List.mem_map.mp hitem
              exact Nat.le_of_lt_succ (Nat.lt_of_lt_of_le hpending hnesting)
            · have hearlier : pending scope p ≤ item.1 := by
                rcases List.mem_cons.mp hitem with rfl | hitem
                · exact hnesting
                · exact hroom item (List.mem_cons_of_mem _ hitem)
              exact Nat.le_trans (Nat.le_of_lt hpending) hearlier)
        rw [List.forM_append, List.forM_map, List.forM_cons] at hlater
        exact hlater
  | @fault name names depth rest p q fault first =>
      intro work hwork hstack hroom
      obtain ⟨⟨nesting, frame⟩, work, rfl, rfl, hrest⟩ := List.map_eq_cons_iff.mp hwork
      have hpending : 0 < pending scope p :=
        pending_pos (hstack _ List.mem_cons_self List.mem_cons_self) (visit_error first).1
      obtain ⟨inner, rfl⟩ := Nat.exists_eq_add_of_le' (Nat.one_le_of_lt
        (Nat.lt_of_lt_of_le hpending (hroom _ List.mem_cons_self)))
      rw [List.forM_cons, exploreFrame_cons, bind_assoc, exploreDependency_eq, bind_assoc]
      exact Run.on_bind_of_error _ first

/-- Over a finite graph the walk does what the recursion does, from every progress; neither the
number of steps nor the bound on nesting is met. -/
theorem walk_eq_explore {survey : Survey} {start : Path} {scope : List String}
    (hconfined : survey.ConfinedTo start scope) {fuel nesting : Nat}
    (hfuel : stepsFor scope.length ≤ fuel) (hnesting : scope.length < nesting) (name : String)
    (depth : Int) (p : Progress) :
    (survey.walk fuel name start depth).on p =
        (survey.explore nesting name start depth).on p ∧
      (survey.Reliable → ((survey.walk fuel name start depth).on p).1 = .ok ()) := by
  obtain ⟨root, iterations, result, q, hwalks, hlength⟩ := exists_walks hconfined name depth p
  obtain ⟨nesting, rfl⟩ := Nat.exists_eq_add_of_le' (Nat.one_le_of_lt hnesting)
  have hwalk := walk_of_walks hwalks (hlength.trans hfuel)
  refine ⟨?_, fun hreliable => ?_⟩
  · rw [hwalk, explore_succ]
    cases hwalks with
    | fault first => exact (Run.on_bind_of_error _ first).symm
    | @start _ now _ _ _ first next =>
        rw [Run.on_bind_of_ok _ first]
        have hexplored := explore_of_loop hconfined next (root.toList.map (nesting, ·))
          (by simp) (HoldsWithin.start hconfined first) (by
            intro item hitem
            obtain ⟨frame, _, rfl⟩ := List.mem_map.mp hitem
            exact (pending_le_length scope now).trans (Nat.le_of_lt_succ hnesting))
        rw [List.forM_map] at hexplored
        exact hexplored.symm
  · rw [hwalk]
    exact hwalks.result_eq_ok hreliable

/-- The walk over the small catalog does what the recursion does, and yields. -/
theorem walk_sample_eq_explore :
    (Catalog.sample.walk {} "app" 0).on {} =
        ((Catalog.sample.survey {}).explore (Catalog.sample.mentioned.length + 1) "app"
          (Catalog.directoryOf "app") 0).on {} ∧
      ((Catalog.sample.walk {} "app" 0).on {}).1 = .ok () := by
  have h := walk_eq_explore Catalog.confinedTo_sample (Nat.le_refl _) (Nat.lt_succ_self _)
    "app" 0 {}
  exact ⟨h.1, h.2 Catalog.reliable_sample⟩

end Survey

end EditionSurvey
