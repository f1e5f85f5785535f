/-
  Proofs/Loop.lean --- the loop of a walk, iteration by iteration.

  `Loop` relates a stack of frames and a progress to the iterations that follow, and to how
  they end.  It speaks of no bound on their number.  `exists_loop` says that the loop ends on
  every finite graph: either a name that has no verdict gets one, or less is left to do for
  the frames on the stack.  `walkFrames_of_loop` says that the walk that is given at least so
  many steps does exactly what the loop does.

  `Walks` is the same for a whole walk, which starts with opening a package.
-/
import EditionSurvey.Proofs.Visit
import Mathlib.Algebra.Group.Action.Defs
import Mathlib.Algebra.Order.BigOperators.Group.List
import Mathlib.Algebra.Order.Ring.Nat
import Mathlib.Data.Finset.Card

set_option autoImplicit false

namespace EditionSurvey

namespace Survey

/-! ## Iterations -/

/-- What an iteration of the loop does. -/
inductive Iteration where
  /-- a package that has no dependencies left is removed -/
  | leave
  /-- a dependency is visited; the package that is opened by that, if one is -/
  | visit (name : String) (opened : Option Frame)
  deriving DecidableEq, Repr

/-- The dependency that an iteration visits, if it does. -/
def Iteration.visited? : Iteration → Option String
  | .leave => none
  | .visit name _ => some name

/-- The package that an iteration opens, if it does, with the names of its dependencies. -/
def Iteration.opened? : Iteration → Option (String × List String)
  | .leave => none
  | .visit name opened => opened.map fun frame => (name, frame.names)

/-- The dependencies that are visited, in order. -/
def visitedBy (iterations : List Iteration) : List String :=
  iterations.filterMap Iteration.visited?

/-- The packages that are opened, in order, with the names of their dependencies. -/
def openedBy (iterations : List Iteration) : List (String × List String) :=
  iterations.filterMap Iteration.opened?

/-- What the loop does from a stack and a progress: its iterations, what it yields and what has
been done then. -/
inductive Loop (survey : Survey) :
    List Frame → Progress → List Iteration → Except Fault Unit → Progress → Prop where
  /-- nothing is left -/
  | done {p : Progress} : Loop survey [] p [] (.ok ()) p
  /-- a package has no dependencies left -/
  | leave {depth : Int} {rest : List Frame} {p q : Progress} {iterations : List Iteration}
      {result : Except Fault Unit} (next : Loop survey rest p iterations result q) :
      Loop survey (⟨[], depth⟩ :: rest) p (.leave :: iterations) result q
  /-- a dependency is visited -/
  | visit {name : String} {names : List String} {depth : Int} {rest : List Frame}
      {p now q : Progress} {opened : Option Frame} {iterations : List Iteration}
      {result : Except Fault Unit}
      (first : (survey.visit name depth).on p = (.ok opened, now))
      (next : Loop survey (opened.toList ++ ⟨names, depth⟩ :: rest) now iterations result q) :
      Loop survey (⟨name :: names, depth⟩ :: rest) p (.visit name opened :: iterations) result q
  /-- a fault ends the visit of a dependency -/
  | fault {name : String} {names : List String} {depth : Int} {rest : List Frame}
      {p q : Progress} {fault : Fault}
      (first : (survey.visit name depth).on p = (.error fault, q)) :
      Loop survey (⟨name :: names, depth⟩ :: rest) p [.visit name none] (.error fault) q

/-- With as many steps as the loop has iterations, or more, the walk does what the loop does. -/
theorem walkFrames_of_loop {survey : Survey} {stack : List Frame} {p q : Progress}
    {iterations : List Iteration} {result : Except Fault Unit}
    (h : Loop survey stack p iterations result q) :
    ∀ {fuel : Nat}, iterations.length ≤ fuel →
      (survey.walkFrames fuel stack).on p = (result, q) := by
  induction h with
  | done =>
      intro fuel _
      cases fuel <;> rfl
  | leave _ ih =>
      intro fuel hfuel
      obtain ⟨fuel, rfl⟩ := Nat.exists_eq_add_of_le' (Nat.one_le_of_lt hfuel)
      exact ih (Nat.le_of_succ_le_succ hfuel)
  | visit first _ ih =>
      intro fuel hfuel
      obtain ⟨fuel, rfl⟩ := Nat.exists_eq_add_of_le' (Nat.one_le_of_lt hfuel)
      rw [walkFrames, Run.on_bind_of_ok _ first]
      exact ih (Nat.le_of_succ_le_succ hfuel)
  | fault first =>
      intro fuel hfuel
      obtain ⟨fuel, rfl⟩ := Nat.exists_eq_add_of_le' (Nat.one_le_of_lt hfuel)
      rw [walkFrames, Run.on_bind_of_error _ first]

/-- A bounded walk that yields did what the loop does. -/
theorem exists_loop_of_walkFrames {survey : Survey} {fuel : Nat} :
    ∀ {stack : List Frame} {p q : Progress},
      (survey.walkFrames fuel stack).on p = (.ok (), q) →
        ∃ iterations, Loop survey stack p iterations (.ok ()) q := by
  induction fuel with
  | zero =>
      intro stack p q h
      cases stack with
      | nil =>
          obtain ⟨_, rfl⟩ := Prod.mk.inj h
          exact ⟨[], .done⟩
      | cons frame rest => simp [walkFrames] at h
  | succ fuel ih =>
      intro stack p q h
      match stack with
      | [] =>
          obtain ⟨_, rfl⟩ := Prod.mk.inj h
          exact ⟨[], .done⟩
      | ⟨[], _⟩ :: rest =>
          obtain ⟨iterations, hloop⟩ := ih h
          exact ⟨_, .leave hloop⟩
      | ⟨name :: names, depth⟩ :: rest =>
          obtain ⟨opened, now, hvisit, hnext⟩ := Run.exists_of_bind_ok h
          obtain ⟨iterations, hloop⟩ := ih hnext
          exact ⟨_, .visit hvisit hloop⟩

/-! ## Finite graphs -/

/-- All names that a walk can come to when it starts in a directory are among some given ones:
the start depends on those only, and so does every one of them that is opened. -/
structure ConfinedTo (survey : Survey) (start : Path) (scope : List String) : Prop where
  /-- what the start depends on -/
  starting : ∀ names, survey.listing start = .ok (some names) → names ⊆ scope
  /-- what one of the names depends on -/
  onward : ∀ name ∈ scope, ∀ directory names, survey.directoryFor name = .ok directory →
    survey.listing directory = .ok (some names) → names ⊆ scope

/-- The frames of a stack hold given names only. -/
def HoldsWithin (scope : List String) (stack : List Frame) : Prop :=
  ∀ frame ∈ stack, frame.names ⊆ scope

/-- The number of names that have no verdict. -/
def pending (scope : List String) (p : Progress) : Nat :=
  (scope.toFinset \ p.store.names.toFinset).card

/-- The number of iterations that the frames of a stack take by themselves. -/
def load (stack : List Frame) : Nat := (stack.map fun frame => frame.names.length + 1).sum

@[simp] theorem load_cons (frame : Frame) (rest : List Frame) :
    load (frame :: rest) = frame.names.length + 1 + load rest := by
  simp [load]

@[simp] theorem load_append (first next : List Frame) :
    load (first ++ next) = load first + load next := by
  simp [load]

theorem pending_eq {scope : List String} {p q : Progress} (h : q.store = p.store) :
    pending scope q = pending scope p := by
  rw [pending, pending, h]

/-- Recording a name leaves fewer names without a verdict. -/
theorem pending_lt {scope : List String} {name : String} {verdict : Verdict} {p q : Progress}
    (hname : name ∈ scope) (hfresh : name ∉ p.store.names)
    (hentries : q.store.entries = p.store.entries ++ [(name, verdict)]) :
    pending scope q < pending scope p := by
  have hnames : q.store.names = p.store.names ++ [name] := Store.names_of_added hentries
  apply Finset.card_lt_card
  rw [Finset.ssubset_iff_of_subset]
  · refine ⟨name, ?_, ?_⟩ <;> simp [hname, hfresh, hnames]
  · intro other hother
    simp only [Finset.mem_sdiff, List.mem_toFinset, hnames, List.mem_append, not_or] at hother ⊢
    exact ⟨hother.1, hother.2.1⟩

theorem pending_pos {scope : List String} {name : String} {p : Progress} (hname : name ∈ scope)
    (hfresh : name ∉ p.store.names) : 0 < pending scope p :=
  Finset.card_pos.mpr ⟨name, by simp [hname, hfresh]⟩

theorem pending_le_length (scope : List String) (p : Progress) :
    pending scope p ≤ scope.length :=
  (Finset.card_le_card Finset.sdiff_subset).trans (List.toFinset_card_le scope)

theorem HoldsWithin.tail {scope : List String} {frame : Frame} {rest : List Frame}
    (h : HoldsWithin scope (frame :: rest)) : HoldsWithin scope rest :=
  fun other hother => h other (List.mem_cons_of_mem frame hother)

/-- The stack after a visit holds no other names than before. -/
theorem HoldsWithin.visit {survey : Survey} {start : Path} {scope : List String}
    (hconfined : survey.ConfinedTo start scope) {name : String} {names : List String}
    {depth : Int} {rest : List Frame} {p q : Progress} {opened : Option Frame}
    (hstack : HoldsWithin scope (⟨name :: names, depth⟩ :: rest))
    (h : (survey.visit name depth).on p = (.ok opened, q)) :
    HoldsWithin scope (opened.toList ++ ⟨names, depth⟩ :: rest) := by
  have htop : name :: names ⊆ scope := hstack _ List.mem_cons_self
  have hremaining : HoldsWithin scope (⟨names, depth⟩ :: rest) := by
    intro frame hframe
    rcases List.mem_cons.mp hframe with rfl | hframe
    · exact fun other hother => htop (List.mem_cons_of_mem name hother)
    · exact hstack.tail frame hframe
  intro frame hframe
  rcases List.mem_append.mp hframe with hframe | hframe
  · rcases visit_ok h with ⟨_, rfl, _⟩ | ⟨_, _, _, expanded, hexpansion, rfl⟩
    · simp at hframe
    · cases expanded with
      | none => simp at hframe
      | some inner =>
          obtain ⟨_, directory, hdirectory, hlisting⟩ := expansion_eq_some_iff.mp hexpansion
          obtain rfl : frame = ⟨inner, depth + 1⟩ := by simpa using hframe
          exact hconfined.onward name (htop List.mem_cons_self) directory inner hdirectory hlisting
  · exact hremaining frame hframe

/-! ## The loop ends -/

/-- The loop ends on every finite graph.  Each iteration leaves fewer names without a verdict,
or as many of them and less to do for the frames on the stack. -/
theorem exists_loop {survey : Survey} {start : Path} {scope : List String}
    (hconfined : survey.ConfinedTo start scope) :
    ∀ (stack : List Frame) (p : Progress), HoldsWithin scope stack →
      ∃ iterations result q, Loop survey stack p iterations result q
  | [], p, _ => ⟨[], .ok (), p, .done⟩
  | ⟨[], _⟩ :: rest, p, hstack => by
      obtain ⟨iterations, result, q, hloop⟩ := exists_loop hconfined rest p hstack.tail
      exact ⟨_, result, q, .leave hloop⟩
  | ⟨name :: names, depth⟩ :: rest, p, hstack => by
      cases hvisit : (survey.visit name depth).on p with
      | mk outcome now =>
          cases outcome with
          | error fault => exact ⟨_, _, now, .fault hvisit⟩
          | ok opened =>
              have hname : name ∈ scope := hstack _ List.mem_cons_self List.mem_cons_self
              -- a known name leaves less to do, a new one fewer names without a verdict
              have hdecrease :
                  Prod.Lex (· < ·) (· < ·)
                    (pending scope now, load (opened.toList ++ ⟨names, depth⟩ :: rest))
                    (pending scope p, load (⟨name :: names, depth⟩ :: rest)) := by
                rcases visit_ok hvisit with ⟨_, rfl, hstore, _⟩ | ⟨hfresh, _, ⟨_, _, hentries⟩, _⟩
                · rw [pending_eq hstore]
                  exact Prod.Lex.right _ (by simp)
                · exact Prod.Lex.left _ _ (pending_lt hname hfresh hentries)
              obtain ⟨iterations, result, q, hloop⟩ :=
                exists_loop hconfined _ now (hstack.visit hconfined hvisit)
              exact ⟨_, result, q, .visit hvisit hloop⟩
termination_by stack p => (pending scope p, load stack)
decreasing_by
  · exact Prod.Lex.right _ (by simp)
  · exact hdecrease

/-! ## What the loop visits and opens -/

@[simp] theorem openedBy_nil : openedBy [] = [] := rfl

@[simp] theorem openedBy_leave (iterations : List Iteration) :
    openedBy (.leave :: iterations) = openedBy iterations := rfl

@[simp] theorem openedBy_visit (name : String) (opened : Option Frame)
    (iterations : List Iteration) :
    openedBy (.visit name opened :: iterations) =
      opened.toList.map (fun frame => (name, frame.names)) ++ openedBy iterations := by
  cases opened <;> rfl

@[simp] theorem visitedBy_visit (name : String) (opened : Option Frame)
    (iterations : List Iteration) :
    visitedBy (.visit name opened :: iterations) = name :: visitedBy iterations := rfl

/-- The number of iterations that opened packages take: one for each dependency, and one to
remove the package. -/
def cost (packages : List (String × List String)) : Nat :=
  (packages.map fun package => package.2.length + 1).sum

@[simp] theorem cost_append (first next : List (String × List String)) :
    cost (first ++ next) = cost first + cost next := by
  simp [cost]

theorem cost_map_frame (name : String) (frames : List Frame) :
    cost (frames.map fun frame => (name, frame.names)) = load frames := by
  simp [cost, load, Function.comp_def]

variable {survey : Survey} {stack : List Frame} {p q : Progress} {iterations : List Iteration}
  {result : Except Fault Unit}

/-- Each iteration is paid for by a frame of the stack or by a package that is opened. -/
theorem Loop.length_le (h : Loop survey stack p iterations result q) :
    iterations.length ≤ load stack + cost (openedBy iterations) := by
  induction h with
  | done => simp
  | leave _ ih =>
      simp only [List.length_cons, load_cons, openedBy_leave, List.length_nil]
      omega
  | visit _ _ ih =>
      simp only [load_append, load_cons] at ih
      simp only [List.length_cons, load_cons, openedBy_visit, cost_append, cost_map_frame]
      omega
  | fault =>
      simp only [List.length_cons, List.length_nil, load_cons]
      omega

/-- A package that is opened had no verdict before, and none is opened again. -/
theorem Loop.opened_fresh (h : Loop survey stack p iterations result q) :
    (∀ name ∈ (openedBy iterations).map Prod.fst, name ∉ p.store.names) ∧
      ((openedBy iterations).map Prod.fst).Nodup := by
  induction h with
  | done => simp
  | leave _ ih => exact ih
  | @visit name _ _ _ p now _ opened later _ first _ ih =>
      obtain ⟨hfresh, hnodup⟩ := ih
      rcases visit_ok first with ⟨_, rfl, hstore, _⟩ | ⟨hnew, _, ⟨_, _, hentries⟩, _⟩
      · rw [hstore] at hfresh
        exact ⟨hfresh, hnodup⟩
      · have hnames : now.store.names = p.store.names ++ [name] := Store.names_of_added hentries
        have hlater : ∀ other ∈ (openedBy later).map Prod.fst,
            other ∉ p.store.names ∧ other ≠ name := by
          intro other hother
          have hnot := hfresh other hother
          rw [hnames] at hnot
          simpa using hnot
        cases opened with
        | none => exact ⟨fun other hother => (hlater other hother).1, hnodup⟩
        | some frame =>
            simp only [openedBy_visit, Option.toList_some, List.map_cons, List.map_nil,
              List.singleton_append, List.mem_cons, List.nodup_cons]
            refine ⟨?_, fun hmem => (hlater name hmem).2 rfl, hnodup⟩
            rintro other (rfl | hother)
            · exact hnew
            · exact (hlater other hother).1
  | fault => simp

/-- What is opened was visited, and what it depends on is listed in its directory. -/
theorem Loop.opened_listed (h : Loop survey stack p iterations result q) :
    ∀ package ∈ openedBy iterations, package.1 ∈ visitedBy iterations ∧
      survey.expansion package.1 = .ok (some package.2) := by
  induction h with
  | done => simp
  | leave _ ih => exact ih
  | visit first _ ih =>
      intro package hpackage
      rw [openedBy_visit, List.mem_append] at hpackage
      rcases hpackage with hpackage | hpackage
      · obtain ⟨frame, hframe, rfl⟩ := List.mem_map.mp hpackage
        refine ⟨List.mem_cons_self, ?_⟩
        rcases visit_ok first with ⟨_, rfl, _⟩ | ⟨_, _, _, expanded, hexpansion, rfl⟩
        · simp at hframe
        · obtain ⟨names, hnames, rfl⟩ : ∃ names, expanded = some names ∧ ⟨names, _⟩ = frame := by
            simpa using hframe
          rw [hexpansion, hnames]
      · exact ⟨List.mem_cons_of_mem _ (ih package hpackage).1, (ih package hpackage).2⟩
  | fault => simp

/-- On a finite graph all that is visited is among its names. -/
theorem Loop.visited_subset {start : Path} {scope : List String}
    (hconfined : survey.ConfinedTo start scope) (h : Loop survey stack p iterations result q)
    (hstack : HoldsWithin scope stack) : visitedBy iterations ⊆ scope := by
  induction h with
  | done => exact List.nil_subset _
  | leave _ ih => exact ih hstack.tail
  | visit first _ ih =>
      rw [visitedBy_visit, List.cons_subset]
      exact ⟨hstack _ List.mem_cons_self List.mem_cons_self, ih (hstack.visit hconfined first)⟩
  | fault first =>
      rw [visitedBy_visit, List.cons_subset]
      exact ⟨hstack _ List.mem_cons_self List.mem_cons_self, List.nil_subset _⟩

/-- No fault ends the loop when everything that is asked for is answered. -/
theorem Loop.result_eq_ok (hreliable : survey.Reliable)
    (h : Loop survey stack p iterations result q) : result = .ok () := by
  induction h with
  | done => rfl
  | leave _ ih => exact ih
  | visit _ _ ih => exact ih
  | @fault name _ _ _ _ _ _ first =>
      obtain ⟨names, hnames⟩ := exists_expansion hreliable name
      rw [(visit_error first).2.1] at hnames
      cases hnames

theorem nodup_listing {survey : Survey} {directory : Path} {names : List String}
    (h : survey.listing directory = .ok (some names)) : names.Nodup := by
  obtain ⟨manifest, _, rfl⟩ := listing_eq_some_iff.mp h
  exact nodup_inOrder _

/-- A package of a finite graph depends on no more names than there are. -/
theorem length_listing_le {survey : Survey} {directory : Path} {names scope : List String}
    (h : survey.listing directory = .ok (some names)) (hnames : names ⊆ scope) :
    names.length ≤ scope.length :=
  (nodup_listing h).length_le_of_subset hnames

/-- On a finite graph the packages that the loop opens cost at most as much as all names would
that depend on all names. -/
theorem Loop.cost_openedBy_le {start : Path} {scope : List String}
    (hconfined : survey.ConfinedTo start scope) (h : Loop survey stack p iterations result q)
    (hstack : HoldsWithin scope stack) :
    cost (openedBy iterations) ≤ scope.length * (scope.length + 1) := by
  have hvisited := h.visited_subset hconfined hstack
  have hcount : (openedBy iterations).length ≤ scope.length := by
    have hsubset : (openedBy iterations).map Prod.fst ⊆ scope := by
      intro name hname
      obtain ⟨package, hpackage, rfl⟩ := List.mem_map.mp hname
      exact hvisited (h.opened_listed package hpackage).1
    simpa using h.opened_fresh.2.length_le_of_subset hsubset
  have heach : ∀ size ∈ (openedBy iterations).map fun package => package.2.length + 1,
      size ≤ scope.length + 1 := by
    intro size hsize
    obtain ⟨package, hpackage, rfl⟩ := List.mem_map.mp hsize
    obtain ⟨hmem, hexpansion⟩ := h.opened_listed package hpackage
    obtain ⟨_, directory, hdirectory, hlisting⟩ := expansion_eq_some_iff.mp hexpansion
    have hnames := hconfined.onward _ (hvisited hmem) directory _ hdirectory hlisting
    exact Nat.succ_le_succ (length_listing_le hlisting hnames)
  calc cost (openedBy iterations)
      ≤ ((openedBy iterations).map fun package => package.2.length + 1).length •
          (scope.length + 1) := List.sum_le_card_nsmul _ _ heach
    _ ≤ scope.length * (scope.length + 1) := by
        rw [List.length_map, smul_eq_mul]
        exact Nat.mul_le_mul_right _ hcount

/-! ## Whole walks -/

/-- What a walk does: the frame of the package that it starts with, the iterations of its loop,
what it yields and what has been done then. -/
inductive Walks (survey : Survey) (name : String) (directory : Path) (depth : Int)
    (p : Progress) : Option Frame → List Iteration → Except Fault Unit → Progress → Prop where
  /-- a fault ends the opening of the start -/
  | fault {q : Progress} {fault : Fault}
      (first : (survey.openPackage name directory depth).on p = (.error fault, q)) :
      Walks survey name directory depth p none [] (.error fault) q
  /-- the start is opened, if it has a manifest, and the loop follows -/
  | start {root : Option Frame} {now q : Progress} {iterations : List Iteration}
      {result : Except Fault Unit}
      (first : (survey.openPackage name directory depth).on p = (.ok root, now))
      (next : Loop survey root.toList now iterations result q) :
      Walks survey name directory depth p root iterations result q

/-- The packages that a walk opens, the start included, with the names of their
dependencies. -/
def openedFrom (name : String) (root : Option Frame) (iterations : List Iteration) :
    List (String × List String) :=
  root.toList.map (fun frame => (name, frame.names)) ++ openedBy iterations

/-- With as many steps as there are iterations, or more, a walk does what its loop does. -/
theorem walk_of_walks {name : String} {directory : Path} {depth : Int} {root : Option Frame}
    (h : Walks survey name directory depth p root iterations result q) {fuel : Nat}
    (hfuel : iterations.length ≤ fuel) :
    (survey.walk fuel name directory depth).on p = (result, q) := by
  unfold walk
  cases h with
  | fault first => exact Run.on_bind_of_error _ first
  | start first next =>
      rw [Run.on_bind_of_ok _ first]
      exact walkFrames_of_loop next hfuel

/-- A walk that yields within its number of steps is one that the loop does. -/
theorem exists_walks_of_walk {fuel : Nat} {name : String} {directory : Path} {depth : Int}
    (h : (survey.walk fuel name directory depth).on p = (.ok (), q)) :
    ∃ root iterations, Walks survey name directory depth p root iterations (.ok ()) q := by
  obtain ⟨root, now, hopen, hnext⟩ := Run.exists_of_bind_ok h
  obtain ⟨iterations, hloop⟩ := exists_loop_of_walkFrames hnext
  exact ⟨root, iterations, .start hopen hloop⟩

theorem Walks.result_eq_ok (hreliable : survey.Reliable) {name : String}
    {directory : Path} {depth : Int} {root : Option Frame}
    (h : Walks survey name directory depth p root iterations result q) : result = .ok () := by
  cases h with
  | fault first =>
      obtain ⟨names, hnames⟩ := exists_listing hreliable directory
      rw [(openPackage_error first).1] at hnames
      cases hnames
  | start _ next => exact next.result_eq_ok hreliable

theorem HoldsWithin.start {scope : List String} {name : String} {start : Path} {depth : Int}
    {root : Option Frame} (hconfined : survey.ConfinedTo start scope)
    (h : (survey.openPackage name start depth).on p = (.ok root, q)) :
    HoldsWithin scope root.toList := by
  obtain ⟨listed, hlisting, rfl, _⟩ := openPackage_ok h
  intro frame hframe
  cases listed with
  | none => simp at hframe
  | some names =>
      obtain rfl : frame = ⟨names, depth⟩ := by simpa using hframe
      exact hconfined.starting names hlisting

/-- The iterations of a walk are paid for by the packages that it opens. -/
theorem Walks.length_le {name : String} {directory : Path} {depth : Int} {root : Option Frame}
    (h : Walks survey name directory depth p root iterations result q) :
    iterations.length ≤ cost (openedFrom name root iterations) := by
  cases h with
  | fault => simp
  | start _ next =>
      rw [openedFrom, cost_append, cost_map_frame]
      exact next.length_le

/-- A walk over a finite graph ends, within the number of steps that is set for it. -/
theorem exists_walks {start : Path} {scope : List String}
    (hconfined : survey.ConfinedTo start scope) (name : String) (depth : Int) (p : Progress) :
    ∃ root iterations result q, Walks survey name start depth p root iterations result q ∧
      iterations.length ≤ stepsFor scope.length := by
  cases hopen : (survey.openPackage name start depth).on p with
  | mk outcome now =>
      cases outcome with
      | error fault => exact ⟨_, _, _, now, .fault hopen, Nat.zero_le _⟩
      | ok root =>
          have hroot := HoldsWithin.start hconfined hopen
          obtain ⟨iterations, result, q, hloop⟩ := exists_loop hconfined root.toList now hroot
          refine ⟨root, iterations, result, q, .start hopen hloop, ?_⟩
          have hload : load root.toList ≤ scope.length + 1 := by
            obtain ⟨listed, hlisting, rfl, _⟩ := openPackage_ok hopen
            cases listed with
            | none => simp [load]
            | some names =>
                have hlength := length_listing_le hlisting (hconfined.starting names hlisting)
                simpa [load] using hlength
          calc iterations.length
              ≤ load root.toList + cost (openedBy iterations) := hloop.length_le
            _ ≤ (scope.length + 1) + scope.length * (scope.length + 1) :=
                Nat.add_le_add hload (hloop.cost_openedBy_le hconfined hroot)
            _ = stepsFor scope.length := by rw [stepsFor, Nat.succ_mul, Nat.add_comm]

end Survey

end EditionSurvey
