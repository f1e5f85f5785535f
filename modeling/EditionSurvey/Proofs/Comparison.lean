/-
  Proofs/Comparison.lean --- surveys of the same packages whose verdicts may differ.

  Two surveys are comparable when they ask the same questions, get the same answers, and differ
  in their verdicts only in a way that makes no difference to which packages are opened.  Then
  they do the same visits: their stores have the same names in the same order, with related
  verdicts, and the same fault ends them if one does.  This holds of walks (`visit_compared`),
  and of the surveys of one file tree with options that ask for the same packages
  (`checkPackage_compared`, `checkTargets_compared`).
-/
import EditionSurvey.Proofs.Lockstep
import EditionSurvey.Survey.Check
import Mathlib.Data.List.Forall2

set_option autoImplicit false

namespace EditionSurvey

variable {V : Verdict → Verdict → Prop}

/-! ## Stores with related verdicts -/

namespace Store

/-- Stores with the same names in the same order, and related verdicts on each name. -/
def Related (V : Verdict → Verdict → Prop) (first second : Store) : Prop :=
  List.Forall₂ (fun a b => a.1 = b.1 ∧ V a.2 b.2) first.entries second.entries

variable {first second : Store}

theorem Related.names_eq (h : Related V first second) : second.names = first.names := by
  unfold Related at h
  rw [names, names]
  generalize first.entries = entries at h
  generalize second.entries = others at h
  induction h with
  | nil => rfl
  | cons hentry _ ih => rw [List.map_cons, List.map_cons, ih, hentry.1]

theorem Related.get? (h : Related V first second) (name : String) :
    (first.get? name = none ∧ second.get? name = none) ∨
      ∃ v w, V v w ∧ first.get? name = some v.state ∧ second.get? name = some w.state := by
  unfold Related at h
  simp only [Store.get?, verdict?]
  generalize first.entries = entries at h
  generalize second.entries = others at h
  induction h with
  | nil => exact .inl ⟨rfl, rfl⟩
  | @cons entry other _ _ hentry _ ih =>
      obtain ⟨key, v⟩ := entry
      obtain ⟨_, w⟩ := other
      obtain ⟨rfl, hv⟩ := hentry
      simp only [List.lookup_cons]
      cases name == key with
      | true => exact .inr ⟨v, w, hv, rfl, rfl⟩
      | false => exact ih

/-- A name that is new to one store is new to the other, so both record it or neither does. -/
theorem Related.record (h : Related V first second) (name : String) {v w : Verdict}
    (hv : V v w) : Related V (first.record name v) (second.record name w) := by
  unfold Related
  rw [entries_record, entries_record, h.names_eq]
  split
  · exact h
  · exact List.rel_append h (.cons ⟨rfl, hv⟩ .nil)

end Store

namespace Survey

/-! ## Comparable surveys -/

/-- Two surveys find the same entries, directories and dependencies, and their judgements are
related in a way that makes no difference to which packages are opened. -/
structure Comparable (V : Verdict → Verdict → Prop) (first second : Survey) : Prop where
  /-- verdicts that need no judgement are related -/
  refl : ∀ v, V v v
  /-- related verdicts open the same packages -/
  descent : ∀ v w, V v w → w.state.needsDescent = v.state.needsDescent
  /-- a name has the same entry -/
  entry : ∀ name, (second.entryOf name).result = (first.entryOf name).result
  /-- an entry is judged alike -/
  judge : ∀ path, Alike V (first.judge path).result (second.judge path).result
  /-- a name has the same directory -/
  directory : ∀ name, second.directoryFor name = first.directoryFor name
  /-- a directory lists the same dependencies -/
  listing : ∀ directory, second.listing directory = first.listing directory

/-- The stores that belong to two surveys are related. -/
def Stored (V : Verdict → Verdict → Prop) (p q : Progress) : Prop :=
  Store.Related V p.store q.store

/-- States that come from related verdicts. -/
def StatesOf (V : Verdict → Verdict → Prop) (s t : PackageState) : Prop :=
  ∃ v w, V v w ∧ v.state = s ∧ w.state = t

variable {first second : Survey}

theorem announce_lockstep {s t : PackageState} (name : String) (depth : Int) :
    Run.Lockstep (Stored V) (fun _ _ => True) (first.announce name s depth)
      (second.announce name t depth) := by
  -- whether a line is printed or not, no verdict is recorded
  have hquiet : ∀ (survey : Survey) (state : PackageState) (p : Progress),
      ((survey.announce name state depth).on p).1 = .ok () ∧
        ((survey.announce name state depth).on p).2.store = p.store := by
    intro survey state p
    unfold announce
    split
    · exact ⟨rfl, rfl⟩
    · exact ⟨rfl, rfl⟩
  intro p q hstores
  obtain ⟨hfirst, hstore⟩ := hquiet first s p
  obtain ⟨hsecond, hother⟩ := hquiet second t q
  unfold Stored
  rw [hfirst, hsecond, hstore, hother]
  exact ⟨.ok trivial, hstores⟩

variable (h : Comparable V first second)

include h

theorem evaluate_alike (entry : Option Path) :
    Alike V (first.evaluate entry).result (second.evaluate entry).result := by
  cases entry with
  | none => exact .ok (h.refl _)
  | some path =>
      rw [evaluate, evaluate]
      split
      · exact .ok (h.refl _)
      · exact h.judge path

theorem classify_compared (name : String) (entry : Option Path) (depth : Int) :
    Run.Lockstep (Stored V) (StatesOf V) (first.classify name entry depth)
      (second.classify name entry depth) := by
  have hnew : Run.Lockstep (Stored V) (StatesOf V) (first.classifyNew name entry depth)
      (second.classifyNew name entry depth) := by
    refine Run.lockstep_bind (Run.lockstep_of_blind (blind_evaluate _ _) (blind_evaluate _ _)
      (evaluate_alike h entry) fun _ _ hstores => hstores) fun v w hv => ?_
    refine Run.lockstep_bind (Run.lockstep_modify fun _ _ hstores => hstores.record name hv)
      fun _ _ _ => ?_
    refine Run.lockstep_bind (Run.lockstep_emit fun _ _ hstores => hstores) fun _ _ _ => ?_
    refine Run.lockstep_bind (announce_lockstep name depth) fun _ _ _ => ?_
    exact Run.lockstep_pure ⟨v, w, hv, rfl, rfl⟩
  refine Run.lockstep_bind Run.lockstep_get fun p q hstores => ?_
  rcases hstores.get? name with ⟨hp, hq⟩ | ⟨v, w, hv, hp, hq⟩
  · rw [hp, hq]
    exact hnew
  · rw [hp, hq]
    refine Run.lockstep_bind (announce_lockstep name depth) fun _ _ _ => ?_
    exact Run.lockstep_pure ⟨v, w, hv, rfl, rfl⟩

theorem openPackage_compared (name : String) (directory : Path) (depth : Int) :
    Run.Lockstep (Stored V) Eq (first.openPackage name directory depth)
      (second.openPackage name directory depth) := by
  intro p q hstores
  rw [openPackage_on, openPackage_on, h.listing directory]
  refine ⟨.of_eq rfl, ?_⟩
  show Store.Related V (p.settleOpening name _).store (q.settleOpening name _).store
  rcases first.listing directory with fault | _ | names
  · exact hstores
  · exact hstores.record name (h.refl _)
  · exact hstores

/-- A visit leaves related stores, and opens the same packages: verdicts that are related descend
alike. -/
theorem visit_compared (name : String) (depth : Int) :
    Run.Lockstep (Stored V) Eq (first.visit name depth) (second.visit name depth) := by
  have hdescend : ∀ s t, StatesOf V s t → Run.Lockstep (Stored V) Eq
      (first.descend name s depth) (second.descend name t depth) := by
    rintro _ _ ⟨v, w, hv, rfl, rfl⟩
    rw [descend, descend, h.descent v w hv]
    split
    · refine Run.lockstep_bind (Run.lockstep_ask (.of_eq (h.directory name).symm)
        fun _ _ hstores => hstores) ?_
      rintro directory _ rfl
      exact openPackage_compared h name directory _
    · exact Run.lockstep_pure rfl
  have hnew : Run.Lockstep (Stored V) Eq (first.visitNew name depth)
      (second.visitNew name depth) := by
    refine Run.lockstep_bind (Run.lockstep_of_blind (blind_entryOf _ _) (blind_entryOf _ _)
      (.of_eq (h.entry name).symm) fun _ _ hstores => hstores) ?_
    rintro entry _ rfl
    exact Run.lockstep_bind (classify_compared h name entry depth) hdescend
  refine Run.lockstep_bind Run.lockstep_get fun p q hstores => ?_
  rcases hstores.get? name with ⟨hp, hq⟩ | ⟨v, w, _, hp, hq⟩
  · rw [hp, hq]
    exact hnew
  · rw [hp, hq]
    exact Run.lockstep_bind (announce_lockstep name depth) fun _ _ _ => Run.lockstep_pure rfl

theorem walk_compared (fuel : Nat) (root : String) (directory : Path) (depth : Int) :
    Run.Lockstep (Stored V) Eq (first.walk fuel root directory depth)
      (second.walk fuel root directory depth) :=
  walk_lockstep (openPackage_compared h root directory depth) (visit_compared h) fuel

theorem checkScripts_compared (directory : Path) (scripts : List (List String)) :
    Run.Lockstep (Stored V) (fun _ _ => True) (first.checkScripts directory scripts)
      (second.checkScripts directory scripts) := by
  induction scripts with
  | nil => exact Run.lockstep_pure trivial
  | cons script rest ih => exact Run.lockstep_bind (classify_compared h _ _ _) fun _ _ _ => ih

end Survey

/-! ## Surveys of one tree -/

/-- Options that ask for the same packages: they may differ in the edition and in what is
printed. -/
structure Options.SamePackages (options other : Options) : Prop where
  /-- the same start -/
  packageName : other.packageName = options.packageName
  /-- the same place to search from -/
  resolvePath : other.resolvePath = options.resolvePath
  /-- the same dependencies -/
  includePeer : other.includePeer = options.includePeer

namespace Survey

variable {tree : FileTree} {options other : Options}

/-- Surveys of one tree are comparable if the judgements of each of its scripts are. -/
theorem comparable_of_judge (hsame : options.SamePackages other) (hrefl : ∀ v, V v v)
    (hdescent : ∀ v w, V v w → w.state.needsDescent = v.state.needsDescent)
    (hjudge : ∀ path, Alike V ((tree.survey options).judge path).result
      ((tree.survey other).judge path).result) :
    Comparable V (tree.survey options) (tree.survey other) where
  refl := hrefl
  descent := hdescent
  entry name := by
    unfold entryOf FileTree.survey
    rw [hsame.resolvePath]
  judge := hjudge
  directory name := by
    unfold directoryFor FileTree.survey
    rw [hsame.resolvePath]
  listing directory := by
    unfold listing FileTree.survey
    rw [hsame.includePeer]

theorem locateRoot_eq (hsame : options.SamePackages other) (tree : FileTree) :
    tree.locateRoot other = tree.locateRoot options := by
  unfold FileTree.locateRoot
  rw [hsame.packageName, hsame.resolvePath]

theorem startPackage_compared (hsame : options.SamePackages other)
    (h : Comparable V (tree.survey options) (tree.survey other)) :
    Run.Lockstep (Stored V) Eq (startPackage tree options) (startPackage tree other) := by
  have hmanifest : ∀ directory, Run.Lockstep (Stored V) Eq (rootManifest tree directory)
      (rootManifest tree directory) := by
    intro directory
    refine Run.lockstep_bind (Run.lockstep_perform (.of_eq rfl) fun _ _ hstores => hstores) ?_
    rintro (failure | manifest) _ rfl
    · exact Run.lockstep_bind (Run.lockstep_emit fun _ _ hstores => hstores)
        fun _ _ _ => Run.lockstep_pure rfl
    · exact Run.lockstep_pure rfl
  have hlocate : Logged.ofExcept (tree.locateRoot options) =
      Logged.ofExcept (tree.locateRoot other) := by rw [locateRoot_eq hsame]
  refine Run.lockstep_bind (Run.lockstep_perform (.of_eq (congrArg _ hlocate))
    fun _ _ hstores => hstores) ?_
  rintro ⟨asked, directory⟩ _ rfl
  refine Run.lockstep_bind (Run.lockstep_emit fun _ _ hstores => hstores) fun _ _ _ => ?_
  refine Run.lockstep_bind (hmanifest directory) ?_
  rintro manifest _ rfl
  refine Run.lockstep_bind (Run.lockstep_perform (.of_eq rfl) fun _ _ hstores => hstores) ?_
  rintro entry _ rfl
  exact Run.lockstep_bind (classify_compared h _ entry 0) fun _ _ _ => Run.lockstep_pure rfl

/-- A survey of a package does the same visits if the surveys are comparable. -/
theorem checkPackage_compared (hsame : options.SamePackages other)
    (h : Comparable V (tree.survey options) (tree.survey other)) :
    Run.Lockstep (Stored V) Eq (checkPackage tree options) (checkPackage tree other) := by
  have hnote : Run.Lockstep (Stored V) (fun _ _ => True) (noteResult options)
      (noteResult other) :=
    Run.lockstep_bind Run.lockstep_get fun _ _ _ => Run.lockstep_emit fun _ _ hstores => hstores
  refine Run.lockstep_bind (startPackage_compared hsame h) ?_
  rintro ⟨name, directory⟩ _ rfl
  refine Run.lockstep_bind (walk_compared h _ name directory 1) fun _ _ _ => ?_
  exact Run.lockstep_bind hnote fun _ _ _ => Run.lockstep_pure rfl

theorem checkTargets_compared (h : Comparable V (tree.survey options) (tree.survey other))
    (target : Path) :
    Run.Lockstep (Stored V) Eq (checkTargets tree options target)
      (checkTargets tree other target) := by
  refine Run.lockstep_bind (Run.lockstep_perform (.of_eq rfl) fun _ _ hstores => hstores) ?_
  rintro isDirectory _ rfl
  have hdone : Run.Lockstep (Stored V) Eq (pure target.toString) (pure target.toString) :=
    Run.lockstep_pure rfl
  cases isDirectory with
  | false => exact Run.lockstep_bind (classify_compared h _ _ 0) fun _ _ _ => hdone
  | true =>
      refine Run.lockstep_bind (Run.lockstep_perform (.of_eq rfl) fun _ _ hstores => hstores) ?_
      rintro scripts _ rfl
      refine Run.lockstep_bind (Run.lockstep_emit fun _ _ hstores => hstores) fun _ _ _ => ?_
      exact Run.lockstep_bind (checkScripts_compared h target scripts) fun _ _ _ => hdone

end Survey

end EditionSurvey
