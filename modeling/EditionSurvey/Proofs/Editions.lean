/-
  Proofs/Editions.lean --- what a later edition changes.

  Whether a script parses does not depend on the edition, and each edition has all constructs
  of those before it.  So at a later edition a verdict can only change from incompatible to
  compatible, or to incompatible for another reason (`Verdict.Eased`), and neither opens a
  package.  A survey at a later edition therefore does the same visits, and what conforms at an
  edition conforms at every later one (`check_eased`).
-/
import EditionSurvey.Proofs.Comparison

set_option autoImplicit false

namespace EditionSurvey

/-! ## Judgements -/

namespace Script

variable {source : Array Char} {earlier later : Int}

theorem tooNewHere?_eq_none_of_le (hle : earlier ≤ later) {node : Node}
    (h : tooNewHere? source earlier node = none) : tooNewHere? source later node = none := by
  simp only [tooNewHere?, Option.map_eq_none_iff, List.find?_eq_none, decide_eq_true_eq,
    Int.not_lt] at h ⊢
  exact fun feature hfeature => Int.le_trans (h feature hfeature) hle

/-- A later edition has every construct of an earlier one. -/
theorem search_eq_none_of_le (hle : earlier ≤ later) {stack : List Node}
    (h : search source earlier stack = none) : search source later stack = none := by
  fun_induction search source earlier stack with
  | case1 => rw [search]
  | case2 _ _ _ _ => cases h
  | case3 node rest hhere ih =>
      rw [search, tooNewHere?_eq_none_of_le hle hhere]
      exact ih h

/-- A judgement stays at a later edition, or it was that a construct is too new. -/
inductive Relents : Except Refusal Unit → Except Refusal Unit → Prop where
  /-- it stays -/
  | same (judgement : Except Refusal Unit) : Relents judgement judgement
  /-- the construct is there now -/
  | lifted (d : Diagnostic) : Relents (.error (.incompatible d)) (.ok ())
  /-- some construct is still too new -/
  | kept (d other : Diagnostic) : Relents (.error (.incompatible d)) (.error (.incompatible other))

theorem checkTree_relents (hle : earlier ≤ later) (tree : Node) :
    Relents (checkTree source earlier tree) (checkTree source later tree) := by
  unfold checkTree
  cases hearlier : search source earlier [tree] with
  | none =>
      rw [search_eq_none_of_le hle hearlier]
      exact .same _
  | some finding =>
      cases search source later [tree] with
      | none => exact .lifted _
      | some other => exact .kept _ _

/-- Parsing does not depend on the edition, and a later edition has every construct of an
earlier one. -/
theorem validate_relents (hle : earlier ≤ later) (text : String) :
    Relents (validate text earlier) (validate text later) := by
  unfold validate
  simp only
  cases parse (commentInterpreterLine text.toList) with
  | error interruption => exact .same _
  | ok tree => exact checkTree_relents hle tree

end Script

/-! ## Verdicts -/

/-- What becomes of a verdict at a later edition. -/
inductive Verdict.Eased : Verdict → Verdict → Prop where
  /-- it stays -/
  | same (v : Verdict) : Eased v v
  /-- the entry script conforms now -/
  | lifted (d : Option Diagnostic) : Eased (.incompatible d) .compatible
  /-- the entry script does not conform for another reason -/
  | kept (d other : Option Diagnostic) : Eased (.incompatible d) (.incompatible other)

theorem Verdict.Eased.needsDescent_eq {v w : Verdict} (h : v.Eased w) :
    w.state.needsDescent = v.state.needsDescent := by
  cases h <;> rfl

namespace Survey

theorem result_judge (survey : Survey) (path : Path) :
    (survey.judge path).result =
      (survey.surroundings.read path).result >>= fun answer =>
        match answer with
        | .error _ => .ok .unreadable
        | .ok source =>
            (verdictOf path
              (survey.surroundings.validate source survey.options.edition)).result := by
  rw [Run.result, judge, Run.on_bind, Run.on_ask]
  rcases (survey.surroundings.read path).result with fault | failure | source
  · rfl
  · rfl
  · simp only [Run.on_bind_of_ok _ (Run.on_emit _ _)]
    rw [(blind_verdictOf path _).on_eq]
    rfl

theorem verdictOf_eased {judgement other : Except Script.Refusal Unit}
    (h : Script.Relents judgement other) (path : Path) :
    Alike Verdict.Eased (verdictOf path judgement).result (verdictOf path other).result := by
  cases h with
  | same => exact .refl .same _
  | lifted d => exact .ok (.lifted (some d))
  | kept d other => exact .ok (.kept (some d) (some other))

/-- Surveys of a tree at two editions are comparable. -/
theorem comparable_of_edition_le (tree : FileTree) (options : Options) {later : Int}
    (hle : options.edition ≤ later) :
    Comparable Verdict.Eased (tree.survey options)
      (tree.survey { options with edition := later }) := by
  refine comparable_of_judge ⟨rfl, rfl, rfl⟩ .same (fun _ _ h => h.needsDescent_eq) fun path => ?_
  rw [result_judge, result_judge]
  refine (Alike.of_eq rfl).bind ?_
  rintro (failure | source) _ rfl
  · exact .ok (.same _)
  · exact verdictOf_eased (Script.validate_relents hle source) path

end Survey

/-! ## Whole surveys -/

/-- How the outcome of a survey differs at a later edition: packages may only turn from
incompatible to compatible. -/
structure Outcome.Eased (first second : Outcome) : Prop where
  /-- both yield the same, or the same fault ends both -/
  ends : second.1 = first.1
  /-- the same packages are visited, in the same order -/
  names : second.2.store.names = first.2.store.names
  /-- the same entries are no scripts -/
  nonSource : second.2.store.namesIn .nonSource = first.2.store.namesIn .nonSource
  /-- the same packages could not be judged -/
  unreadable : second.2.store.namesIn .unreadable = first.2.store.namesIn .unreadable
  /-- what conforms still does -/
  compatible : first.2.store.namesIn .compatible ⊆ second.2.store.namesIn .compatible
  /-- what does not conform did not -/
  incompatible : second.2.store.namesIn .incompatible ⊆ first.2.store.namesIn .incompatible
  /-- a survey that passes still does -/
  passed : ∀ edition later : Int, (Report.ofStore first.2.store edition).passed = true →
    (Report.ofStore second.2.store later).passed = true

namespace Store

variable {V : Verdict → Verdict → Prop} {first second : Store}

theorem Related.namesIn_eq (h : Related V first second) {state : PackageState}
    (hstate : ∀ v w, V v w → (w.state = state ↔ v.state = state)) :
    second.namesIn state = first.namesIn state := by
  unfold Related at h
  rw [namesIn, namesIn]
  generalize first.entries = entries at h
  generalize second.entries = others at h
  induction h with
  | nil => rfl
  | @cons entry other _ _ hentry _ ih =>
      simp only [List.filter_cons, hstate _ _ hentry.2]
      split
      · rw [List.map_cons, List.map_cons, ih, hentry.1]
      · exact ih

theorem Related.namesIn_subset (h : Related V first second) {state : PackageState}
    (hstate : ∀ v w, V v w → v.state = state → w.state = state) :
    first.namesIn state ⊆ second.namesIn state := by
  intro name hname
  rw [mem_namesIn_iff] at hname ⊢
  rcases h.get? name with ⟨hnone, _⟩ | ⟨v, w, hv, hfirst, hsecond⟩
  · simp [hnone] at hname
  · rw [hfirst, Option.some.injEq] at hname
    rw [hsecond, hstate v w hv hname]

theorem Related.symm (h : Related V first second) : Related (fun v w => V w v) second first := by
  refine List.Forall₂.flip (h.imp fun entry other hentry => ?_)
  exact ⟨hentry.1.symm, hentry.2⟩

end Store

theorem Outcome.Eased.of_related {first second : Outcome} (hends : first.1 = second.1)
    (hstores : Store.Related Verdict.Eased first.2.store second.2.store) :
    Outcome.Eased first second := by
  have hincompatible : second.2.store.namesIn .incompatible ⊆ first.2.store.namesIn .incompatible :=
    hstores.symm.namesIn_subset fun v w hv hstate => by
      cases hv <;> first | exact hstate | rfl
  refine ⟨hends.symm, hstores.names_eq, hstores.namesIn_eq ?_, hstores.namesIn_eq ?_,
    hstores.namesIn_subset ?_, hincompatible, fun edition later hpassed => ?_⟩
  · intro v w hv
    cases hv <;> simp [Verdict.state]
  · intro v w hv
    cases hv <;> simp [Verdict.state]
  · intro v w hv hstate
    cases hv with
    | same => exact hstate
    | lifted => rfl
    | kept => cases hstate
  · rw [Report.passed_ofStore_iff] at hpassed ⊢
    rw [hpassed] at hincompatible
    exact List.subset_nil.mp hincompatible

namespace Survey

/-- At a later edition the survey of a package and the survey of a target end as before.  They
visit the same packages in the same order, the same packages are no scripts or could not be
judged, and a package that conforms at an edition conforms at every later one. -/
theorem check_eased (tree : FileTree) (options : Options) (target : Path) {later : Int}
    (hle : options.edition ≤ later) :
    Outcome.Eased (checkPackage tree options).outcome
        (checkPackage tree { options with edition := later }).outcome ∧
      Outcome.Eased (checkTargets tree options target).outcome
        (checkTargets tree { options with edition := later } target).outcome := by
  have hcomparable := comparable_of_edition_le tree options hle
  have hsame : options.SamePackages { options with edition := later } := ⟨rfl, rfl, rfl⟩
  have hstart : Stored Verdict.Eased {} {} := .nil
  obtain ⟨hpackage, hpackages⟩ := checkPackage_compared hsame hcomparable {} {} hstart
  obtain ⟨htarget, htargets⟩ := checkTargets_compared hcomparable target {} {} hstart
  exact ⟨.of_related hpackage.eq hpackages, .of_related htarget.eq htargets⟩

/-- A package with a dependency that needs the sixth edition. -/
def modernTree : FileTree where
  top := .directory
    [(manifestName,
        .file "\x7b\"name\":\"app\",\"dependencies\":\x7b\"lib\":\"1\"\x7d\x7d".toUTF8.toList),
      ("index.js", .file "var a".toUTF8.toList),
      (installedName, .directory [("lib", .directory [("index.js", .file "let b".toUTF8.toList)])])]

/-- The dependency does not conform to the fifth edition, and does to the sixth. -/
theorem check_modernTree_eased :
    ({} : Options).edition ≤ 6 ∧
      (Outcome.Eased (checkPackage modernTree {}).outcome
          (checkPackage modernTree { edition := 6 }).outcome ∧
        Outcome.Eased (checkTargets modernTree {} {}).outcome
          (checkTargets modernTree { edition := 6 } {}).outcome) ∧
      (checkPackage modernTree {}).outcome.2.store.namesIn .incompatible = ["lib"] ∧
      (checkPackage modernTree { edition := 6 }).outcome.2.store.namesIn .compatible =
        ["app", "lib"] :=
  have hle : ({} : Options).edition ≤ 6 := by decide
  ⟨hle, check_eased modernTree {} {} hle, by decide +kernel, by decide +kernel⟩

end Survey

end EditionSurvey
