/-
  Proofs/Faults.lean --- which faults can end a piece of work.

  `FailsBy cause outcome` says of an outcome that the faults that end it have a cause.  The rules
  follow the way in which work is put together.

  A walk asks for the manifest of the directory that it starts in, and for what its names come to.
  So what ends it is known from what ends these answers (`Survey.AnswersFailBy`), by induction on
  its iterations (`Survey.Walks.failsBy`).  It never runs out of steps: a `Walks` has none to run
  out of, and the steps that a walk is given suffice (`Survey.exists_walks`).
-/
import EditionSurvey.Proofs.Loop

set_option autoImplicit false

namespace EditionSurvey

variable {cause other : Fault → Prop} {α β : Type}

/-! ## Outcomes -/

/-- The faults that end the work have a cause. -/
def FailsBy (cause : Fault → Prop) (outcome : Except Fault α) : Prop :=
  ∀ fault, outcome = .error fault → cause fault

namespace FailsBy

theorem of_ok (a : α) : FailsBy cause (.ok a : Except Fault α) := fun _ h => by cases h

/-- Work that yields is ended by nothing. -/
theorem of_eq_ok {outcome : Except Fault α} {a : α} (h : outcome = .ok a) :
    FailsBy (fun _ => False) outcome := h ▸ of_ok a

theorem of_error {fault : Fault} (h : cause fault) :
    FailsBy cause (.error fault : Except Fault α) := by
  rintro _ ⟨⟩
  exact h

theorem imp {outcome : Except Fault α} (h : FailsBy cause outcome)
    (himp : ∀ fault, cause fault → other fault) : FailsBy other outcome :=
  fun fault hfault => himp fault (h fault hfault)

theorem bind {outcome : Except Fault α} {next : α → Except Fault β} (h : FailsBy cause outcome)
    (hnext : ∀ a, outcome = .ok a → FailsBy cause (next a)) :
    FailsBy cause (outcome >>= next) := by
  cases outcome with
  | error fault => exact of_error (h fault rfl)
  | ok a => exact hnext a rfl

theorem map {outcome : Except Fault α} (h : FailsBy cause outcome) (f : α → β) :
    FailsBy cause (outcome.map f) := by
  cases outcome with
  | error fault => exact of_error (h fault rfl)
  | ok a => exact of_ok (f a)

/-- Work yields, or it is ended by a fault that has a cause. -/
theorem cases_on {outcome : Except Fault α} (h : FailsBy cause outcome) :
    (∃ a, outcome = .ok a) ∨ ∃ fault, outcome = .error fault ∧ cause fault := by
  cases outcome with
  | error fault => exact .inr ⟨fault, rfl, h fault rfl⟩
  | ok a => exact .inl ⟨a, rfl⟩

end FailsBy

theorem Logged.result_bind (first : Logged α) (next : α → Logged β) :
    (first >>= next).result = first.result >>= fun a => (next a).result := by
  cases h : first.result with
  | error fault => rw [Logged.bind_of_error next h]; rfl
  | ok a => rw [Logged.bind_of_ok next h]; rfl

theorem Run.result_ask {call : Call} (work : Logged α) :
    (Run.ask call work).result = work.result := by
  rw [Run.result, Run.on_ask]

namespace Survey

/-! ## Judging entries -/

section

variable {survey : Survey}

/-- What keeps the script at a path from being judged. -/
inductive JudgeTrouble (survey : Survey) (path : Path) : Fault → Prop where
  /-- asking for it -/
  | read {fault : Fault} (h : (survey.surroundings.read path).result = .error fault) :
      JudgeTrouble survey path fault
  /-- a template without a head in it -/
  | template {source : String} (read : (survey.surroundings.read path).result = .ok (.ok source))
      (refused : survey.surroundings.validate source survey.options.edition =
        .error .templateWithoutHead) : JudgeTrouble survey path .templateWithoutHead

theorem judge_failsBy (survey : Survey) (path : Path) :
    FailsBy (survey.JudgeTrouble path) (survey.judge path).result := by
  unfold judge
  rw [(Run.blind_ask _ _).result_bind, Run.result_ask]
  · refine FailsBy.bind (fun _ hfault => .read hfault) fun answer hanswer => ?_
    cases answer with
    | error failure => exact .of_ok Verdict.unreadable
    | ok source =>
        rw [(Run.blind_emit _).result_bind fun _ => blind_verdictOf _ _]
        rcases hjudgement : survey.surroundings.validate source survey.options.edition with
          (diagnostic | _ | _) | _
        · exact .of_ok (Verdict.incompatible (some diagnostic))
        · exact .of_ok Verdict.unreadable
        · exact .of_error (.template hanswer hjudgement)
        · exact .of_ok Verdict.compatible
  · rintro (failure | source)
    · exact Run.blind_bind (Run.blind_emit _) fun _ => Run.blind_pure _
    · exact Run.blind_bind (Run.blind_emit _) fun _ => blind_verdictOf _ _

/-- Only an entry that is there can keep a package from being judged. -/
theorem evaluate_failsBy {cause : Fault → Prop} {entry : Option Path}
    (h : ∀ path, entry = some path → FailsBy cause (survey.judge path).result) :
    FailsBy cause (survey.evaluate entry).result := by
  cases entry with
  | none => exact .of_ok Verdict.unreadable
  | some path =>
      rw [evaluate]
      split
      · exact .of_ok Verdict.nonSource
      · exact h path rfl

/-- A package is recorded and announced without fault, so only its entry can end this. -/
theorem classify_error {name : String} {entry : Option Path} {depth : Int} {p q : Progress}
    {fault : Fault} (h : (survey.classify name entry depth).on p = (.error fault, q)) :
    (survey.evaluate entry).result = .error fault := by
  cases hverdict : p.store.verdict? name with
  | some verdict => simp [survey.classify_on_of_known hverdict] at h
  | none =>
      rw [survey.classify_on_of_fresh hverdict] at h
      cases hresult : (survey.evaluate entry).result with
      | ok verdict => simp [hresult] at h
      | error other =>
          rw [hresult] at h
          obtain rfl := Except.error.inj (Prod.mk.inj h).1
          rfl

end

/-! ## Walks -/

/-- The faults that end the answers to a walk over given names from a directory have a cause. -/
structure AnswersFailBy (survey : Survey) (start : Path) (scope : List String)
    (cause : Fault → Prop) : Prop where
  /-- no manifest is given for the start -/
  starting : FailsBy cause (survey.listing start)
  /-- no entry is given for a name -/
  resolve : ∀ name ∈ scope,
    FailsBy cause (survey.surroundings.resolve name survey.options.resolvePath).result
  /-- no verdict is given on the entry of a name -/
  judge : ∀ name ∈ scope, ∀ path,
    (survey.surroundings.resolve name survey.options.resolvePath).result = .ok (.ok path) →
      FailsBy cause (survey.judge path).result
  /-- no directory is given for a name -/
  locate : ∀ name ∈ scope, FailsBy cause (survey.directoryFor name)
  /-- no manifest is given for the directory of a name -/
  onward : ∀ name ∈ scope, ∀ directory, survey.directoryFor name = .ok directory →
    FailsBy cause (survey.listing directory)

section

variable {survey : Survey} {start : Path} {scope : List String} {name : String}

theorem AnswersFailBy.entryOf (h : survey.AnswersFailBy start scope cause) (hname : name ∈ scope) :
    FailsBy cause (survey.entryOf name).result := by
  unfold Survey.entryOf
  rw [(Run.blind_ask _ _).result_bind, Run.result_ask]
  · refine (h.resolve name hname).bind fun answer _ => ?_
    cases answer with
    | error failure => exact .of_ok (none : Option Path)
    | ok entry => exact .of_ok (some entry)
  · rintro (failure | entry)
    · exact Run.blind_bind (Run.blind_emit _) fun _ => Run.blind_pure _
    · exact Run.blind_pure _

theorem AnswersFailBy.finding (h : survey.AnswersFailBy start scope cause) (hname : name ∈ scope) :
    FailsBy cause (survey.finding name) := by
  refine FailsBy.map ?_ _
  cases hentry : (survey.entryOf name).result with
  | error fault =>
      rw [(survey.inquire_of_entry_fault hentry).1]
      exact .of_error (h.entryOf hname fault hentry)
  | ok entry =>
      rw [(survey.inquire_of_entry hentry).1]
      refine FailsBy.map (evaluate_failsBy fun path hpath => ?_) _
      exact h.judge name hname path (resolve_of_entryOf (hpath ▸ hentry))

theorem AnswersFailBy.expansion (h : survey.AnswersFailBy start scope cause)
    (hname : name ∈ scope) : FailsBy cause (survey.expansion name) := by
  refine (h.finding hname).bind fun verdict _ => ?_
  unfold descent
  split
  · exact (h.locate name hname).bind fun directory => h.onward name hname directory
  · exact .of_ok none

/-- What ends the loop ends the answers for one of the names on its stack. -/
theorem Loop.failsBy {stack : List Frame} {p q : Progress} {iterations : List Iteration}
    {result : Except Fault Unit} (hconfined : survey.ConfinedTo start scope)
    (hanswers : survey.AnswersFailBy start scope cause)
    (h : Loop survey stack p iterations result q) (hstack : HoldsWithin scope stack) :
    FailsBy cause result := by
  induction h with
  | done => exact .of_ok ()
  | leave _ ih => exact ih hstack.tail
  | visit first _ ih => exact ih (hstack.visit hconfined first)
  | fault first =>
      have hname := hstack _ List.mem_cons_self List.mem_cons_self
      exact .of_error (hanswers.expansion hname _ (visit_error first).2.1)

/-- What ends a walk ends one of the answers that it asks for. -/
theorem Walks.failsBy {depth : Int} {p q : Progress} {root : Option Frame}
    {iterations : List Iteration} {result : Except Fault Unit}
    (hconfined : survey.ConfinedTo start scope) (hanswers : survey.AnswersFailBy start scope cause)
    (h : Walks survey name start depth p root iterations result q) : FailsBy cause result := by
  cases h with
  | fault first => exact .of_error (hanswers.starting _ (openPackage_error first).1)
  | start first next =>
      exact next.failsBy hconfined hanswers (HoldsWithin.start hconfined first)

end

end Survey

end EditionSurvey
