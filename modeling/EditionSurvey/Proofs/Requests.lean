/-
  Proofs/Requests.lean --- any sequence of requests to judge packages.

  A package is judged when it is asked for first.  Later requests for it are answered from the
  store, whatever entry and depth they come with: nothing is read or validated again, and the
  line that is printed differs in its indentation at most (`classifyAll_judges_first`).

  `Judges` says what it takes to judge an entry and what comes of it.  One request is judged in
  this way, or is one for a known name and changes nothing (`classify_answers`); a sequence is put
  together from its requests, each of which meets the store that the ones before it left.
-/
import EditionSurvey.Proofs.Announcing
import EditionSurvey.Proofs.Catalog
import EditionSurvey.Proofs.Inquiry

set_option autoImplicit false

namespace EditionSurvey

/-- A package that is to be judged. -/
structure Request where
  /-- its name -/
  name : String
  /-- its entry, if it has one -/
  entry : Option Path
  /-- how deep it is announced -/
  depth : Int
  deriving DecidableEq, Repr

/-- The requests for names that are not known and that no request before them is for. -/
def firstRequests : (known : List String) → List Request → List Request
  | _, [] => []
  | known, request :: rest =>
      if request.name ∈ known then firstRequests known rest
      else request :: firstRequests (known ++ [request.name]) rest

namespace Survey

/-- Judge packages one after another. -/
def classifyAll (survey : Survey) : List Request → Run (List PackageState)
  | [] => pure []
  | request :: rest => do
      let state ← survey.classify request.name request.entry request.depth
      let states ← survey.classifyAll rest
      pure (state :: states)

/-- A script can be read or cannot, and one that can be read conforms, does not conform, or is
given up. -/
structure JudgesScripts (survey : Survey) : Prop where
  /-- a script is there, or it cannot be read -/
  read : ∀ path, ∃ answer, (survey.surroundings.read path).result = .ok answer
  /-- a script that is there conforms, or does not, or is given up -/
  validate : ∀ path source, (survey.surroundings.read path).result = .ok (.ok source) →
    survey.surroundings.validate source survey.options.edition ≠ .error .templateWithoutHead

theorem Reliable.judgesScripts {survey : Survey} (h : survey.Reliable) : survey.JudgesScripts :=
  ⟨h.read, h.validate⟩

/-! ## Judging an entry -/

/-- What is asked for to judge an entry, and the verdict on it. -/
inductive Judges (survey : Survey) : Option Path → List Call → Verdict → Prop where
  /-- there is no entry -/
  | absent : Judges survey none [] .unreadable
  /-- the entry is no script -/
  | noScript {path : Path} (suffix : isNonSource path = true) :
      Judges survey (some path) [] .nonSource
  /-- the script cannot be read -/
  | unread {path : Path} {failure : ReadFailure} (suffix : isNonSource path = false)
      (text : (survey.surroundings.read path).result = .ok (.error failure)) :
      Judges survey (some path) [.read path] .unreadable
  /-- the script conforms -/
  | conforms {path : Path} {source : String} (suffix : isNonSource path = false)
      (text : (survey.surroundings.read path).result = .ok (.ok source))
      (judgement : survey.surroundings.validate source survey.options.edition = .ok ()) :
      Judges survey (some path) [.read path, .validate survey.options.edition] .compatible
  /-- the script does not conform -/
  | offends {path : Path} {source : String} {diagnostic : Diagnostic}
      (suffix : isNonSource path = false)
      (text : (survey.surroundings.read path).result = .ok (.ok source))
      (judgement : survey.surroundings.validate source survey.options.edition =
        .error (.incompatible diagnostic)) :
      Judges survey (some path) [.read path, .validate survey.options.edition]
        (.incompatible (some diagnostic))
  /-- the script is given up -/
  | givenUp {path : Path} {source : String} (suffix : isNonSource path = false)
      (text : (survey.surroundings.read path).result = .ok (.ok source))
      (judgement : survey.surroundings.validate source survey.options.edition =
        .error .nestsTooDeeply) :
      Judges survey (some path) [.read path, .validate survey.options.edition] .unreadable

/-- What is asked for to judge an entry. -/
def callsToJudge (survey : Survey) (entry : Option Path) : List Call :=
  (survey.evaluate entry).journal.filterMap Event.call?

/-- The verdict on an entry, which is `unreadable` if a fault keeps it from being judged. -/
def verdictOn (survey : Survey) (entry : Option Path) : Verdict :=
  (survey.evaluate entry).result.toOption.getD .unreadable

/-- The text that is printed for a name that a store has a verdict on, without its indentation. -/
def textIn (survey : Survey) (store : Store) (name : String) : String :=
  ((store.get? name).map (survey.describe store name)).getD ""

variable {survey : Survey}

theorem judge_judges (h : survey.JudgesScripts) {path : Path} (hsuffix : isNonSource path = false) :
    ∃ verdict, (survey.judge path).result = .ok verdict ∧
      survey.Judges (some path) ((survey.judge path).on {}).2.calls verdict := by
  obtain ⟨answer, hanswer⟩ := h.read path
  rw [Run.result, judge, Run.on_bind, Run.on_ask, hanswer]
  cases answer with
  | error failure =>
      simp only [Run.on_bind_of_ok _ (Run.on_write _ _ _ _), Run.on_pure]
      have hcalls : (Progress.extend (Progress.extend {}
          (.call (.read path) :: (survey.surroundings.read path).log.map .record))
          [.record ⟨.debug, .classifier, failure.message⟩]).calls = [.read path] := by
        simp [Event.call?]
      rw [hcalls]
      exact ⟨.unreadable, rfl, .unread hsuffix hanswer⟩
  | ok source =>
      simp only [Run.on_bind_of_ok _ (Run.on_emit _ _), calls_verdictOf]
      have hcalls : (Progress.extend (Progress.extend {}
          (.call (.read path) :: (survey.surroundings.read path).log.map .record))
          [.call (.validate survey.options.edition)]).calls =
            [.read path, .validate survey.options.edition] := by
        simp [Event.call?]
      rw [hcalls]
      rcases hjudgement : survey.surroundings.validate source survey.options.edition with
        (diagnostic | _ | _) | _
      · exact ⟨.incompatible (some diagnostic), rfl, .offends hsuffix hanswer hjudgement⟩
      · exact ⟨.unreadable, rfl, .givenUp hsuffix hanswer hjudgement⟩
      · exact absurd hjudgement (h.validate path source hanswer)
      · exact ⟨.compatible, rfl, .conforms hsuffix hanswer hjudgement⟩

/-- Every entry is judged. -/
theorem evaluate_judges (h : survey.JudgesScripts) (entry : Option Path) :
    (survey.evaluate entry).result = .ok (survey.verdictOn entry) ∧
      survey.Judges entry (survey.callsToJudge entry) (survey.verdictOn entry) := by
  have hjudges : ∃ verdict, (survey.evaluate entry).result = .ok verdict ∧
      survey.Judges entry (survey.callsToJudge entry) verdict := by
    cases entry with
    | none => exact ⟨.unreadable, rfl, .absent⟩
    | some path =>
        unfold callsToJudge
        cases hsuffix : isNonSource path with
        | true =>
            rw [evaluate, if_pos hsuffix]
            exact ⟨.nonSource, rfl, .noScript hsuffix⟩
        | false =>
            rw [evaluate, if_neg (by simp [hsuffix])]
            exact judge_judges h hsuffix
  obtain ⟨verdict, hresult, hjudged⟩ := hjudges
  obtain rfl : survey.verdictOn entry = verdict := by rw [verdictOn, hresult]; rfl
  exact ⟨hresult, hjudged⟩

/-! ## One request -/

variable {request : Request} {requests : List Request} {p q : Progress}

/-- What has been done after a request, from what had been done before it. -/
structure Answers (survey : Survey) (request : Request) (p : Progress) (verdict : Verdict)
    (q : Progress) : Prop where
  /-- the name has the verdict -/
  settled : q.store.verdict? request.name = some verdict
  /-- the verdict on the entry is recorded if the name was not known -/
  entries : q.store.entries = p.store.entries ++
    if request.name ∈ p.store.names then []
    else [(request.name, survey.verdictOn request.entry)]
  /-- the entry is judged if the name was not known -/
  calls : q.calls = p.calls ++
    if request.name ∈ p.store.names then [] else survey.callsToJudge request.entry
  /-- the line for the verdict is printed, if lines are printed -/
  lines : q.lines = p.lines ++ if survey.prints && survey.options.showTree then
    [survey.lineFor request.name verdict request.depth] else []

theorem lines_of_announcement (survey : Survey) (name : String) (verdict : Verdict) (depth : Int) :
    (survey.announcement name verdict depth).filterMap Event.line? =
      if survey.prints && survey.options.showTree then [survey.lineFor name verdict depth]
      else [] := by
  unfold announcement
  split <;> rfl

theorem lines_journal_evaluate (survey : Survey) (entry : Option Path) :
    (survey.evaluate entry).journal.filterMap Event.line? = [] :=
  (survey.quiet_evaluate entry {}).lines

/-- A request is answered: a new name is judged by the entry that comes with it, and a known one is
announced. -/
theorem classify_answers (h : survey.JudgesScripts) (request : Request) (p : Progress) :
    ∃ verdict q, (survey.classify request.name request.entry request.depth).on p =
        (.ok verdict.state, q) ∧ survey.Answers request p verdict q := by
  cases hknown : p.store.verdict? request.name with
  | some verdict =>
      have hmem : request.name ∈ p.store.names := Store.mem_names_of_verdict? hknown
      refine ⟨verdict, _, survey.classify_on_of_known hknown _ _, ?_⟩
      exact {
        settled := hknown
        entries := by rw [if_pos hmem, List.append_nil, Progress.store_extend]
        calls := by rw [if_pos hmem, Progress.calls_extend, calls_announcement]
        lines := by rw [Progress.lines_extend, lines_of_announcement] }
  | none =>
      have hnew : request.name ∉ p.store.names := Store.verdict?_eq_none_iff.mp hknown
      have hrun := survey.classify_on_of_fresh hknown request.entry request.depth
      rw [(evaluate_judges h request.entry).1] at hrun
      refine ⟨survey.verdictOn request.entry, _, hrun, ?_⟩
      exact {
        settled := by simp [Store.verdict?_record, hknown]
        entries := by
          rw [if_neg hnew, Progress.store_extend, Progress.store_settle,
            Store.entries_record_of_fresh _ hknown]
        calls := by
          rw [if_neg hnew, Progress.calls_extend, Progress.calls_settle, List.filterMap_append,
            List.filterMap_cons_none rfl, calls_announcement, List.append_nil, callsToJudge]
        lines := by
          rw [Progress.lines_extend, List.filterMap_append, lines_journal_evaluate,
            List.filterMap_cons_none rfl, lines_of_announcement, List.nil_append]
          rfl }

theorem Answers.names {verdict : Verdict} (h : survey.Answers request p verdict q) :
    q.store.names = if request.name ∈ p.store.names then p.store.names
      else p.store.names ++ [request.name] := by
  rw [Store.names, h.entries, List.map_append]
  split <;> simp [Store.names]

/-! ## A sequence of requests -/

/-- What has been done after a sequence of requests, from what had been done before it. -/
structure AnswersAll (survey : Survey) (requests : List Request) (p : Progress)
    (states : List PackageState) (q : Progress) : Prop where
  /-- the new names are recorded, each with the verdict on the entry that came with it first -/
  entries : q.store.entries = p.store.entries ++
    (firstRequests p.store.names requests).map fun r => (r.name, survey.verdictOn r.entry)
  /-- the entries that came first with the new names are judged -/
  calls : q.calls = p.calls ++
    (firstRequests p.store.names requests).flatMap fun r => survey.callsToJudge r.entry
  /-- a request is answered with the state that its name has in the end -/
  states : states.map some = requests.map fun r => q.store.get? r.name
  /-- the lines say what the store says in the end -/
  lines : q.lines = p.lines ++ if survey.prints && survey.options.showTree then
    requests.map fun r => indentation r.depth ++ survey.textIn q.store r.name else []

theorem textIn_of_verdict? {store : Store} {name : String} {verdict : Verdict}
    (h : store.verdict? name = some verdict) :
    survey.textIn store name = survey.describeVerdict name verdict := by
  rw [textIn, Store.get?, h]
  exact describe_of_verdict? h

/-- A request before a sequence: its verdict lasts, so that its line stays true. -/
theorem AnswersAll.cons {verdict : Verdict} {mid : Progress} {states : List PackageState}
    (hfirst : survey.Answers request p verdict mid)
    (hrest : survey.AnswersAll requests mid states q) :
    survey.AnswersAll (request :: requests) p (verdict.state :: states) q := by
  have hlasts : q.store.verdict? request.name = some verdict := by
    have hmem := Store.verdict?_eq_some_iff.mp hfirst.settled
    rw [Store.verdict?_eq_some_iff, hrest.entries]
    exact List.mem_append_left _ hmem
  have hnames := hfirst.names
  constructor
  · rw [hrest.entries, hfirst.entries, hnames, firstRequests]
    split <;> simp
  · rw [hrest.calls, hfirst.calls, hnames, firstRequests]
    split <;> simp
  · rw [List.map_cons, List.map_cons, hrest.states, Store.get?, hlasts]
    rfl
  · rw [hrest.lines, hfirst.lines, List.map_cons, textIn_of_verdict? hlasts, lineFor]
    split <;> simp

/-- A sequence of requests is answered. -/
theorem classifyAll_answers (h : survey.JudgesScripts) (requests : List Request) (p : Progress) :
    ∃ states q, (survey.classifyAll requests).on p = (.ok states, q) ∧
      survey.AnswersAll requests p states q := by
  induction requests generalizing p with
  | nil => exact ⟨[], p, rfl, by simp [firstRequests], by simp [firstRequests], rfl, by simp⟩
  | cons request rest ih =>
      obtain ⟨verdict, mid, hclassify, hfirst⟩ := classify_answers h request p
      obtain ⟨states, q, hrun, hrest⟩ := ih mid
      refine ⟨verdict.state :: states, q, ?_, .cons hfirst hrest⟩
      rw [classifyAll, Run.on_bind_of_ok _ hclassify, Run.on_bind_of_ok _ hrun, Run.on_pure]

/-- Whatever packages are asked for, with whatever entries and depths, on a store without verdicts:
the store holds each name once, in the order of the first requests, with the verdict on the entry
that came first; what was asked for is what it takes to judge those entries, one after another;
each request was answered with the state that its name has in the end; and each line is the
indentation for the depth of its request and a text that depends on the name alone.  What it takes
to judge an entry, and what comes of it, is what `Judges` says. -/
theorem classifyAll_judges_first (survey : Survey) (h : survey.JudgesScripts)
    (requests : List Request) :
    ∃ (calls : Option Path → List Call) (verdict : Option Path → Verdict)
      (states : List PackageState) (q : Progress),
      (∀ entry, survey.Judges entry (calls entry) (verdict entry)) ∧
      (survey.classifyAll requests).on {} = (.ok states, q) ∧
      q.store.entries = (firstRequests [] requests).map (fun r => (r.name, verdict r.entry)) ∧
      q.calls = (firstRequests [] requests).flatMap (fun r => calls r.entry) ∧
      states.map some = requests.map (fun r => q.store.get? r.name) ∧
      q.lines = if survey.prints && survey.options.showTree then
        requests.map fun r => indentation r.depth ++ survey.textIn q.store r.name else [] := by
  obtain ⟨states, q, hrun, hanswers⟩ := classifyAll_answers h requests {}
  exact ⟨survey.callsToJudge, survey.verdictOn, states, q, fun entry => (evaluate_judges h entry).2,
    hrun, hanswers.entries, hanswers.calls, hanswers.states, hanswers.lines⟩

/-- A script, a style sheet, and the script's package once more without its script. -/
def repeatedRequests : List Request :=
  [⟨"shared", some (Path.ofString "/pkgs/shared/main.js"), 0⟩,
    ⟨"theme", some (Path.ofString "/pkgs/theme/THEME.CSS"), 1⟩, ⟨"shared", none, 2⟩]

/-- The third request changes nothing. -/
theorem repeatedRequests_judges_first :
    (Catalog.sample.survey {}).JudgesScripts ∧
      firstRequests [] repeatedRequests = repeatedRequests.take 2 ∧
      ∃ (calls : Option Path → List Call) (verdict : Option Path → Verdict)
        (states : List PackageState) (q : Progress),
        (∀ entry, (Catalog.sample.survey {}).Judges entry (calls entry) (verdict entry)) ∧
        ((Catalog.sample.survey {}).classifyAll repeatedRequests).on {} = (.ok states, q) ∧
        q.store.entries =
          (firstRequests [] repeatedRequests).map (fun r => (r.name, verdict r.entry)) ∧
        q.calls = (firstRequests [] repeatedRequests).flatMap (fun r => calls r.entry) ∧
        states.map some = repeatedRequests.map (fun r => q.store.get? r.name) ∧
        q.lines = if (Catalog.sample.survey {}).prints &&
            (Catalog.sample.survey {}).options.showTree then
          repeatedRequests.map fun r =>
            indentation r.depth ++ (Catalog.sample.survey {}).textIn q.store r.name else [] := by
  have hjudges : (Catalog.sample.survey {}).JudgesScripts := Catalog.reliable_sample.judgesScripts
  exact ⟨hjudges, by decide, classifyAll_judges_first _ hjudges repeatedRequests⟩

end Survey

end EditionSurvey
