/-
  Proofs/Run.lean --- what a part of a survey does, given what was done before it.

  `Run.on` runs a part of a survey from a progress.  The lemmas say what the steps that
  surveys are put together from do there.  A `Blind` part neither looks at what was done nor
  records a verdict: it appends events that do not depend on the past, and so what it yields
  (`Run.result`) and what it appends (`Run.journal`) can be spoken of without a progress.
-/
import EditionSurvey.Survey.Progress

set_option autoImplicit false

namespace EditionSurvey

/-! ## Progress that goes on -/

namespace Progress

/-- More events, in the order in which they happen. -/
def extend (progress : Progress) (events : List Event) : Progress :=
  { progress with latest := events.reverse ++ progress.latest }

/-- A verdict is recorded. -/
def settle (progress : Progress) (name : String) (verdict : Verdict) : Progress :=
  { progress with store := progress.store.record name verdict }

@[simp] theorem store_extend (progress : Progress) (events : List Event) :
    (progress.extend events).store = progress.store := rfl

@[simp] theorem extend_nil (progress : Progress) : progress.extend [] = progress := rfl

theorem extend_cons (progress : Progress) (event : Event) (events : List Event) :
    progress.extend (event :: events) = (progress.add event).extend events := by
  simp [extend, add]

@[simp] theorem extend_extend (progress : Progress) (first next : List Event) :
    (progress.extend first).extend next = progress.extend (first ++ next) := by
  simp [extend]

@[simp] theorem calls_start : Progress.calls {} = [] := rfl

@[simp] theorem calls_extend (progress : Progress) (events : List Event) :
    (progress.extend events).calls = progress.calls ++ events.filterMap Event.call? := by
  simp [extend, calls, Progress.events]

theorem events_extend (progress : Progress) (events : List Event) :
    (progress.extend events).events = progress.events ++ events := by
  simp [extend, Progress.events]

/-- From the very start, what happened is what was appended. -/
theorem events_extend_start (appended : List Event) :
    Progress.events (Progress.extend {} appended) = appended :=
  events_extend {} appended

@[simp] theorem store_settle (progress : Progress) (name : String) (verdict : Verdict) :
    (progress.settle name verdict).store = progress.store.record name verdict := rfl

@[simp] theorem calls_settle (progress : Progress) (name : String) (verdict : Verdict) :
    (progress.settle name verdict).calls = progress.calls := rfl

theorem settle_of_known {progress : Progress} {name : String} (verdict : Verdict)
    (h : progress.store.verdict? name ≠ none) : progress.settle name verdict = progress := by
  simp [settle, Store.record_of_known verdict h]

end Progress

namespace Run

variable {α β : Type}

/-! ## Running a part of a survey -/

/-- What a part of a survey yields, and what has been done after it. -/
def on (run : Run α) (progress : Progress) : Except Fault α × Progress := run.run.run progress

@[simp] theorem on_pure (a : α) (progress : Progress) :
    on (pure a) progress = (.ok a, progress) := rfl

@[simp] theorem on_throw (fault : Fault) (progress : Progress) :
    on (throw fault : Run α) progress = (.error fault, progress) := rfl

@[simp] theorem on_emit (event : Event) (progress : Progress) :
    on (emit event) progress = (.ok (), progress.extend [event]) := rfl

@[simp] theorem on_write (level : Level) (source : Source) (message : String)
    (progress : Progress) :
    on (write level source message) progress =
      (.ok (), progress.extend [.record ⟨level, source, message⟩]) := rfl

@[simp] theorem on_get (progress : Progress) :
    on (get : Run Progress) progress = (.ok progress, progress) := rfl

@[simp] theorem on_modify (f : Progress → Progress) (progress : Progress) :
    on (modify f : Run Unit) progress = (.ok (), f progress) := rfl

/-- Two parts one after the other do what the first does, and, unless a fault ends it, what the second
does then. -/
theorem on_bind (run : Run α) (next : α → Run β) (progress : Progress) :
    on (run >>= next) progress =
      match run.on progress with
      | (.ok a, later) => (next a).on later
      | (.error fault, later) => (.error fault, later) := by
  show (ExceptT.bindCont next (run.on progress).1).run (run.on progress).2 = _
  rcases run.on progress with ⟨result, later⟩
  cases result <;> rfl

theorem on_bind_of_ok {run : Run α} {progress later : Progress} {a : α} (next : α → Run β)
    (h : run.on progress = (.ok a, later)) : on (run >>= next) progress = (next a).on later := by
  rw [on_bind, h]

theorem on_bind_of_error {run : Run α} {progress later : Progress} {fault : Fault}
    (next : α → Run β) (h : run.on progress = (.error fault, later)) :
    on (run >>= next) progress = (.error fault, later) := by
  rw [on_bind, h]

/-- What two parts yield the second one yields, after the first one yielded something. -/
theorem exists_of_bind_ok {run : Run α} {next : α → Run β} {progress last : Progress} {b : β}
    (h : on (run >>= next) progress = (.ok b, last)) :
    ∃ a later, run.on progress = (.ok a, later) ∧ (next a).on later = (.ok b, last) := by
  rcases hrun : run.on progress with ⟨fault | a, later⟩
  · simp [on_bind_of_error next hrun] at h
  · exact ⟨a, later, rfl, by rw [← on_bind_of_ok next hrun, h]⟩

/-- A fault that ends two parts ends the first one, or the second after the first. -/
theorem cases_of_bind_error {run : Run α} {next : α → Run β} {progress last : Progress}
    {fault : Fault} (h : on (run >>= next) progress = (.error fault, last)) :
    run.on progress = (.error fault, last) ∨
      ∃ a later, run.on progress = (.ok a, later) ∧ (next a).on later = (.error fault, last) := by
  rcases hrun : run.on progress with ⟨other | a, later⟩
  · rw [on_bind_of_error next hrun] at h
    obtain ⟨hfault, rfl⟩ := Prod.mk.inj h
    exact .inl (by rw [Except.error.inj hfault])
  · exact .inr ⟨a, later, rfl, by rw [← on_bind_of_ok next hrun, h]⟩

/-- A part of a survey that yields something yields it with what has been done then. -/
theorem on_eq_of_toOption {run : Run α} {progress : Progress} {a : α}
    (h : (run.on progress).1.toOption = some a) :
    run.on progress = (.ok a, (run.on progress).2) := by
  rcases hrun : run.on progress with ⟨fault | b, later⟩
  · simp [hrun, Except.toOption] at h
  · obtain rfl : b = a := by simpa [hrun, Except.toOption] using h
    rfl

theorem foldl_add_record (log : List LogRecord) (progress : Progress) :
    log.foldl (fun p r => p.add (.record r)) progress = progress.extend (log.map .record) := by
  induction log generalizing progress with
  | nil => rfl
  | cons r rest ih => rw [List.foldl_cons, ih, List.map_cons, Progress.extend_cons]

/-- A piece of work leaves its records, and yields or fails as it does. -/
@[simp] theorem on_perform (work : Logged α) (progress : Progress) :
    on (perform work) progress = (work.result, progress.extend (work.log.map .record)) := by
  unfold perform
  rw [on_bind_of_ok _ (on_modify _ progress), foldl_add_record]
  cases work.result <;> rfl

@[simp] theorem on_ask (call : Call) (work : Logged α) (progress : Progress) :
    on (ask call work) progress =
      (work.result, progress.extend (.call call :: work.log.map .record)) := by
  unfold ask
  rw [on_bind_of_ok _ (on_emit _ progress)]
  simp

/-! ## Parts that do not look back -/

/-- What a part of a survey yields when nothing was done before. -/
def result (run : Run α) : Except Fault α := (run.on {}).1

/-- What happens in a part of a survey when nothing was done before. -/
def journal (run : Run α) : List Event := (run.on {}).2.events

/-- The part neither looks at what was done nor records a verdict. -/
def Blind (run : Run α) : Prop :=
  ∃ (outcome : Except Fault α) (appended : List Event),
    ∀ progress : Progress, run.on progress = (outcome, progress.extend appended)

/-- A part that does not look back yields the same wherever it is run, and appends the same. -/
theorem Blind.on_eq {run : Run α} (h : run.Blind) (progress : Progress) :
    run.on progress = (run.result, progress.extend run.journal) := by
  obtain ⟨outcome, appended, heq⟩ := h
  have hresult : run.result = outcome := by rw [result, heq]
  have hjournal : run.journal = appended := by
    rw [journal, heq]
    exact Progress.events_extend_start appended
  rw [heq, hresult, hjournal]

theorem blind_pure (a : α) : Blind (pure a) := ⟨.ok a, [], fun _ => rfl⟩

theorem blind_throw (fault : Fault) : Blind (throw fault : Run α) :=
  ⟨.error fault, [], fun _ => rfl⟩

theorem blind_emit (event : Event) : Blind (emit event) := ⟨.ok (), [event], on_emit event⟩

theorem blind_perform (work : Logged α) : Blind (perform work) :=
  ⟨work.result, work.log.map .record, on_perform work⟩

theorem blind_ask (call : Call) (work : Logged α) : Blind (ask call work) :=
  ⟨work.result, .call call :: work.log.map .record, on_ask call work⟩

theorem blind_bind {run : Run α} {next : α → Run β} (hrun : run.Blind)
    (hnext : ∀ a, (next a).Blind) : Blind (run >>= next) := by
  obtain ⟨outcome, first, hfirst⟩ := hrun
  cases outcome with
  | error fault =>
      exact ⟨.error fault, first, fun progress => on_bind_of_error next (hfirst progress)⟩
  | ok a =>
      obtain ⟨last, second, hsecond⟩ := hnext a
      refine ⟨last, first ++ second, fun progress => ?_⟩
      rw [on_bind_of_ok next (hfirst progress), hsecond, Progress.extend_extend]

@[simp] theorem result_pure (a : α) : Run.result (pure a) = .ok a := rfl

@[simp] theorem result_perform (work : Logged α) : (perform work).result = work.result := by
  rw [result, on_perform]

@[simp] theorem journal_pure (a : α) : Run.journal (pure a) = [] := rfl

/-- What two parts that do not look back yield is known from what each of them does. -/
theorem Blind.result_bind {run : Run α} {next : α → Run β} (hrun : run.Blind)
    (hnext : ∀ a, (next a).Blind) :
    (run >>= next).result = run.result >>= fun a => (next a).result := by
  have hstart := hrun.on_eq {}
  cases houtcome : run.result with
  | error fault =>
      rw [result, on_bind_of_error next (houtcome ▸ hstart)]
      rfl
  | ok a =>
      rw [result, on_bind_of_ok next (houtcome ▸ hstart), (hnext a).on_eq]
      rfl

theorem Blind.journal_bind_of_ok {run : Run α} {next : α → Run β} (hrun : run.Blind)
    (hnext : ∀ a, (next a).Blind) {a : α} (houtcome : run.result = .ok a) :
    (run >>= next).journal = run.journal ++ (next a).journal := by
  have hboth := on_bind_of_ok next (houtcome ▸ hrun.on_eq {})
  rw [(hnext a).on_eq, Progress.extend_extend] at hboth
  rw [journal, hboth, Progress.events_extend_start]

theorem Blind.journal_bind_of_error {run : Run α} {next : α → Run β} (hrun : run.Blind)
    {fault : Fault} (houtcome : run.result = .error fault) :
    (run >>= next).journal = run.journal := by
  have hboth := on_bind_of_error next (houtcome ▸ hrun.on_eq {})
  rw [journal, hboth, Progress.events_extend_start]

end Run

end EditionSurvey
