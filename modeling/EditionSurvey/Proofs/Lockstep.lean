/-
  Proofs/Lockstep.lean --- two parts of surveys side by side.

  `Run.Lockstep R related first second` says of two parts of surveys: from progress that `R`
  relates they come to progress that `R` relates, and either both yield, and what they yield is
  related, or the same fault ends both.  The rules follow the way in which surveys are put
  together, so two surveys are compared part by part, and a walk visit by visit
  (`walk_lockstep`).
-/
import EditionSurvey.Proofs.Visit

set_option autoImplicit false

namespace EditionSurvey

/-! ## Outcomes side by side -/

/-- Two outcomes are alike: both are results, and these are related, or both are the same
failure. -/
inductive Alike {ε α β : Type} (related : α → β → Prop) : Except ε α → Except ε β → Prop where
  /-- results that are related -/
  | ok {a : α} {b : β} (h : related a b) : Alike related (.ok a) (.ok b)
  /-- the same failure -/
  | error (e : ε) : Alike related (.error e) (.error e)

namespace Alike

variable {ε α β γ δ : Type} {related : α → β → Prop}

theorem refl {related : α → α → Prop} (h : ∀ a, related a a) (x : Except ε α) :
    Alike related x x := by
  cases x with
  | error e => exact .error e
  | ok a => exact .ok (h a)

theorem of_eq {x y : Except ε α} (h : x = y) : Alike Eq x y := h ▸ refl (fun _ => rfl) x

theorem eq {x y : Except ε α} (h : Alike Eq x y) : x = y := by
  cases h with
  | ok h => rw [h]
  | error e => rfl

theorem imp {other : α → β → Prop} {x : Except ε α} {y : Except ε β}
    (himp : ∀ a b, related a b → other a b) (h : Alike related x y) : Alike other x y := by
  cases h with
  | ok h => exact .ok (himp _ _ h)
  | error e => exact .error e

theorem trans {next : β → γ → Prop} {both : α → γ → Prop} {x : Except ε α} {y : Except ε β}
    {z : Except ε γ} (h : Alike related x y) (hboth : ∀ a b c, related a b → next b c → both a c)
    (hnext : Alike next y z) : Alike both x z := by
  cases h with
  | ok h => cases hnext with
    | ok hnext => exact .ok (hboth _ _ _ h hnext)
  | error e => cases hnext with
    | error => exact .error e

theorem bind {next : γ → δ → Prop} {x : Except ε α} {y : Except ε β} {f : α → Except ε γ}
    {g : β → Except ε δ} (h : Alike related x y)
    (hnext : ∀ a b, related a b → Alike next (f a) (g b)) : Alike next (x >>= f) (y >>= g) := by
  cases h with
  | ok h => exact hnext _ _ h
  | error e => exact .error e

theorem mapError {ε' : Type} {x : Except ε α} {y : Except ε β} (h : Alike related x y)
    (f : ε → ε') : Alike related (x.mapError f) (y.mapError f) := by
  cases h with
  | ok h => exact .ok h
  | error e => exact .error (f e)

theorem map {next : γ → δ → Prop} {x : Except ε α} {y : Except ε β} {f : α → γ} {g : β → δ}
    (h : Alike related x y) (hnext : ∀ a b, related a b → next (f a) (g b)) :
    Alike next (x.map f) (y.map g) := by
  cases h with
  | ok h => exact .ok (hnext _ _ h)
  | error e => exact .error e

end Alike

namespace Run

/-! ## Parts of surveys side by side -/

variable {α β γ δ : Type} {R : Progress → Progress → Prop} {related : α → β → Prop}

/-- Two parts of surveys in lockstep: related progress stays related, and what they yield is
alike. -/
def Lockstep (R : Progress → Progress → Prop) (related : α → β → Prop) (first : Run α)
    (second : Run β) : Prop :=
  ∀ p q, R p q →
    Alike related (first.on p).1 (second.on q).1 ∧ R (first.on p).2 (second.on q).2

theorem lockstep_pure {a : α} {b : β} (h : related a b) :
    Lockstep R related (pure a) (pure b) :=
  fun _ _ hR => ⟨.ok h, hR⟩

theorem lockstep_throw (fault : Fault) : Lockstep R related (throw fault) (throw fault) :=
  fun _ _ hR => ⟨.error fault, hR⟩

theorem lockstep_get : Lockstep R R get get := fun _ _ hR => ⟨.ok hR, hR⟩

theorem lockstep_modify {f g : Progress → Progress} (h : ∀ p q, R p q → R (f p) (g q)) :
    Lockstep R (fun _ _ => True) (modify f) (modify g) :=
  fun p q hR => ⟨.ok trivial, h p q hR⟩

theorem lockstep_emit {event other : Event}
    (h : ∀ p q, R p q → R (p.extend [event]) (q.extend [other])) :
    Lockstep R (fun _ _ => True) (emit event) (emit other) :=
  lockstep_modify h

theorem Lockstep.imp {other : α → β → Prop} {first : Run α} {second : Run β}
    (himp : ∀ a b, related a b → other a b) (h : Lockstep R related first second) :
    Lockstep R other first second :=
  fun p q hR => ⟨(h p q hR).1.imp himp, (h p q hR).2⟩

theorem lockstep_bind {next : γ → δ → Prop} {first : Run α} {second : Run β} {f : α → Run γ}
    {g : β → Run δ} (h : Lockstep R related first second)
    (hnext : ∀ a b, related a b → Lockstep R next (f a) (g b)) :
    Lockstep R next (first >>= f) (second >>= g) := by
  intro p q hR
  obtain ⟨halike, hafter⟩ := h p q hR
  rw [on_bind, on_bind]
  rcases hfirst : first.on p with ⟨outcome, p'⟩
  rcases hsecond : second.on q with ⟨other, q'⟩
  rw [hfirst, hsecond] at halike hafter
  cases halike with
  | ok hab => exact hnext _ _ hab p' q' hafter
  | error fault => exact ⟨.error fault, hafter⟩

/-- Parts that do not look back are in lockstep if what they yield is alike and what they append
keeps progress related. -/
theorem lockstep_of_blind {first : Run α} {second : Run β} (hfirst : first.Blind)
    (hsecond : second.Blind) (hresult : Alike related first.result second.result)
    (hevents : ∀ p q, R p q → R (p.extend first.journal) (q.extend second.journal)) :
    Lockstep R related first second := by
  intro p q hR
  rw [hfirst.on_eq, hsecond.on_eq]
  exact ⟨hresult, hevents p q hR⟩

/-- What a part that does not look back yields is known beforehand. -/
theorem Lockstep.with_result {first : Run α} {second : Run β} (h : Lockstep R related first second)
    (hfirst : first.Blind) :
    Lockstep R (fun a b => related a b ∧ first.result = .ok a) first second := by
  intro p q hR
  obtain ⟨halike, hafter⟩ := h p q hR
  refine ⟨?_, hafter⟩
  have hresult : (first.on p).1 = first.result := by rw [hfirst.on_eq]
  revert halike hresult
  generalize (first.on p).1 = outcome
  generalize (second.on q).1 = other
  intro halike hresult
  cases halike with
  | ok hab => exact .ok ⟨hab, hresult.symm⟩
  | error fault => exact .error fault

theorem lockstep_perform {work : Logged α} {other : Logged β}
    (hresult : Alike related work.result other.result)
    (hlog : ∀ p q, R p q → R (p.extend (work.log.map .record)) (q.extend (other.log.map .record))) :
    Lockstep R related (perform work) (perform other) := by
  intro p q hR
  rw [on_perform, on_perform]
  exact ⟨hresult, hlog p q hR⟩

theorem lockstep_ask {call next : Call} {work : Logged α} {other : Logged β}
    (hresult : Alike related work.result other.result)
    (hevents : ∀ p q, R p q → R (p.extend (.call call :: work.log.map .record))
      (q.extend (.call next :: other.log.map .record))) :
    Lockstep R related (ask call work) (ask next other) := by
  intro p q hR
  rw [on_ask, on_ask]
  exact ⟨hresult, hevents p q hR⟩

/-- A part of a survey is in lockstep with itself when nothing but equal progress is related. -/
theorem lockstep_refl (run : Run α) : Lockstep Eq Eq run run := by
  rintro p _ rfl
  exact ⟨.of_eq rfl, rfl⟩

theorem Lockstep.on_eq {first second : Run α} (h : Lockstep Eq Eq first second)
    (p : Progress) : first.on p = second.on p :=
  Prod.ext (h p p rfl).1.eq (h p p rfl).2

end Run

namespace Survey

/-! ## Walks side by side -/

variable {R : Progress → Progress → Prop} {first second : Survey}

/-- When every visit is in lockstep, so is the loop, step by step. -/
theorem walkFrames_lockstep
    (hvisit : ∀ name depth, Run.Lockstep R Eq (first.visit name depth) (second.visit name depth))
    (fuel : Nat) : ∀ stack : List Frame,
      Run.Lockstep R Eq (first.walkFrames fuel stack) (second.walkFrames fuel stack) := by
  induction fuel with
  | zero =>
      intro stack
      cases stack with
      | nil => exact Run.lockstep_pure rfl
      | cons frame rest => exact Run.lockstep_throw _
  | succ fuel ih =>
      intro stack
      match stack with
      | [] => exact Run.lockstep_pure rfl
      | ⟨[], _⟩ :: rest => exact ih rest
      | ⟨name :: names, depth⟩ :: rest =>
          refine Run.lockstep_bind (hvisit name depth) ?_
          rintro opened _ rfl
          exact ih _

theorem walk_lockstep {root : String} {directory : Path} {depth : Int}
    (hopen : Run.Lockstep R Eq (first.openPackage root directory depth)
      (second.openPackage root directory depth))
    (hvisit : ∀ name depth, Run.Lockstep R Eq (first.visit name depth) (second.visit name depth))
    (fuel : Nat) :
    Run.Lockstep R Eq (first.walk fuel root directory depth)
      (second.walk fuel root directory depth) := by
  refine Run.lockstep_bind hopen ?_
  rintro frame _ rfl
  exact walkFrames_lockstep hvisit fuel _

end Survey

end EditionSurvey
