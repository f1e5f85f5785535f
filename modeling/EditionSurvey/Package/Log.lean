/-
  Package/Log.lean --- log records, and work that writes them.

  `Logged α` is the outcome of a piece of work: the records that it wrote, and its result
  unless a fault ended it.  One piece of work after another writes its records after those
  of the first.
-/
import EditionSurvey.Package.Fault

set_option autoImplicit false

namespace EditionSurvey

/-- How important a log record is. -/
inductive Level where
  /-- of interest when something is to be understood -/
  | debug
  /-- of interest -/
  | info
  /-- to be looked at -/
  | warning
  deriving DecidableEq, Repr, Inhabited

/-- The name of a level. -/
def Level.text : Level → String
  | .debug => "DEBUG"
  | .info => "INFO"
  | .warning => "WARNING"

/-- Who writes a log record. -/
inductive Source where
  /-- the reader of manifests -/
  | manifest
  /-- the search for packages and entries -/
  | resolver
  /-- the judge of scripts -/
  | classifier
  /-- the walk over dependencies -/
  | walker
  /-- the survey as a whole -/
  | checker
  deriving DecidableEq, Repr, Inhabited

/-- The name of a source. -/
def Source.text : Source → String
  | .manifest => "es_compat.manifest"
  | .resolver => "es_compat.resolver"
  | .classifier => "es_compat.classifier"
  | .walker => "es_compat.walker"
  | .checker => "es_compat.checker"

/-- A log record. -/
structure LogRecord where
  /-- its importance -/
  level : Level
  /-- who wrote it -/
  source : Source
  /-- what it says -/
  message : String
  deriving DecidableEq, Repr, Inhabited

/-- The outcome of a piece of work. -/
structure Logged (α : Type) where
  /-- what it wrote to the log -/
  log : List LogRecord := []
  /-- its result -/
  result : Except Fault α

namespace Logged

/-- Work that is done. -/
protected def pure {α : Type} (a : α) : Logged α := { result := .ok a }

/-- One piece of work after another; a fault ends both. -/
protected def bind {α β : Type} (first : Logged α) (next : α → Logged β) : Logged β :=
  match first.result with
  | .ok a => { log := first.log ++ (next a).log, result := (next a).result }
  | .error fault => { log := first.log, result := .error fault }

instance : Monad Logged where
  pure := Logged.pure
  bind := Logged.bind

/-- Write a log record. -/
def write (level : Level) (source : Source) (message : String) : Logged Unit :=
  { log := [⟨level, source, message⟩], result := .ok () }

/-- A result without records. -/
def ofExcept {α : Type} (result : Except Fault α) : Logged α := { result }

@[simp] theorem pure_eq {α : Type} (a : α) : (pure a : Logged α) = { result := .ok a } := rfl

theorem bind_of_ok {α β : Type} {first : Logged α} {a : α} (next : α → Logged β)
    (h : first.result = .ok a) :
    first >>= next = { log := first.log ++ (next a).log, result := (next a).result } := by
  show Logged.bind first next = _
  simp [Logged.bind, h]

theorem bind_of_error {α β : Type} {first : Logged α} {fault : Fault} (next : α → Logged β)
    (h : first.result = .error fault) :
    first >>= next = { log := first.log, result := .error fault } := by
  show Logged.bind first next = _
  simp [Logged.bind, h]

theorem exists_of_bind_ok {α β : Type} {first : Logged α} {next : α → Logged β} {b : β}
    (h : (first >>= next).result = .ok b) :
    ∃ a, first.result = .ok a ∧ (next a).result = .ok b := by
  cases hfirst : first.result with
  | error fault => simp [bind_of_error next hfirst] at h
  | ok a => exact ⟨a, rfl, by rwa [bind_of_ok next hfirst] at h⟩

end Logged

end EditionSurvey
