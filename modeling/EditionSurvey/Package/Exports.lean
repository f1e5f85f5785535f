/-
  Package/Exports.lean --- the entry that the exports of a manifest select.

  Exports are a target, a list of alternatives, or an object.  An object that has a `.`
  stands for what is under it; otherwise it lists conditions, and the first of `require`,
  `node` and `default` that it has decides, whatever is under it.
-/
import EditionSurvey.Value.Basic

set_option autoImplicit false

namespace EditionSurvey

mutual

/-- The target that exports select. -/
def exportTarget? : Value → Option String
  | .string target => some target
  | .list alternatives => firstTarget? alternatives
  | .object members =>
      ((memberTarget? "." members).or ((memberTarget? "require" members).or
        ((memberTarget? "node" members).or (memberTarget? "default" members)))).join
  | _ => none

/-- The first target of a list of alternatives that is not empty. -/
def firstTarget? : List Value → Option String
  | [] => none
  | alternative :: rest =>
      match exportTarget? alternative with
      | some target => if target = "" then firstTarget? rest else some target
      | none => firstTarget? rest

/-- What a member selects, if there is such a member. -/
def memberTarget? (name : String) : List (String × Value) → Option (Option String)
  | [] => none
  | (key, value) :: rest => if key = name then some (exportTarget? value) else memberTarget? name rest

end

theorem memberTarget?_eq (name : String) (members : List (String × Value)) :
    memberTarget? name members = (members.lookup name).map exportTarget? := by
  induction members with
  | nil => simp [memberTarget?]
  | cons m rest ih =>
    obtain ⟨key, value⟩ := m
    simp only [memberTarget?, List.lookup_cons, ih]
    split <;> split <;> simp_all

end EditionSurvey
