/-
  Value/Basic.lean --- values without a fixed type, as data files hold them.
-/
import EditionSurvey.Value.Decimal

set_option autoImplicit false

namespace EditionSurvey

/-- A value.  The members of an object are in the order of their first mention. -/
inductive Value where
  /-- nothing -/
  | null
  /-- true or false -/
  | bool (b : Bool)
  /-- a number -/
  | number (n : Decimal)
  /-- not a number, or an infinity, by its name -/
  | notFinite (name : String)
  /-- a text -/
  | string (s : String)
  /-- a list -/
  | list (items : List Value)
  /-- named members -/
  | object (members : List (String × Value))
  deriving Repr, Inhabited

/-- The whole number as a value. -/
def Value.int (n : Int) : Value := .number (.ofInt n)

/-- Give a name a value: its first place among the members stays. -/
def setMember {α : Type} (members : List (String × α)) (name : String) (value : α) :
    List (String × α) :=
  match members with
  | [] => [(name, value)]
  | (n, v) :: rest => if n = name then (n, value) :: rest else (n, v) :: setMember rest name value

theorem lookup_setMember {α : Type} (members : List (String × α)) (name key : String)
    (value : α) :
    (setMember members name value).lookup key =
      if key = name then some value else members.lookup key := by
  induction members with
  | nil => simp only [setMember, List.lookup_cons, List.lookup_nil]; split <;> simp_all
  | cons m rest ih =>
    obtain ⟨n, v⟩ := m
    simp only [setMember]
    split <;> simp only [List.lookup_cons, ih] <;> split <;> simp_all

/-- What a name leads to is one of the members. -/
theorem mem_of_lookup {κ α : Type} [BEq κ] [LawfulBEq κ] {members : List (κ × α)} {name : κ}
    {value : α} (h : members.lookup name = some value) : (name, value) ∈ members := by
  obtain ⟨before, after, rfl, _⟩ := List.lookup_eq_some_iff.mp h
  exact List.mem_append_right before List.mem_cons_self

end EditionSurvey
