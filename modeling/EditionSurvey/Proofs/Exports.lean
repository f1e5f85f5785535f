/-
  Proofs/Exports.lean --- which texts exports can select.

  Exports are followed through the items of lists and through the members of objects that have one
  of four keys, `exportKeys`.  What is selected is a text that is reached so, and what stands under
  any other key makes no difference to it (`exportTarget?_confined`).

  A list goes on to its next item where an item yields nothing.  An object does not: the first of
  the four keys that it has decides.  So a target is selected if and only if a text that is not
  empty is reached through the first keys of the objects (`exists_target_iff`), and one under a
  later key can be missed (`laterCondition_missed`).
-/
import EditionSurvey.Package.Resolution
import Mathlib.Data.List.Basic

set_option autoImplicit false

namespace EditionSurvey

/-! ## Selection, by lists and by objects -/

/-- The keys of objects that exports are followed through, the deciding one first. -/
def exportKeys : List String := [".", "require", "node", "default"]

/-- The member that decides what an object selects: the one of the first key that it has. -/
def decisive? (members : List (String × Value)) : Option Value :=
  exportKeys.findSome? fun key => members.lookup key

theorem firstTarget?_eq (alternatives : List Value) :
    firstTarget? alternatives = (alternatives.filterMap exportTarget?).find? (· ≠ "") := by
  induction alternatives with
  | nil => rfl
  | cons alternative rest ih =>
      rw [firstTarget?, ih, List.filterMap_cons]
      cases exportTarget? alternative with
      | none => rfl
      | some target => by_cases hempty : target = "" <;> simp [hempty]

theorem exportTarget?_list (alternatives : List Value) :
    exportTarget? (.list alternatives) = (alternatives.filterMap exportTarget?).find? (· ≠ "") := by
  rw [exportTarget?, firstTarget?_eq]

theorem exportTarget?_object (members : List (String × Value)) :
    exportTarget? (.object members) = (decisive? members).bind exportTarget? := by
  rw [exportTarget?, memberTarget?_eq, memberTarget?_eq, memberTarget?_eq, memberTarget?_eq]
  simp only [decisive?, exportKeys, List.findSome?_cons, List.findSome?_nil]
  cases members.lookup "." with
  | some value => rfl
  | none =>
      cases members.lookup "require" with
      | some value => rfl
      | none =>
          cases members.lookup "node" with
          | some value => rfl
          | none => cases members.lookup "default" <;> rfl

theorem exists_key_of_decisive? {members : List (String × Value)} {v : Value}
    (h : decisive? members = some v) : ∃ key ∈ exportKeys, members.lookup key = some v :=
  List.exists_of_findSome?_eq_some h

/-- A property of values holds if lists and objects have it whenever what is in them has it. -/
theorem Value.induction {motive : Value → Prop} (null : motive .null) (bool : ∀ b, motive (.bool b))
    (number : ∀ n, motive (.number n)) (notFinite : ∀ name, motive (.notFinite name))
    (string : ∀ s, motive (.string s))
    (list : ∀ items, (∀ v ∈ items, motive v) → motive (.list items))
    (object : ∀ members, (∀ m ∈ members, motive m.2) → motive (.object members)) (v : Value) :
    motive v :=
  @Value.rec motive (fun items => ∀ v ∈ items, motive v) (fun members => ∀ m ∈ members, motive m.2)
    (fun m => motive m.2) null bool number notFinite string list object
    (List.forall_mem_nil _) (fun _ _ first rest => List.forall_mem_cons.mpr ⟨first, rest⟩)
    (List.forall_mem_nil _) (fun _ _ first rest => List.forall_mem_cons.mpr ⟨first, rest⟩)
    (fun _ _ value => value) v

/-! ## Texts that are reached -/

/-- A text is reached in a value through the items of lists and through the members of objects that
a step may lead to. -/
inductive Value.Reaches (step : List (String × Value) → Value → Prop) : Value → String → Prop where
  /-- the value is the text -/
  | here (text : String) : Reaches step (.string text) text
  /-- through an item of a list -/
  | item {items : List Value} {v : Value} {text : String} (mem : v ∈ items)
      (inner : Reaches step v text) : Reaches step (.list items) text
  /-- through a member of an object -/
  | member {members : List (String × Value)} {v : Value} {text : String} (leads : step members v)
      (inner : Reaches step v text) : Reaches step (.object members) text

namespace Value

/-- A text that exports could select: it is reached through the four keys only. -/
def Offers : Value → String → Prop :=
  Reaches fun members v => ∃ key ∈ exportKeys, members.lookup key = some v

/-- A text that is reached through the deciding members only. -/
def Prefers : Value → String → Prop := Reaches fun members v => decisive? members = some v

theorem Reaches.mono {step other : List (String × Value) → Value → Prop}
    (h : ∀ members v, step members v → other members v) {v : Value} {text : String}
    (hreaches : v.Reaches step text) : v.Reaches other text := by
  induction hreaches with
  | here text => exact .here text
  | item mem _ ih => exact .item mem ih
  | member leads _ ih => exact .member (h _ _ leads) ih

theorem Prefers.offers {v : Value} {text : String} (h : v.Prefers text) : v.Offers text :=
  Reaches.mono (fun _ _ => exists_key_of_decisive?) h

end Value

/-- What exports select is reached through the deciding members. -/
theorem prefers_of_exportTarget? {v : Value} {target : String} (h : exportTarget? v = some target) :
    v.Prefers target := by
  induction v using Value.induction generalizing target with
  | null => cases h
  | bool b => cases h
  | number n => cases h
  | notFinite name => cases h
  | string s =>
      obtain rfl : s = target := by simpa [exportTarget?] using h
      exact .here s
  | list items ih =>
      rw [exportTarget?_list] at h
      obtain ⟨item, hitem, htarget⟩ := List.mem_filterMap.mp (List.mem_of_find?_eq_some h)
      exact .item hitem (ih item hitem htarget)
  | object members ih =>
      rw [exportTarget?_object] at h
      obtain ⟨value, hdecisive, htarget⟩ := Option.bind_eq_some_iff.mp h
      obtain ⟨key, -, hlookup⟩ := exists_key_of_decisive? hdecisive
      exact .member hdecisive (ih (key, value) (mem_of_lookup hlookup) htarget)

/-- Where a text that is not empty is reached through the deciding members, there is a target that
is not empty.  It may be another one: the first item of a list that has one yields it. -/
theorem exists_target_of_prefers {v : Value} {text : String} (h : v.Prefers text)
    (hne : text ≠ "") : ∃ target ≠ "", exportTarget? v = some target := by
  induction h with
  | here text => exact ⟨text, hne, by simp [exportTarget?]⟩
  | @item items v text mem _ ih =>
      obtain ⟨target, htarget, heq⟩ := ih hne
      have hsome : ((items.filterMap exportTarget?).find? (· ≠ "")).isSome := by
        rw [List.find?_isSome]
        exact ⟨target, List.mem_filterMap.mpr ⟨v, mem, heq⟩, by simpa using htarget⟩
      obtain ⟨first, hfirst⟩ := Option.isSome_iff_exists.mp hsome
      exact ⟨first, by simpa using List.find?_some hfirst, (exportTarget?_list items).trans hfirst⟩
  | member leads _ ih =>
      obtain ⟨target, htarget, heq⟩ := ih hne
      exact ⟨target, htarget, by rw [exportTarget?_object, leads, Option.bind_some, heq]⟩

/-- Exports select a target that is not empty if and only if some text that is not empty is reached
through the items of lists and, in every object, through the first of the four keys that it has. -/
theorem exists_target_iff (v : Value) :
    (∃ target ≠ "", exportTarget? v = some target) ↔ ∃ text ≠ "", v.Prefers text := by
  constructor
  · rintro ⟨target, hne, htarget⟩
    exact ⟨target, hne, prefers_of_exportTarget? htarget⟩
  · rintro ⟨text, hne, hprefers⟩
    exact exists_target_of_prefers hprefers hne

/-- Exports with a condition that applies and yields nothing, and another condition behind it. -/
def fallbackExports : Value :=
  .object [("require", .object [("import", .string "./m.mjs")]), ("default", .string "./c.js")]

/-- The text under the later condition is offered, but no target is selected. -/
theorem laterCondition_missed :
    (fallbackExports.Offers "./c.js" ∧ "./c.js" ≠ "") ∧
      ¬ ∃ target ≠ "", exportTarget? fallbackExports = some target := by
  refine ⟨⟨.member ⟨"default", by decide, rfl⟩ (.here _), by decide⟩, ?_⟩
  rintro ⟨target, -, htarget⟩
  cases htarget

/-! ## What makes no difference -/

mutual

/-- A value without the members that exports are not followed through. -/
def Value.followed : Value → Value
  | .list items => .list (followedItems items)
  | .object members =>
      .object (exportKeys.filterMap fun key => (followedMember? key members).map (key, ·))
  | v => v

/-- The items of a list without such members. -/
def followedItems : List Value → List Value
  | [] => []
  | item :: rest => item.followed :: followedItems rest

/-- A member by its key, without such members. -/
def followedMember? (name : String) : List (String × Value) → Option Value
  | [] => none
  | (key, value) :: rest => if key = name then some value.followed else followedMember? name rest

end

theorem followedItems_eq (items : List Value) : followedItems items = items.map Value.followed := by
  induction items with
  | nil => rfl
  | cons item rest ih => rw [followedItems, ih, List.map_cons]

theorem followedMember?_eq (name : String) (members : List (String × Value)) :
    followedMember? name members = (members.lookup name).map Value.followed := by
  induction members with
  | nil => rfl
  | cons m rest ih =>
      obtain ⟨key, value⟩ := m
      simp only [followedMember?, List.lookup_cons, ih]
      split <;> split <;> simp_all

theorem lookup_filterMap_keys {keys : List String} {found : String → Option Value} (key : String) :
    (keys.filterMap fun k => (found k).map (k, ·)).lookup key =
      if key ∈ keys then found key else none := by
  induction keys with
  | nil => rfl
  | cons k keys ih =>
      rw [List.filterMap_cons]
      by_cases hkey : key = k
      · subst hkey
        cases hfound : found key with
        | none => simp [ih, hfound]
        | some value => simp
      · have hne : (key == k) = false := by simpa using hkey
        cases found k with
        | none => simp [ih, hkey]
        | some value => simp [List.lookup_cons, ih, hkey, hne]

theorem decisive?_followed (members : List (String × Value)) :
    decisive? (exportKeys.filterMap fun key => (followedMember? key members).map (key, ·)) =
      (decisive? members).map Value.followed := by
  unfold decisive?
  rw [List.map_findSome?, ← List.head?_filterMap, ← List.head?_filterMap]
  refine congrArg List.head? (List.filterMap_congr fun key hkey => ?_)
  rw [lookup_filterMap_keys, if_pos hkey, followedMember?_eq]
  rfl

theorem exportTarget?_followed (v : Value) : exportTarget? v.followed = exportTarget? v := by
  induction v using Value.induction with
  | null => rfl
  | bool b => rfl
  | number n => rfl
  | notFinite name => rfl
  | string s => rfl
  | list items ih =>
      have hitems : (followedItems items).filterMap exportTarget? =
          items.filterMap exportTarget? := by
        rw [followedItems_eq, List.filterMap_map]
        exact List.filterMap_congr ih
      rw [Value.followed, exportTarget?_list, exportTarget?_list, hitems]
  | object members ih =>
      rw [Value.followed, exportTarget?_object, exportTarget?_object, decisive?_followed]
      cases hdecisive : decisive? members with
      | none => rfl
      | some value =>
          obtain ⟨key, -, hlookup⟩ := exists_key_of_decisive? hdecisive
          exact ih (key, value) (mem_of_lookup hlookup)

/-- What exports select is a text that is reached through the items of lists and the four keys, and
it depends on nothing that stands under other keys, at any depth: on two values that differ in
nothing else, the selection is the same.  So the targets of a package are such texts and its main
file. -/
theorem exportTarget?_confined (v : Value) :
    (∀ target, exportTarget? v = some target → v.Offers target) ∧
      (∀ w : Value, v.followed = w.followed → exportTarget? v = exportTarget? w) ∧
      ∀ manifest : Manifest, manifest.exports = v →
        ∀ target ∈ manifest.targets, v.Offers target ∨ manifest.main = some target := by
  have hoffers : ∀ target, exportTarget? v = some target → v.Offers target :=
    fun target h => (prefers_of_exportTarget? h).offers
  refine ⟨hoffers, fun w h => ?_, fun manifest hexports target htarget => ?_⟩
  · rw [← exportTarget?_followed v, h, exportTarget?_followed]
  · rw [Manifest.targets, hexports] at htarget
    rcases List.mem_append.mp (List.mem_filter.mp htarget).1 with hexported | hmain
    · exact .inl (hoffers target (Option.mem_toList.mp hexported))
    · exact .inr (Option.mem_toList.mp hmain)

/-- Exports with entries for two kinds of modules, in a list under the dot. -/
def dualExports : Value :=
  .object [("./parts", .string "./parts.mjs"),
    (".", .list [.object [("import", .string "./m.mjs"), ("browser", .string "./b.js"),
      ("require", .object [("types", .string "./t.ts"), ("default", .string "./c.js")])]])]

/-- The same exports with other entries under other keys. -/
def otherExports : Value :=
  .object [(".", .list [.object [("require", .object [("default", .string "./c.js"),
    ("module", .string "./n.mjs")]), ("import", .list [])]])]

theorem dualExports_confined :
    exportTarget? dualExports = some "./c.js" ∧ dualExports.Offers "./c.js" ∧
      dualExports.followed = otherExports.followed ∧
      exportTarget? dualExports = exportTarget? otherExports ∧
      ({ exports := dualExports } : Manifest).targets = ["./c.js"] ∧
      ∀ target ∈ ({ exports := dualExports } : Manifest).targets,
        dualExports.Offers target ∨ none = some target := by
  obtain ⟨hoffers, hsame, htargets⟩ := exportTarget?_confined dualExports
  have hfollowed : dualExports.followed = otherExports.followed := rfl
  exact ⟨rfl, hoffers _ rfl, hfollowed, hsame _ hfollowed, rfl, htargets _ rfl⟩

end EditionSurvey
