/-
  Proofs/Grouping.lean --- the report on a store holds all of it, each name once.

  A report has one list for each state.  A name is in the list of its state, once, and in no
  other (`ofStore_groups`), so that the four lists together are the names of the store in another
  order.  Whether the survey passes is read off one list; it is the same as that all states are
  acceptable.
-/
import EditionSurvey.Report.Basic
import Mathlib.Data.List.Nodup

set_option autoImplicit false

namespace EditionSurvey

namespace Report

/-- The names that a report lists for a state. -/
def listed (report : Report) : PackageState → List String
  | .compatible => report.compatible
  | .incompatible => report.incompatible.map Offender.name
  | .nonSource => report.nonSource
  | .unreadable => report.unreadable

/-- All names of a report, list by list. -/
def names (report : Report) : List String := PackageState.all.flatMap report.listed

@[simp] theorem listed_ofStore (store : Store) (edition : Int) (state : PackageState) :
    (ofStore store edition).listed state = store.namesIn state := by
  cases state with
  | compatible => rfl
  | incompatible => simp [listed, ofStore, Function.comp_def]
  | nonSource => rfl
  | unreadable => rfl

theorem length_names (report : Report) : report.names.length = report.total := by
  simp only [names, PackageState.all, List.flatMap_cons, List.flatMap_nil, List.length_append,
    List.length_nil, listed, List.length_map, total]
  omega

end Report

namespace Store

variable {store : Store}

theorem namesIn_sublist (store : Store) (state : PackageState) :
    (store.namesIn state).Sublist store.names :=
  List.Sublist.map Prod.fst List.filter_sublist

/-- A name is listed once for the state that it has, and for no other state. -/
theorem count_namesIn (store : Store) (state : PackageState) (name : String) :
    (store.namesIn state).count name = if store.get? name = some state then 1 else 0 := by
  have hnodup : (store.namesIn state).Nodup := store.distinct.sublist (store.namesIn_sublist state)
  rw [hnodup.count]
  simp only [mem_namesIn_iff]

theorem get?_eq_none_iff {name : String} : store.get? name = none ↔ name ∉ store.names := by
  rw [get?, Option.map_eq_none_iff, verdict?_eq_none_iff]

theorem namesIn_eq_nil_iff {state : PackageState} :
    store.namesIn state = [] ↔ ∀ item ∈ store.items, item.2 ≠ state := by
  unfold namesIn items
  rw [List.map_eq_nil_iff, List.filter_eq_nil_iff, List.forall_mem_map]
  simp only [decide_eq_true_eq, ne_eq]

end Store

theorem PackageState.acceptable_iff {state : PackageState} :
    state.acceptable = true ↔ state ≠ .incompatible := by
  cases state <;> simp [PackageState.acceptable]

namespace Report

/-- The names of a report are the names of the store in another order. -/
theorem names_ofStore_perm (store : Store) (edition : Int) :
    (ofStore store edition).names.Perm store.names := by
  rw [List.perm_iff_count]
  intro name
  have hcount : (ofStore store edition).names.count name =
      (PackageState.all.map fun state => if store.get? name = some state then 1 else 0).sum := by
    simp [names, List.count_flatMap, Function.comp_def, Store.count_namesIn]
  have hdistinct : store.names.Nodup := store.distinct
  rw [hcount, hdistinct.count]
  cases hstate : store.get? name with
  | none =>
      have hnot : name ∉ store.names := Store.get?_eq_none_iff.mp hstate
      simpa [PackageState.all] using hnot
  | some state =>
      have hmem : name ∈ store.names := by
        have hlisted : name ∈ store.namesIn state := Store.mem_namesIn_iff.mpr hstate
        exact (store.namesIn_sublist state).subset hlisted
      -- one of the four states is the one that the name has
      rw [if_pos hmem]
      cases state <;> rfl

/-- The report on a store loses nothing and lists nothing twice: a name is listed once, in the
list of the state that it has, and one that has no state is not listed; each list keeps the order
of recording; the report counts all names; what does not conform is there with the reason that
was recorded; and the survey passes exactly if all states are acceptable. -/
theorem ofStore_groups (store : Store) (edition : Int) :
    let report := ofStore store edition
    (∀ name state, (report.listed state).count name =
        if store.get? name = some state then 1 else 0) ∧
      report.names.Perm store.names ∧
      (∀ state, (report.listed state).Sublist store.names) ∧
      report.total = store.size ∧
      (∀ offender ∈ report.incompatible,
        offender.diagnostic = store.diagnostic? offender.name) ∧
      report.edition = edition ∧
      (report.passed = true ↔ ∀ item ∈ store.items, item.2.acceptable = true) := by
  have hperm := names_ofStore_perm store edition
  refine ⟨?_, hperm, ?_, ?_, ?_, rfl, ?_⟩
  · intro name state
    rw [listed_ofStore, Store.count_namesIn]
  · intro state
    rw [listed_ofStore]
    exact store.namesIn_sublist state
  · have hlength := hperm.length_eq
    rw [length_names, Store.names, List.length_map] at hlength
    exact hlength
  · intro offender hoffender
    obtain ⟨name, _, rfl⟩ := List.mem_map.mp hoffender
    rfl
  · rw [passed_ofStore_iff, Store.namesIn_eq_nil_iff]
    simp only [PackageState.acceptable_iff]

end Report

end EditionSurvey
