/-
  Survey/Store.lean --- the verdicts of a survey, by package name.

  A store only grows: a name keeps the first verdict that is recorded for it, and its place.
-/
import EditionSurvey.Survey.State

set_option autoImplicit false

namespace EditionSurvey

/-- Verdicts by name, in the order of recording.  No name occurs twice. -/
structure Store where
  /-- names with their verdicts -/
  entries : List (String × Verdict) := []
  /-- each name is there once -/
  distinct : (entries.map Prod.fst).Nodup := by simp

namespace Store

/-- No verdicts. -/
def empty : Store := {}

instance : Inhabited Store := ⟨empty⟩

/-- The names, in the order of recording. -/
def names (store : Store) : List String := store.entries.map Prod.fst

/-- The verdict for a name. -/
def verdict? (store : Store) (name : String) : Option Verdict := store.entries.lookup name

/-- The state of a name. -/
def get? (store : Store) (name : String) : Option PackageState :=
  (store.verdict? name).map Verdict.state

/-- The reason why a name is incompatible, if it is and the reason is known. -/
def diagnostic? (store : Store) (name : String) : Option Diagnostic :=
  (store.verdict? name).bind Verdict.diagnostic?

/-- Whether a name has a verdict. -/
def contains (store : Store) (name : String) : Bool := (store.verdict? name).isSome

/-- The number of names. -/
def size (store : Store) : Nat := store.entries.length

/-- Names and states, in the order of recording. -/
def items (store : Store) : List (String × PackageState) :=
  store.entries.map fun entry => (entry.1, entry.2.state)

/-- The names in a state, in the order of recording. -/
def namesIn (store : Store) (state : PackageState) : List String :=
  (store.entries.filter fun entry => entry.2.state = state).map Prod.fst

theorem lookup_eq_none_iff {α : Type} {entries : List (String × α)} {name : String} :
    entries.lookup name = none ↔ name ∉ entries.map Prod.fst := by
  induction entries with
  | nil => simp
  | cons e rest ih =>
    obtain ⟨key, value⟩ := e
    simp only [List.lookup_cons, List.map_cons, List.mem_cons, not_or]
    split <;> simp_all

theorem verdict?_eq_none_iff {store : Store} {name : String} :
    store.verdict? name = none ↔ name ∉ store.names :=
  lookup_eq_none_iff

theorem mem_names_of_verdict? {store : Store} {name : String} {verdict : Verdict}
    (h : store.verdict? name = some verdict) : name ∈ store.names :=
  Decidable.byContradiction fun hnot => by
    rw [verdict?_eq_none_iff.2 hnot] at h
    cases h

theorem lookup_eq_some_iff_mem {α : Type} {entries : List (String × α)}
    (hdistinct : (entries.map Prod.fst).Nodup) {name : String} {value : α} :
    entries.lookup name = some value ↔ (name, value) ∈ entries := by
  induction entries with
  | nil => simp
  | cons e rest ih =>
    obtain ⟨key, first⟩ := e
    obtain ⟨hkey, hrest⟩ := List.nodup_cons.1 hdistinct
    simp only [List.lookup_cons, List.mem_cons, Prod.mk.injEq]
    by_cases heq : name = key
    · subst heq
      have hnot : (name, value) ∉ rest := fun hmem => hkey (List.mem_map.2 ⟨_, hmem, rfl⟩)
      simp [hnot, eq_comm]
    · have hne : (name == key) = false := by simpa using heq
      simp [hne, heq, ih hrest]

theorem verdict?_eq_some_iff {store : Store} {name : String} {verdict : Verdict} :
    store.verdict? name = some verdict ↔ (name, verdict) ∈ store.entries :=
  lookup_eq_some_iff_mem store.distinct

/-- The names in a state are those that have it. -/
theorem mem_namesIn_iff {store : Store} {name : String} {state : PackageState} :
    name ∈ store.namesIn state ↔ store.get? name = some state := by
  simp only [namesIn, get?, List.mem_map, List.mem_filter, decide_eq_true_eq, Option.map_eq_some_iff,
    verdict?_eq_some_iff]
  constructor
  · rintro ⟨⟨_, verdict⟩, ⟨hmem, hstate⟩, rfl⟩
    exact ⟨verdict, hmem, hstate⟩
  · rintro ⟨verdict, hmem, hstate⟩
    exact ⟨_, ⟨hmem, hstate⟩, rfl⟩

/-- Record a verdict, unless the name has one. -/
def record (store : Store) (name : String) (verdict : Verdict) : Store :=
  if h : store.verdict? name = none then
    { entries := store.entries ++ [(name, verdict)]
      distinct := by
        have hfresh := verdict?_eq_none_iff.1 h
        rw [List.map_append, List.nodup_append]
        refine ⟨store.distinct, by simp, ?_⟩
        intro a ha b hb
        simp only [List.map_cons, List.map_nil, List.mem_singleton] at hb
        subst hb
        exact fun heq => hfresh (heq ▸ ha) }
  else store

/-- What is recorded for a name after a verdict was offered for it. -/
def settled (store : Store) (name : String) (verdict : Verdict) : PackageState :=
  (store.get? name).getD verdict.state

theorem entries_record_of_fresh {store : Store} {name : String} (verdict : Verdict)
    (h : store.verdict? name = none) :
    (store.record name verdict).entries = store.entries ++ [(name, verdict)] := by
  simp [record, h]

theorem record_of_known {store : Store} {name : String} (verdict : Verdict)
    (h : store.verdict? name ≠ none) : store.record name verdict = store := by
  simp [record, h]

theorem entries_record (store : Store) (name : String) (verdict : Verdict) :
    (store.record name verdict).entries =
      if name ∈ store.names then store.entries else store.entries ++ [(name, verdict)] := by
  by_cases h : store.verdict? name = none
  · rw [entries_record_of_fresh verdict h, if_neg (verdict?_eq_none_iff.1 h)]
  · have hmem : name ∈ store.names :=
      Decidable.byContradiction fun hnot => h (verdict?_eq_none_iff.2 hnot)
    rw [record_of_known verdict h, if_pos hmem]

theorem names_subset_record (store : Store) (name : String) (verdict : Verdict) :
    store.names ⊆ (store.record name verdict).names := by
  intro key hkey
  rw [names, entries_record]
  split
  · exact hkey
  · rw [List.map_append]
    exact List.mem_append_left _ hkey

theorem names_of_added {base after : Store} {new : List (String × Verdict)}
    (h : after.entries = base.entries ++ new) :
    after.names = base.names ++ new.map Prod.fst := by
  rw [names, h, List.map_append, names]

/-- A store that was only added to has no name both among the old and among the new ones. -/
theorem mem_added_iff {base after : Store} {new : List (String × Verdict)} {other : String}
    (h : after.entries = base.entries ++ new) :
    other ∈ new.map Prod.fst ↔ other ∈ after.names ∧ other ∉ base.names := by
  have hnames := names_of_added h
  have hdistinct : (base.names ++ new.map Prod.fst).Nodup := hnames ▸ after.distinct
  constructor
  · intro hother
    refine ⟨hnames ▸ List.mem_append_right _ hother, fun hold => ?_⟩
    exact (List.nodup_append.mp hdistinct).2.2 other hold other hother rfl
  · rintro ⟨hafter, hold⟩
    rw [hnames] at hafter
    exact (List.mem_append.mp hafter).resolve_left hold

theorem verdict?_record (store : Store) (name key : String) (verdict : Verdict) :
    (store.record name verdict).verdict? key =
      (store.verdict? key).or (if key = name then some verdict else none) := by
  by_cases h : store.verdict? name = none
  · rw [verdict?, entries_record_of_fresh verdict h, List.lookup_append]
    simp only [verdict?, List.lookup_cons, List.lookup_nil]
    split <;> simp_all
  · rw [record_of_known verdict h]
    by_cases hk : key = name
    · subst hk
      obtain ⟨v, hv⟩ := Option.ne_none_iff_exists'.1 h
      simp [hv]
    · simp [hk]

theorem get?_record (store : Store) (name : String) (verdict : Verdict) :
    (store.record name verdict).get? name = some (store.settled name verdict) := by
  simp only [get?, settled, verdict?_record]
  cases store.verdict? name <;> simp

end Store

end EditionSurvey
