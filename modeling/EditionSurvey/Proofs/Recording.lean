/-
  Proofs/Recording.lean --- what a store holds after any sequence of recordings.

  The first recording of a name settles what the store says of it.  Every later one is answered
  with the state of the first and changes nothing, whatever state or reason it brings
  (`recordAll_keeps_first`).

  The lemmas are about recordings on any store, because the rest of a sequence meets the store
  that its first recording left.
-/
import EditionSurvey.Survey.Store

set_option autoImplicit false

namespace EditionSurvey

/-! ## Recordings -/

/-- A state that is to be recorded for a name, with the reason that comes with it. -/
structure Recording where
  /-- the name -/
  name : String
  /-- its state -/
  state : PackageState
  /-- the reason, which counts for an incompatible package only -/
  diagnostic : Option Diagnostic
  deriving DecidableEq, Repr

namespace Recording

/-- The verdict that is to be recorded. -/
def verdict (recording : Recording) : Verdict :=
  .ofState recording.state recording.diagnostic

/-- The first recording of a name. -/
def first? (recordings : List Recording) (name : String) : Option Recording :=
  recordings.find? fun recording => recording.name = name

theorem first?_cons (recording : Recording) (rest : List Recording) (name : String) :
    first? (recording :: rest) name =
      if recording.name = name then some recording else first? rest name := by
  unfold first?
  rw [List.find?_cons]
  by_cases hname : recording.name = name
  · simp [hname]
  · simp [hname]

end Recording

namespace Store

/-- Do recordings one after another.  The result is what they are answered with and the store
after them. -/
def recordAll (store : Store) : List Recording → List PackageState × Store
  | [] => ([], store)
  | recording :: rest =>
      let after := (store.record recording.name recording.verdict).recordAll rest
      (store.settled recording.name recording.verdict :: after.1, after.2)

variable (store : Store)

theorem recordAll_cons (recording : Recording) (rest : List Recording) :
    (store.recordAll (recording :: rest)).2 =
      ((store.record recording.name recording.verdict).recordAll rest).2 := rfl

theorem recordAll_append (before after : List Recording) :
    (store.recordAll (before ++ after)).2 = ((store.recordAll before).2.recordAll after).2 := by
  induction before generalizing store with
  | nil => rfl
  | cons recording rest ih =>
      rw [List.cons_append, recordAll_cons, recordAll_cons]
      exact ih (store.record recording.name recording.verdict)

/-! ## One recording and the rest -/

/-- A recording adds an entry behind those that are there, or none. -/
theorem entries_prefix_record (name : String) (verdict : Verdict) :
    store.entries <+: (store.record name verdict).entries := by
  rw [entries_record]
  split
  · exact List.prefix_rfl
  · exact List.prefix_append _ _

/-- Recordings add entries behind those that are there. -/
theorem entries_prefix_recordAll (recordings : List Recording) :
    store.entries <+: (store.recordAll recordings).2.entries := by
  induction recordings generalizing store with
  | nil => exact List.prefix_rfl
  | cons recording rest ih =>
      have hfirst := store.entries_prefix_record recording.name recording.verdict
      have hrest := ih (store.record recording.name recording.verdict)
      exact hfirst.trans hrest

/-- A name has the verdict that it had, or else the one of its first recording. -/
theorem verdict?_recordAll (recordings : List Recording) (name : String) :
    (store.recordAll recordings).2.verdict? name =
      (store.verdict? name).or ((Recording.first? recordings name).map Recording.verdict) := by
  induction recordings generalizing store with
  | nil => simp [recordAll, Recording.first?]
  | cons recording rest ih =>
      have hrest := ih (store.record recording.name recording.verdict)
      rw [recordAll_cons, hrest, verdict?_record, Recording.first?_cons, Option.or_assoc]
      by_cases hname : recording.name = name
      · simp [hname]
      · have hother : name ≠ recording.name := fun heq => hname heq.symm
        simp [hname, hother]

/-- A name has the state that it had, or else the one of its first recording. -/
theorem get?_recordAll (recordings : List Recording) (name : String) :
    (store.recordAll recordings).2.get? name =
      (store.get? name).or ((Recording.first? recordings name).map Recording.state) := by
  rw [get?, get?, verdict?_recordAll]
  cases store.verdict? name with
  | some verdict => rfl
  | none =>
      cases Recording.first? recordings name with
      | none => rfl
      | some recording => simp [Recording.verdict]

/-- What a recording is answered with is what the store says of its name ever after. -/
theorem answers_recordAll (recordings : List Recording) :
    (store.recordAll recordings).1.map some =
      recordings.map fun recording => (store.recordAll recordings).2.get? recording.name := by
  induction recordings generalizing store with
  | nil => rfl
  | cons recording rest ih =>
      have hrest := ih (store.record recording.name recording.verdict)
      have hfirst : (store.recordAll (recording :: rest)).2.get? recording.name =
          some (store.settled recording.name recording.verdict) := by
        rw [recordAll_cons, get?_recordAll, get?_record, Option.some_or]
      rw [List.map_cons, hfirst, recordAll_cons, ← hrest]
      rfl

/-- New names come behind the old ones, in the order in which they are first recorded. -/
theorem names_recordAll (recordings : List Recording) :
    (store.recordAll recordings).2.names =
      store.names ++ ((recordings.map Recording.name).removeAll store.names).eraseDups := by
  induction recordings generalizing store with
  | nil => simp [recordAll]
  | cons recording rest ih =>
      have hrest := ih (store.record recording.name recording.verdict)
      rw [recordAll_cons, hrest, List.map_cons]
      by_cases hknown : recording.name ∈ store.names
      · have hsame : (store.record recording.name recording.verdict).names = store.names := by
          rw [names, entries_record, if_pos hknown, names]
        rw [hsame, List.cons_removeAll]
        simp [hknown]
      · have hadded : (store.record recording.name recording.verdict).names =
            store.names ++ [recording.name] := by
          rw [names, entries_record, if_neg hknown, List.map_append, names]
          rfl
        -- what is left of the rest are the names that are neither old nor the new one
        have hleft : (rest.map Recording.name).removeAll (store.names ++ [recording.name]) =
            ((rest.map Recording.name).removeAll store.names).filter
              fun other => !other == recording.name := by
          unfold List.removeAll
          rw [List.filter_filter]
          apply List.filter_congr
          intro other _
          simp [Bool.and_comm, Bool.beq_eq_decide_eq]
        rw [hadded, hleft, List.cons_removeAll]
        simp [hknown, List.eraseDups_cons]

theorem map_fst_items : store.items.map Prod.fst = store.names := by
  simp [items, names, Function.comp_def]

theorem get?_of_mem_items {item : String × PackageState} (h : item ∈ store.items) :
    store.get? item.1 = some item.2 := by
  obtain ⟨⟨name, verdict⟩, hentry, rfl⟩ := List.mem_map.mp h
  rw [get?, verdict?_eq_some_iff.mpr hentry]
  rfl

/-! ## Sequences of recordings -/

/-- After any sequence of recordings on an empty store: each recording was answered with the
state of the first one of its name; the store lists each name once, in the order of the first
recordings and with their states; a name has the reason of its first recording if that was of an
incompatible package, and none otherwise; and what the store listed at any time before, it lists
first. -/
theorem recordAll_keeps_first (recordings : List Recording) :
    let answers := (empty.recordAll recordings).1
    let store := (empty.recordAll recordings).2
    (answers.map some = recordings.map fun recording =>
        (Recording.first? recordings recording.name).map Recording.state) ∧
      (store.items.map Prod.fst = (recordings.map Recording.name).eraseDups ∧
        (store.items.map Prod.fst).Nodup ∧
        ∀ item ∈ store.items,
          (Recording.first? recordings item.1).map Recording.state = some item.2) ∧
      (∀ name, store.diagnostic? name =
        (Recording.first? recordings name).bind fun recording =>
          if recording.state = .incompatible then recording.diagnostic else none) ∧
      ∀ count, (empty.recordAll (recordings.take count)).2.items <+: store.items := by
  have hget : ∀ name, (empty.recordAll recordings).2.get? name =
      (Recording.first? recordings name).map Recording.state :=
    fun name => empty.get?_recordAll recordings name
  refine ⟨?_, ⟨?_, ?_, ?_⟩, ?_, ?_⟩
  · rw [answers_recordAll]
    exact List.map_congr_left fun recording _ => hget recording.name
  · have hnew : (recordings.map Recording.name).removeAll empty.names =
        recordings.map Recording.name := List.filter_eq_self.mpr fun _ _ => rfl
    rw [map_fst_items, names_recordAll, hnew]
    rfl
  · rw [map_fst_items]
    exact (empty.recordAll recordings).2.distinct
  · intro item hitem
    rw [← hget, get?_of_mem_items _ hitem]
  · intro name
    rw [diagnostic?, verdict?_recordAll]
    cases Recording.first? recordings name with
    | none => rfl
    | some recording => exact Verdict.diagnostic?_ofState recording.state recording.diagnostic
  · intro count
    have hlater := (empty.recordAll (recordings.take count)).2.entries_prefix_recordAll
      (recordings.drop count)
    rw [← recordAll_append, List.take_append_drop] at hlater
    exact hlater.map _

example : (empty.recordAll [⟨"a", .nonSource, none⟩, ⟨"b", .incompatible, some ⟨"x", none, none⟩⟩,
    ⟨"a", .incompatible, some ⟨"y", none, none⟩⟩]).1 = [.nonSource, .incompatible, .nonSource] := by
  decide

end Store

end EditionSurvey
