/-
  Proofs/Rearrangement.lean --- what the order of members makes no difference to.

  A value is a rearrangement of another one if members of objects are in another order, at any
  depth.  When names differ, a rearranged object has the same members by name, and so the exports
  select the same target and the tables of versions hold the same names.  A manifest reads a few
  members only, and a rearrangement of these gives a manifest with the same targets and the same
  dependencies, or as many faults (`ofMembers_alike`).
-/
import EditionSurvey.Package.Resolution
import EditionSurvey.Proofs.Lockstep
import EditionSurvey.Proofs.Writing
import Mathlib.Data.List.Perm.Basic
import Mathlib.Data.Option.Basic

set_option autoImplicit false

namespace EditionSurvey

/-! ## Rearrangements -/

/-- The members of objects in one value are in another order in the other, at any depth. -/
inductive Value.Rearranged : Value → Value → Prop where
  /-- nothing is in another order -/
  | refl (v : Value) : Rearranged v v
  /-- one rearrangement after another -/
  | trans {u v w : Value} (first : Rearranged u v) (next : Rearranged v w) : Rearranged u w
  /-- the members of an object -/
  | order {members others : List (String × Value)} (perm : members.Perm others) :
      Rearranged (.object members) (.object others)
  /-- in an item of a list -/
  | item {before after : List Value} {v w : Value} (inner : Rearranged v w) :
      Rearranged (.list (before ++ v :: after)) (.list (before ++ w :: after))
  /-- in a member of an object -/
  | member {before after : List (String × Value)} {name : String} {v w : Value}
      (inner : Rearranged v w) :
      Rearranged (.object (before ++ (name, v) :: after)) (.object (before ++ (name, w) :: after))

namespace Value.Rearranged

variable {v w : Value}

/-- A rearranged value is a list or an object as before, or unchanged. -/
theorem shape (h : v.Rearranged w) :
    v = w ∨ (∃ items others, v = .list items ∧ w = .list others) ∨
      ∃ members others, v = .object members ∧ w = .object others := by
  induction h with
  | refl v => exact .inl rfl
  | trans _ _ ihFirst ihNext =>
      rcases ihFirst with rfl | ⟨items, others, rfl, rfl⟩ | ⟨members, others, rfl, rfl⟩
      · exact ihNext
      · rcases ihNext with rfl | ⟨_, last, _, rfl⟩ | ⟨_, _, heq, _⟩
        · exact .inr (.inl ⟨_, _, rfl, rfl⟩)
        · exact .inr (.inl ⟨_, _, rfl, rfl⟩)
        · cases heq
      · rcases ihNext with rfl | ⟨_, _, heq, _⟩ | ⟨_, last, _, rfl⟩
        · exact .inr (.inr ⟨_, _, rfl, rfl⟩)
        · cases heq
        · exact .inr (.inr ⟨_, _, rfl, rfl⟩)
  | order => exact .inr (.inr ⟨_, _, rfl, rfl⟩)
  | item => exact .inr (.inl ⟨_, _, rfl, rfl⟩)
  | member => exact .inr (.inr ⟨_, _, rfl, rfl⟩)

/-- Names that differ still differ. -/
theorem distinct (h : v.Rearranged w) (hv : v.Distinct) : w.Distinct := by
  induction h with
  | refl => exact hv
  | trans _ _ ihFirst ihNext => exact ihNext (ihFirst hv)
  | order perm =>
      rw [Distinct] at hv ⊢
      exact ⟨(perm.map Prod.fst).nodup hv.1, fun name v hmem => hv.2 name v (perm.mem_iff.mpr hmem)⟩
  | @item before after v w _ ih =>
      rw [Distinct] at hv ⊢
      intro other hother
      simp only [List.mem_append, List.mem_cons] at hother
      rcases hother with hother | rfl | hother
      · exact hv other (by simp [hother])
      · exact ih (hv v (by simp))
      · exact hv other (by simp [hother])
  | @member before after name v w _ ih =>
      rw [Distinct] at hv ⊢
      refine ⟨by simpa using hv.1, fun key other hother => ?_⟩
      simp only [List.mem_append, List.mem_cons, Prod.mk.injEq] at hother
      rcases hother with hother | ⟨rfl, rfl⟩ | hother
      · exact hv.2 key other (by simp [hother])
      · exact ih (hv.2 key v (by simp))
      · exact hv.2 key other (by simp [hother])

end Value.Rearranged

/-! ## Members by name -/

section

variable {α : Type} {members others : List (String × α)}

/-- When names differ, their order makes no difference to what they lead to. -/
theorem lookup_eq_of_perm (h : members.Perm others) (hnames : (members.map Prod.fst).Nodup)
    (name : String) : members.lookup name = others.lookup name := by
  refine Option.ext fun value => ?_
  rw [Store.lookup_eq_some_iff_mem hnames,
    Store.lookup_eq_some_iff_mem ((h.map Prod.fst).nodup hnames), h.mem_iff]

/-- One member that is replaced by a related one. -/
theorem lookup_replaced {R : α → α → Prop} (hrefl : ∀ a, R a a) {v w : α} (h : R v w)
    (before after : List (String × α)) (name key : String) :
    Option.Rel R ((before ++ (name, v) :: after).lookup key)
      ((before ++ (name, w) :: after).lookup key) := by
  have hsame : ∀ found : Option α, Option.Rel R found found := by
    rintro (_ | a)
    · exact .none
    · exact .some (hrefl a)
  induction before with
  | nil =>
      simp only [List.nil_append, List.lookup_cons]
      split
      · exact .some h
      · exact hsame _
  | cons member before ih =>
      obtain ⟨first, value⟩ := member
      simp only [List.cons_append, List.lookup_cons]
      split
      · exact hsame _
      · exact ih

theorem lookup_filter {keep : String → Bool} {name : String} (h : keep name = true)
    (members : List (String × α)) :
    (members.filter fun member => keep member.1).lookup name = members.lookup name := by
  induction members with
  | nil => rfl
  | cons member rest ih =>
      obtain ⟨key, value⟩ := member
      by_cases hname : name = key
      · subst hname
        simp [h]
      · have hne : (name == key) = false := by simpa using hname
        by_cases hkey : keep key = true <;> simp [List.lookup_cons, hkey, hne, ih]

end

/-- What a name leads to in an object. -/
def Value.member? : Value → String → Option Value
  | .object members, name => members.lookup name
  | _, _ => none

namespace Value.Rearranged

variable {v w : Value}

/-- Rearranged values whose names differ have the same members by name, rearranged in turn. -/
theorem member? (h : v.Rearranged w) (hdistinct : v.Distinct) (name : String) :
    Option.Rel Rearranged (v.member? name) (w.member? name) := by
  have hsame : ∀ found : Option Value, Option.Rel Rearranged found found := by
    rintro (_ | a)
    · exact .none
    · exact .some (.refl a)
  induction h with
  | refl => exact hsame _
  | trans first _ ihFirst ihNext =>
      have hfirst := ihFirst hdistinct
      have hnext := ihNext (first.distinct hdistinct)
      revert hfirst hnext
      generalize Value.member? _ name = found
      generalize Value.member? _ name = between
      generalize Value.member? _ name = last
      rintro (hfirst | _) (hnext | _)
      · exact .some (hfirst.trans hnext)
      · exact .none
  | @order members others perm =>
      rw [Distinct] at hdistinct
      rw [Value.member?, Value.member?, lookup_eq_of_perm perm hdistinct.1]
      exact hsame _
  | item => exact .none
  | member inner _ => exact lookup_replaced .refl inner _ _ _ _

/-- The exports of rearranged values select the same target. -/
theorem exportTarget?_eq (h : v.Rearranged w) (hdistinct : v.Distinct) :
    exportTarget? v = exportTarget? w := by
  induction h with
  | refl => rfl
  | trans first _ ihFirst ihNext =>
      exact (ihFirst hdistinct).trans (ihNext (first.distinct hdistinct))
  | order perm =>
      rw [Distinct] at hdistinct
      simp only [exportTarget?, memberTarget?_eq, lookup_eq_of_perm perm hdistinct.1]
  | @item before after v w _ ih =>
      rw [Distinct] at hdistinct
      have hinner := ih (hdistinct v (by simp))
      simp only [exportTarget?]
      clear hdistinct
      induction before with
      | nil => simp only [List.nil_append, firstTarget?, hinner]
      | cons first before ih => simp only [List.cons_append, firstTarget?, ih]
  | @member before after name v w _ ih =>
      rw [Distinct] at hdistinct
      have hinner := ih (hdistinct.2 name v (by simp))
      have hsame : ∀ key, ((before ++ (name, v) :: after).lookup key).map exportTarget? =
          ((before ++ (name, w) :: after).lookup key).map exportTarget? := by
        intro key
        have hrelated := @lookup_replaced Value (fun a b => exportTarget? a = exportTarget? b)
          (fun _ => rfl) v w hinner before after name key
        revert hrelated
        generalize List.lookup key _ = found
        generalize List.lookup key _ = other
        rintro (heq | _)
        · exact congrArg some heq
        · rfl
      simp only [exportTarget?, memberTarget?_eq, hsame]

end Value.Rearranged

/-! ## Tables of versions -/

section

variable {members others : List (String × Value)} {v w : Value}

/-- The text that a value is, if it is one. -/
def Value.text? : Value → Option String
  | .string s => some s
  | _ => none

theorem Value.Rearranged.text?_eq (h : v.Rearranged w) : v.text? = w.text? := by
  rcases h.shape with rfl | ⟨_, _, rfl, rfl⟩ | ⟨_, _, rfl, rfl⟩ <;> rfl

theorem textsOf_eq (members : List (String × Value)) :
    textsOf members =
      (members.filterMap fun member => member.2.text?.map (member.1, ·),
        members.countP fun member => member.2.text?.isNone) := by
  induction members with
  | nil => rfl
  | cons member rest ih =>
      obtain ⟨name, v⟩ := member
      cases v <;> simp [textsOf, ih, Value.text?]

/-- The texts of a table that is rearranged are in another order. -/
theorem versionsOf_alike (h : v.Rearranged w) :
    Alike List.Perm (versionsOf (some v)) (versionsOf (some w)) := by
  have htables : ∀ {members others : List (String × Value)},
      (textsOf members).1.Perm (textsOf others).1 → (textsOf members).2 = (textsOf others).2 →
        Alike List.Perm (versionsOf (some (.object members)))
          (versionsOf (some (.object others))) := by
    intro members others hperm hcount
    rw [versionsOf, versionsOf]
    rcases hfirst : textsOf members with ⟨versions, faults⟩
    rcases hsecond : textsOf others with ⟨others, more⟩
    rw [hfirst, hsecond] at hperm hcount
    obtain rfl : faults = more := hcount
    cases faults with
    | zero => exact .ok hperm
    | succ faults => exact .error _
  induction h with
  | refl v => exact .refl (fun _ => .refl _) _
  | trans _ _ ihFirst ihNext => exact ihFirst.trans (fun _ _ _ => .trans) ihNext
  | order perm =>
      refine htables ?_ ?_
      · simpa only [textsOf_eq] using perm.filterMap _
      · simpa only [textsOf_eq] using perm.countP_eq _
  | item => exact .error 1
  | @member before after name v w inner _ =>
      have htext := inner.text?_eq
      refine htables ?_ ?_ <;> simp [textsOf_eq, List.filterMap_cons, List.countP_cons, htext]

end

/-! ## Manifests -/

/-- The members that a manifest reads. -/
def knownMembers : List String :=
  ["name", "version", "main", "exports", "dependencies", "peerDependencies", "peer_dependencies"]

/-- A value without the members that no manifest reads. -/
def Value.essential : Value → Value
  | .object members => .object (members.filter fun member => knownMembers.contains member.1)
  | v => v

/-- Manifests that say the same: exports that select the same target, and the same names with the
same versions, in whatever order. -/
structure Manifest.Equivalent (first second : Manifest) : Prop where
  /-- the same name -/
  name : first.name = second.name
  /-- the same version -/
  version : first.version = second.version
  /-- the same main file -/
  main : first.main = second.main
  /-- the same target -/
  target : exportTarget? first.exports = exportTarget? second.exports
  /-- the same dependencies -/
  dependencies : first.dependencies.Perm second.dependencies
  /-- the same peers -/
  peerDependencies : first.peerDependencies.Perm second.peerDependencies

/-- Names in another order are put in the same order. -/
theorem inOrder_eq_of_perm {names others : List String} (h : names.Perm others) :
    inOrder names = inOrder others := by
  have hperm : (inOrder names).Perm (inOrder others) := by
    rw [List.perm_ext_iff_of_nodup (nodup_inOrder names) (nodup_inOrder others)]
    intro name
    rw [mem_inOrder, mem_inOrder, h.mem_iff]
  exact hperm.eq_of_pairwise (fun a b _ _ hab hba => absurd hba (String.lt_asymm hab))
    (pairwise_lt_inOrder names) (pairwise_lt_inOrder others)

namespace Manifest.Equivalent

variable {first second : Manifest}

protected theorem refl (manifest : Manifest) : manifest.Equivalent manifest :=
  ⟨rfl, rfl, rfl, rfl, .refl _, .refl _⟩

theorem targets_eq (h : first.Equivalent second) : first.targets = second.targets := by
  rw [Manifest.targets, Manifest.targets, h.target, h.main]

theorem dependencyNames_eq (h : first.Equivalent second) (includePeer : Bool) :
    first.dependencyNames includePeer = second.dependencyNames includePeer := by
  refine inOrder_eq_of_perm ((h.dependencies.map Prod.fst).append ?_)
  cases includePeer with
  | true => exact h.peerDependencies.map Prod.fst
  | false => exact .refl _

end Manifest.Equivalent

section

variable {members others : List (String × Value)}

theorem optionalText_eq {name : String}
    (h : Option.Rel Value.Rearranged (members.lookup name) (others.lookup name)) :
    optionalText members name = optionalText others name := by
  unfold optionalText
  revert h
  generalize members.lookup name = found
  generalize others.lookup name = other
  rintro (hrearranged | _)
  · rcases hrearranged.shape with rfl | ⟨_, _, rfl, rfl⟩ | ⟨_, _, rfl, rfl⟩ <;> rfl
  · rfl

theorem exportsOf_alike
    (h : Option.Rel Value.Rearranged (members.lookup "exports") (others.lookup "exports"))
    (hdistinct : ∀ v ∈ members.lookup "exports", v.Distinct) :
    Alike (fun v w => exportTarget? v = exportTarget? w)
      (exportsOf members) (exportsOf others) := by
  unfold exportsOf
  revert h hdistinct
  generalize members.lookup "exports" = found
  generalize others.lookup "exports" = other
  rintro (hrearranged | _) hdistinct
  · have htarget := hrearranged.exportTarget?_eq (hdistinct _ rfl)
    rcases hrearranged.shape with rfl | ⟨_, _, rfl, rfl⟩ | ⟨_, _, rfl, rfl⟩
    · exact (Alike.of_eq rfl).imp fun _ _ => congrArg exportTarget?
    · exact .ok htarget
    · exact .ok htarget
  · exact .ok rfl

theorem versionsOf_alike_of_rel {found other : Option Value}
    (h : Option.Rel Value.Rearranged found other) :
    Alike List.Perm (versionsOf found) (versionsOf other) := by
  cases h with
  | some h => exact versionsOf_alike h
  | none => exact .ok (.refl _)

/-- What a manifest reads from members that are rearranged, and may have others beside them, says
the same, or has as many faults. -/
theorem ofMembers_alike
    (h : (Value.object members).essential.Rearranged (Value.object others).essential)
    (hdistinct : (Value.object members).Distinct) :
    Alike Manifest.Equivalent (Manifest.ofMembers members) (Manifest.ofMembers others) := by
  rw [Value.Distinct] at hdistinct
  have hessential : (Value.object members).essential.Distinct := by
    rw [Value.essential, Value.Distinct]
    exact ⟨hdistinct.1.sublist (List.filter_sublist.map _),
      fun name v hmem => hdistinct.2 name v (List.mem_of_mem_filter hmem)⟩
  have hlookup : ∀ name, knownMembers.contains name = true →
      Option.Rel Value.Rearranged (members.lookup name) (others.lookup name) := by
    intro name hname
    have hmember := h.member? hessential name
    rwa [Value.essential, Value.essential, Value.member?, Value.member?, lookup_filter hname,
      lookup_filter hname] at hmember
  have hpeers : Option.Rel Value.Rearranged (peersOf members) (peersOf others) := by
    have hfirst := hlookup "peerDependencies" (by decide)
    have hsecond := hlookup "peer_dependencies" (by decide)
    unfold peersOf
    revert hfirst
    generalize members.lookup "peerDependencies" = found
    generalize others.lookup "peerDependencies" = other
    rintro (hrearranged | _)
    · exact .some hrearranged
    · exact hsecond
  have hname := optionalText_eq (hlookup "name" (by decide))
  have hversion := optionalText_eq (hlookup "version" (by decide))
  have hmain := optionalText_eq (hlookup "main" (by decide))
  have hexports := exportsOf_alike (hlookup "exports" (by decide))
    fun v hv => hdistinct.2 "exports" v (mem_of_lookup hv)
  have hdependencies := versionsOf_alike_of_rel (hlookup "dependencies" (by decide))
  have hpeerDependencies := versionsOf_alike_of_rel hpeers
  unfold Manifest.ofMembers
  rw [hname, hversion, hmain]
  revert hexports hdependencies hpeerDependencies
  generalize exportsOf members = exports
  generalize exportsOf others = otherExports
  generalize versionsOf (members.lookup "dependencies") = dependencies
  generalize versionsOf (others.lookup "dependencies") = otherDependencies
  generalize versionsOf (peersOf members) = peers
  generalize versionsOf (peersOf others) = otherPeers
  -- a field has the same fault on both sides, or is right on both
  rintro (hexports | faults) (hdependencies | faults) (hpeers | faults)
  all_goals
    rcases optionalText others "name" with _ | name
    all_goals
      rcases optionalText others "version" with _ | version
      all_goals
        rcases optionalText others "main" with _ | main
        all_goals first
          | exact .error _
          | exact .ok ⟨rfl, rfl, rfl, hexports, hdependencies, hpeers⟩

end

end EditionSurvey
