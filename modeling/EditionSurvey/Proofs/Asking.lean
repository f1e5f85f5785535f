/-
  Proofs/Asking.lean --- which arguments a setting depends on.

  Arguments are examined parameter by parameter, in an order that depends on the options that are
  there.  What an examination finds does not depend on the settings so far, and it changes the
  setting of its parameter only (`exists_update_of_examine`).  Each parameter is examined once.
  So a setting depends on the last thing that is given to its parameter, and on nothing else that
  is given (`agreeAt_of_readSettings`).
-/
import EditionSurvey.Command.Settings
import Mathlib.Data.List.Nodup

set_option autoImplicit false

namespace EditionSurvey.Command

/-! ## Settings of one parameter -/

/-- Two settings agree in what a parameter sets. -/
def Settings.AgreeAt (settings other : Settings) : Parameter → Prop
  | .edition => settings.options.edition = other.options.edition
  | .packageName => settings.options.packageName = other.options.packageName
  | .resolvePath => settings.options.resolvePath = other.options.resolvePath
  | .showTree => settings.options.showTree = other.options.showTree
  | .showError => settings.options.showError = other.options.showError
  | .includePeer => settings.options.includePeer = other.options.includePeer
  | .target => settings.target = other.target
  | .format => settings.format = other.format
  | .output => settings.output = other.output
  | .verbose => settings.verbose = other.verbose
  | .version | .help => True

namespace Settings.AgreeAt

variable {s t u : Settings} {p : Parameter}

theorem refl (s : Settings) (p : Parameter) : s.AgreeAt s p := by
  cases p <;> first | rfl | trivial

theorem symm (h : s.AgreeAt t p) : t.AgreeAt s p := by
  cases p <;> first | exact Eq.symm h | trivial

theorem trans (h : s.AgreeAt t p) (hnext : t.AgreeAt u p) : s.AgreeAt u p := by
  cases p <;> first | exact Eq.trans h hnext | trivial

end Settings.AgreeAt

/-- An update of settings sets one parameter: what it is set to does not depend on the others,
and these stay. -/
structure Updates (p : Parameter) (update : Settings → Settings) : Prop where
  /-- settings that agree in the parameter still do -/
  own : ∀ s t : Settings, s.AgreeAt t p → (update s).AgreeAt (update t) p
  /-- no other parameter is set -/
  others : ∀ (s : Settings) (q : Parameter), q ≠ p → s.AgreeAt (update s) q

theorem updates_id (p : Parameter) : Updates p id := ⟨fun _ _ h => h, fun s q _ => .refl s q⟩

theorem updates_setFlag (b : Bool) (p : Parameter) : Updates p (·.setFlag b p) where
  own s t h := by
    cases p <;> first | rfl | exact h
  others s q hq := by
    cases p <;> cases q <;> first | exact absurd rfl hq | rfl | trivial

/-- A text that is read and set is read alike for all settings. -/
theorem exists_update_of_read {α : Type} {p : Parameter} {read : Except Stop α}
    (set : α → Settings → Settings) (hset : ∀ a, Updates p (set a)) {s after : Settings}
    (h : (read >>= fun a => pure (set a s)) = .ok after) :
    ∃ update, Updates p update ∧
      ∀ t, (read >>= fun a => pure (set a t)) = Except.ok (update t) := by
  cases read with
  | error stop => cases h
  | ok a => exact ⟨set a, hset a, fun t => rfl⟩

theorem exists_update_of_setText {tree : FileTree} {text : String} {p : Parameter}
    {s after : Settings} (h : s.setText tree text p = .ok after) :
    ∃ update, Updates p update ∧ ∀ t : Settings, t.setText tree text p = .ok (update t) := by
  cases p with
  | edition =>
      refine exists_update_of_read
        (fun edition t => { t with options := { t.options with edition } }) (fun edition => ?_) h
      refine ⟨fun _ _ _ => rfl, fun s q hq => ?_⟩
      cases q <;> first | exact absurd rfl hq | rfl | trivial
  | packageName =>
      refine ⟨fun t => { t with options := { t.options with packageName := text } },
        ⟨fun _ _ _ => rfl, fun s q hq => ?_⟩, fun t => rfl⟩
      cases q <;> first | exact absurd rfl hq | rfl | trivial
  | resolvePath =>
      refine exists_update_of_read
        (fun resolvePath t => { t with options := { t.options with resolvePath } })
        (fun path => ?_) h
      refine ⟨fun _ _ _ => rfl, fun s q hq => ?_⟩
      cases q <;> first | exact absurd rfl hq | rfl | trivial
  | target =>
      refine exists_update_of_read (fun target t => { t with target := some target })
        (fun target => ?_) h
      refine ⟨fun _ _ _ => rfl, fun s q hq => ?_⟩
      cases q <;> first | exact absurd rfl hq | rfl | trivial
  | format =>
      refine exists_update_of_read (fun format t => { t with format }) (fun format => ?_) h
      refine ⟨fun _ _ _ => rfl, fun s q hq => ?_⟩
      cases q <;> first | exact absurd rfl hq | rfl | trivial
  | output =>
      refine exists_update_of_read (fun output t => { t with output := some output })
        (fun output => ?_) h
      refine ⟨fun _ _ _ => rfl, fun s q hq => ?_⟩
      cases q <;> first | exact absurd rfl hq | rfl | trivial
  | showTree | showError | includePeer | verbose | version | help =>
      exact ⟨id, updates_id _, fun t => rfl⟩

/-! ## Examinations -/

variable {tree : FileTree} {environment : Option String} {gifts others : List Gift}
  {p : Parameter} {s t after : Settings}

/-- Of what is given, an examination looks at the last thing that is given to its parameter. -/
theorem examine_congr (h : lastGift? others p = lastGift? gifts p) :
    examine tree environment others s p = examine tree environment gifts s p := by
  unfold examine
  rw [h]

/-- An examination updates its parameter, whatever the settings so far are. -/
theorem exists_update_of_examine (h : examine tree environment gifts s p = .ok after) :
    ∃ update, Updates p update ∧ ∀ t, examine tree environment gifts t p = .ok (update t) := by
  unfold examine at h ⊢
  generalize lastGift? gifts p = given at h ⊢
  rcases given with _ | b | text
  · by_cases hedition : p = .edition
    · subst hedition
      cases environment with
      | none => exact ⟨id, updates_id _, fun t => rfl⟩
      | some text =>
          by_cases hempty : text = ""
          · subst hempty
            exact ⟨id, updates_id _, fun t => rfl⟩
          · simp only at h ⊢
            exact exists_update_of_setText h
    · refine ⟨id, updates_id _, fun t => ?_⟩
      cases p <;> first | rfl | exact absurd rfl hedition
  · exact ⟨(·.setFlag b p), updates_setFlag b p, fun t => rfl⟩
  · exact exists_update_of_setText h

theorem exists_of_bind_ok {ε α β : Type} {first : Except ε α} {next : α → Except ε β} {b : β}
    (h : first >>= next = .ok b) : ∃ a, first = .ok a ∧ next a = .ok b := by
  cases first with
  | error e => cases h
  | ok a => exact ⟨a, rfl, h⟩

/-- Examining other parameters does not set a parameter. -/
theorem agreeAt_of_not_mem {order : List Parameter} (hp : p ∉ order)
    (h : order.foldlM (examine tree environment gifts) s = .ok after) : s.AgreeAt after p := by
  induction order generalizing s with
  | nil =>
      obtain rfl : s = after := Except.ok.inj h
      exact .refl s p
  | cons q order ih =>
      obtain ⟨hq, horder⟩ := not_or.mp (mt List.mem_cons.mpr hp)
      rw [List.foldlM_cons] at h
      obtain ⟨next, hfirst, h⟩ := exists_of_bind_ok h
      obtain ⟨update, hupdates, hexamine⟩ := exists_update_of_examine hfirst
      obtain rfl : update s = next := Except.ok.inj ((hexamine s).symm.trans hfirst)
      exact (hupdates.others s p hq).trans (ih horder h)

/-- A parameter that is examined once is what its examination sets it to. -/
theorem exists_update_of_nodup {order : List Parameter} (horder : order.Nodup) (hp : p ∈ order)
    (h : order.foldlM (examine tree environment gifts) s = .ok after) :
    ∃ update, Updates p update ∧ (∀ t, examine tree environment gifts t p = .ok (update t)) ∧
      (update s).AgreeAt after p := by
  obtain ⟨before, behind, rfl⟩ := List.append_of_mem hp
  obtain ⟨hbefore, hbehind⟩ : p ∉ before ∧ p ∉ behind := by
    have hnot := (List.nodup_cons.mp (List.nodup_middle.mp horder)).1
    exact not_or.mp (mt List.mem_append.mpr hnot)
  rw [List.foldlM_append] at h
  obtain ⟨t, hfirst, h⟩ := exists_of_bind_ok h
  rw [List.foldlM_cons] at h
  obtain ⟨u, hexamined, h⟩ := exists_of_bind_ok h
  obtain ⟨update, hupdates, hexamine⟩ := exists_update_of_examine hexamined
  obtain rfl : update t = u := Except.ok.inj ((hexamine t).symm.trans hexamined)
  have hsame := agreeAt_of_not_mem hbefore hfirst
  exact ⟨update, hupdates, hexamine,
    (hupdates.own s t hsame).trans (agreeAt_of_not_mem hbehind h)⟩

/-! ## The order of examinations -/

theorem nodup_eraseDups {α : Type} [DecidableEq α] (items : List α) : items.eraseDups.Nodup := by
  induction hlength : items.length using Nat.strongRecOn generalizing items with
  | ind length ih =>
      cases items with
      | nil => exact List.nodup_nil
      | cons item rest =>
          rw [List.eraseDups_cons, List.nodup_cons, List.mem_eraseDups]
          refine ⟨by simp, ih _ ?_ _ rfl⟩
          have hshorter := List.length_filter_le (fun other => !other == item) rest
          simp only [List.length_cons] at hlength
          omega

theorem nodup_examinationOrder (gifts : List Gift) : (examinationOrder gifts).Nodup := by
  refine List.nodup_append.mpr ⟨nodup_eraseDups _, ?_, ?_⟩
  · exact List.Nodup.filter _ (by decide)
  · rintro q hq r hr rfl
    have hnot := (List.mem_filter.mp hr).2
    rw [List.mem_eraseDups] at hq
    simp [hq] at hnot

theorem mem_examinationOrder (gifts : List Gift) (hp : p ∈ Parameter.all) :
    p ∈ examinationOrder gifts := by
  by_cases hgiven : p ∈ gifts.map Prod.fst
  · exact List.mem_append_left _ (List.mem_eraseDups.mpr hgiven)
  · exact List.mem_append_right _ (List.mem_filter.mpr ⟨hp, by simpa using hgiven⟩)

/-- A setting depends on the last thing that is given to its parameter: two lists of arguments
that agree in that ask for the same setting, whatever else they give and in whatever order. -/
theorem agreeAt_of_readSettings {arguments more : Arguments} (hp : p ∈ Parameter.all)
    (hgift : lastGift? more.gifts p = lastGift? arguments.gifts p)
    (hs : readSettings tree environment arguments = .ok s)
    (ht : readSettings tree environment more = .ok t) : s.AgreeAt t p := by
  have hexamined : ∀ {arguments : Arguments} {s : Settings},
      readSettings tree environment arguments = .ok s →
        (examinationOrder arguments.gifts).foldlM (examine tree environment arguments.gifts) {} =
          .ok s := by
    intro arguments s h
    obtain ⟨settings, hfold, h⟩ := exists_of_bind_ok h
    split at h
    · obtain rfl : settings = s := Except.ok.inj h
      exact hfold
    · cases h
  obtain ⟨update, hupdates, hexamine, hagree⟩ := exists_update_of_nodup
    (nodup_examinationOrder _) (mem_examinationOrder _ hp) (hexamined hs)
  obtain ⟨other, _, hexamineMore, hagreeMore⟩ := exists_update_of_nodup
    (nodup_examinationOrder _) (mem_examinationOrder _ hp) (hexamined ht)
  have hsame : update {} = other {} := by
    refine Except.ok.inj ((hexamine {}).symm.trans (Eq.trans ?_ (hexamineMore {})))
    exact (examine_congr hgift).symm
  rw [hsame] at hagree
  exact hagree.symm.trans hagreeMore

end EditionSurvey.Command
