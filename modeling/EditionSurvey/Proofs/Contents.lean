/-
  Proofs/Contents.lean --- what a YAML file tells of its report.

  What is written of something reveals it if it can be told from that, whatever stands behind
  (`Reveals`).  A text reveals itself, in whatever form it is written and wherever its lines are
  folded, because it is read back.  A line with a word reveals the word.  A list reveals its items:
  each of them starts with a dash, and a key does not.  A package that does not conform reveals what
  is shown of it.  So two reports with the same YAML file have the same contents, as far as these
  are shown, and the same JSON file (`contents_of_yaml_eq`).
-/
import EditionSurvey.Proofs.Folding
import EditionSurvey.Proofs.Printing
import EditionSurvey.Proofs.Unstyled
import EditionSurvey.Report.Format

set_option autoImplicit false

namespace EditionSurvey.Report

open Yaml

/-- What is written of something tells its view and where it ends, if what stands behind is as
required. -/
def Reveals {α β : Type} (write : α → List Char) (view : α → β) (next : List Char → Prop) : Prop :=
  ∀ ⦃a b : α⦄ ⦃more others : List Char⦄, next more → next others →
    write a ++ more = write b ++ others → view a = view b ∧ more = others

/-! ## Lines -/

/-- Words are told apart by the mark behind them, if they do not hold it. -/
theorem eq_of_append_mark {mark : Char} {word other more others : List Char} (hword : mark ∉ word)
    (hother : mark ∉ other) (h : word ++ mark :: more = other ++ mark :: others) :
    word = other ∧ more = others := by
  induction word generalizing other with
  | nil =>
      cases other with
      | nil => exact ⟨rfl, (List.cons.inj h).2⟩
      | cons d other => exact absurd (List.cons.inj h).1 (List.ne_of_not_mem_cons hother)
  | cons c word ih =>
      cases other with
      | nil => exact absurd (List.cons.inj h).1.symm (List.ne_of_not_mem_cons hword)
      | cons d other =>
          obtain ⟨rfl, htail⟩ := List.cons.inj h
          obtain ⟨rfl, hmore⟩ := ih (List.not_mem_of_not_mem_cons hword)
            (List.not_mem_of_not_mem_cons hother) htail
          exact ⟨rfl, hmore⟩

/-- A line with a word reveals what the word stands for. -/
theorem reveals_wordLine {α β : Type} {word : α → String} {view : α → β}
    (hline : ∀ a, '\n' ∉ (word a).toList) (hword : ∀ a b, word a = word b → view a = view b)
    (indent : Nat) (key : String) :
    Reveals (fun a => yamlWordLine indent key (word a)) view fun _ => True := by
  intro a b more others _ _ h
  simp only [yamlWordLine, List.append_assoc, List.cons_append, List.nil_append,
    List.append_cancel_left_eq, List.cons.injEq, true_and] at h
  obtain ⟨htext, hmore⟩ := eq_of_append_mark (hline a) (hline b) h
  exact ⟨hword a b (String.toList_inj.mp htext), hmore⟩

/-- A text reveals itself. -/
theorem reveals_writeText {indent : Nat} (hpos : 0 < indent) (hindent : indent < lineWidth)
    (column : Nat) :
    Reveals (fun text : String => writeText indent column text.toList ++ ['\n']) id
      (Outdented indent) := by
  intro a b more others hmore hothers h
  simp only [List.append_assoc, List.singleton_append] at h
  have hread := readText_writeText hpos hindent hmore column a.toList
  rw [h, readText_writeText hpos hindent hothers] at hread
  obtain ⟨htext, hrest⟩ := Prod.mk.inj hread
  exact ⟨(String.toList_inj.mp htext).symm, hrest.symm⟩

theorem reveals_textLine {indent : Nat} (hindent : indent + 2 < lineWidth) (key : String) :
    Reveals (yamlTextLine indent key) id (Outdented (indent + 2)) := by
  intro a b more others hmore hothers h
  simp only [yamlTextLine, List.append_assoc, List.append_cancel_left_eq] at h
  apply reveals_writeText (Nat.succ_pos _) hindent (columnBehindKey indent key) hmore hothers
  simpa only [List.append_assoc] using h

theorem reveals_name : Reveals yamlName id (Outdented 2) := by
  intro a b more others hmore hothers h
  rw [yamlName, yamlName, List.cons_append, List.cons_append] at h
  exact reveals_writeText (by decide) (by decide) 1 hmore hothers (List.cons.inj h).2

/-! ## Lists -/

/-- What follows starts as keys do, with neither a blank nor a dash. -/
def AtKey (more : List Char) : Prop := ∃ c rest, more = c :: rest ∧ c ≠ ' ' ∧ c ≠ '-'

section

variable {α β : Type} {item : α → List Char} {view : α → β}

/-- Behind an item stand other items or a key, and neither is indented. -/
theorem outdented_items (hdash : ∀ a, ∃ cs, item a = '-' :: cs) (items : List α) {more : List Char}
    (hmore : AtKey more) : Outdented 2 (items.flatMap item ++ more) := by
  cases items with
  | nil =>
      obtain ⟨c, rest, rfl, hblank, -⟩ := hmore
      exact outdented_cons hblank 1 rest
  | cons a items =>
      obtain ⟨cs, hcs⟩ := hdash a
      rw [List.flatMap_cons, hcs]
      exact outdented_cons (by decide) 1 _

/-- Items that start with a dash reveal themselves one after another. -/
theorem reveals_items (hitem : Reveals item view (Outdented 2))
    (hdash : ∀ a, ∃ cs, item a = '-' :: cs) :
    Reveals (List.flatMap item) (List.map view) AtKey := by
  have hdiffer : ∀ (a : α) {rest more : List Char}, AtKey more → more ≠ item a ++ rest := by
    rintro a rest more ⟨c, tail, rfl, -, hc⟩ h
    obtain ⟨cs, hcs⟩ := hdash a
    rw [hcs] at h
    exact hc (List.cons.inj h).1
  intro items others more rest hmore hrest h
  induction items generalizing others with
  | nil =>
      cases others with
      | nil => exact ⟨rfl, h⟩
      | cons b others =>
          rw [List.flatMap_cons, List.append_assoc] at h
          exact absurd h (hdiffer b hmore)
  | cons a items ih =>
      cases others with
      | nil =>
          rw [List.flatMap_cons, List.append_assoc] at h
          exact absurd h.symm (hdiffer a hrest)
      | cons b others =>
          rw [List.flatMap_cons, List.flatMap_cons, List.append_assoc, List.append_assoc] at h
          obtain ⟨hview, htail⟩ := hitem (outdented_items hdash items hmore)
            (outdented_items hdash others hrest) h
          obtain ⟨hviews, hmore⟩ := ih htail
          exact ⟨by rw [List.map_cons, List.map_cons, hview, hviews], hmore⟩

/-- A list under a key reveals its items. -/
theorem reveals_list (hitem : Reveals item view (Outdented 2))
    (hdash : ∀ a, ∃ cs, item a = '-' :: cs) (key : String) :
    Reveals (yamlList key item) (List.map view) AtKey := by
  have hempty : yamlList key item [] = yamlKey 0 key ++ " []\n".toList := by
    simp [yamlList, yamlWordLine]
  have hitems : ∀ a items, yamlList key item (a :: items) =
      yamlKey 0 key ++ '\n' :: (a :: items).flatMap item := fun _ _ => rfl
  intro items others more rest hmore hrest h
  cases items with
  | nil =>
      cases others with
      | nil => exact ⟨rfl, List.append_cancel_left h⟩
      | cons b others =>
          rw [hempty, hitems, List.append_assoc, List.append_assoc] at h
          exact absurd (List.append_cancel_left h) (by simp)
  | cons a items =>
      cases others with
      | nil =>
          rw [hempty, hitems, List.append_assoc, List.append_assoc] at h
          exact absurd (List.append_cancel_left h) (by simp)
      | cons b others =>
          rw [hitems, hitems, List.append_assoc, List.append_assoc] at h
          exact reveals_items hitem hdash hmore hrest (List.cons.inj (List.append_cancel_left h)).2

/-- A list under a key starts with the key. -/
theorem atKey_yamlList {key : String} {c : Char} {cs : List Char} (hkey : key.toList = c :: cs)
    (hc : c ≠ ' ' ∧ c ≠ '-') (items : List α) (more : List Char) :
    AtKey (yamlList key item items ++ more) := by
  unfold yamlList
  split
  · exact ⟨c, _, by simp [yamlWordLine, yamlKey, hkey]; rfl, hc⟩
  · exact ⟨c, _, by simp [yamlKey, hkey]; rfl, hc⟩

end

/-! ## Numbers -/

theorem eq_of_toString_eq {m n : Int} (h : toString m = toString n) : m = n := by
  have hdigits : ∀ k : Nat, (toString (Int.ofNat k)).toList = Nat.toDigits 10 k :=
    fun _ => Nat.toList_repr
  have hvalue : ∀ {k l : Nat}, Nat.toDigits 10 k = Nat.toDigits 10 l → k = l := fun {k l} heq => by
    rw [← digitsValue_toDigits k, heq, digitsValue_toDigits]
  have hsign : ∀ k l : Nat, toString (Int.ofNat k) ≠ toString (Int.negSucc l) := by
    intro k l heq
    have hminus : '-' ∈ (toString (Int.ofNat k)).toList := by
      rw [heq, toList_toString_negSucc]
      exact List.mem_cons_self
    rw [hdigits] at hminus
    exact absurd (isDigit_of_mem_toDigits_ten _ hminus) (by decide)
  have hlists := congrArg String.toList h
  cases m with
  | ofNat k =>
      cases n with
      | ofNat l =>
          rw [hdigits, hdigits] at hlists
          rw [hvalue hlists]
      | negSucc l => exact absurd h (hsign k l)
  | negSucc k =>
      cases n with
      | ofNat l => exact absurd h.symm (hsign l k)
      | negSucc l =>
          rw [toList_toString_negSucc, toList_toString_negSucc] at hlists
          rw [Nat.succ.inj (hvalue (List.cons.inj hlists).2)]

theorem eq_of_yamlNumber_eq {m n : Option Int} (h : yamlNumber m = yamlNumber n) : m = n := by
  have hnull : ∀ n : Int, yamlNumber none ≠ yamlNumber (some n) := by
    intro n heq
    have hletter : 'n' ∈ (yamlNumber none).toList := by decide
    rw [heq] at hletter
    exact not_mem_toString (by decide) n hletter
  cases m with
  | none =>
      cases n with
      | none => rfl
      | some n => exact absurd h (hnull n)
  | some m =>
      cases n with
      | none => exact absurd h.symm (hnull m)
      | some n => exact congrArg some (eq_of_toString_eq h)

theorem reveals_number (indent : Nat) (key : String) :
    Reveals (fun n => yamlWordLine indent key (yamlNumber n)) Value.ofInt? fun _ => True := by
  refine reveals_wordLine (fun n => ?_) (fun _ _ h => congrArg _ (eq_of_yamlNumber_eq h)) indent key
  cases n with
  | none => decide
  | some n => exact not_mem_toString (by decide) n

/-! ## Packages that do not conform -/

theorem reveals_state (indent : Nat) (key : String) :
    Reveals (fun state : PackageState => yamlWordLine indent key state.text) id fun _ => True := by
  refine reveals_wordLine (fun state => ?_) (fun a b h => ?_) indent key
  · cases state <;> decide
  · revert h
    cases a <;> cases b <;> decide

theorem reveals_diagnostic : Reveals yamlDiagnostic Value.ofDiagnostic? fun _ => True := by
  have hnone : yamlDiagnostic none = yamlKey 2 "diagnostic" ++ " null\n".toList := rfl
  have hsome : ∀ d, yamlDiagnostic (some d) = yamlKey 2 "diagnostic" ++ ('\n' ::
      (yamlTextLine 4 "message" d.message ++ (yamlWordLine 4 "line" (yamlNumber d.line) ++
        yamlWordLine 4 "column" (yamlNumber d.column)))) := fun d => by
    simp [yamlDiagnostic]
  intro a b more others _ _ h
  cases a with
  | none =>
      cases b with
      | none => exact ⟨rfl, List.append_cancel_left h⟩
      | some d =>
          rw [hnone, hsome, List.append_assoc, List.append_assoc] at h
          exact absurd (List.append_cancel_left h) (by simp)
  | some c =>
      cases b with
      | none =>
          rw [hnone, hsome, List.append_assoc, List.append_assoc] at h
          exact absurd (List.append_cancel_left h) (by simp)
      | some d =>
          have hbehind : ∀ (n : Option Int) (cs : List Char),
              Outdented 6 (yamlWordLine 4 "line" (yamlNumber n) ++ cs) := by
            intro n cs
            simp [Outdented, yamlWordLine, yamlKey, List.replicate]
          rw [hsome, hsome] at h
          simp only [List.append_assoc, List.cons_append] at h
          replace h := (List.cons.inj (List.append_cancel_left h)).2
          obtain ⟨hmessage, h⟩ := reveals_textLine (by decide) "message" (hbehind _ _) (hbehind _ _) h
          obtain ⟨hnumber, h⟩ := reveals_number 4 "line" trivial trivial h
          obtain ⟨hcolumn, h⟩ := reveals_number 4 "column" trivial trivial h
          refine ⟨?_, h⟩
          simp only [id_eq] at hmessage
          simp only [Value.ofDiagnostic?, Diagnostic.toValue, hmessage, hnumber, hcolumn]

/-- A package that does not conform reveals what is shown of it. -/
theorem reveals_offender (showError : Bool) :
    Reveals (yamlOffender showError) (Offender.toValue showError) (Outdented 2) := by
  have hblank : ∀ name, ' ' :: (yamlTextLine 2 "name" name).drop 1 = yamlTextLine 2 "name" name :=
    fun _ => rfl
  have hbehind : ∀ (state : PackageState) (cs : List Char),
      Outdented 4 (yamlWordLine 2 "state" state.text ++ cs) := by
    intro state cs
    simp [Outdented, yamlWordLine, yamlKey, List.replicate]
  intro a b more others _ _ h
  simp only [yamlOffender, List.append_assoc, List.cons_append] at h
  -- the dash stands in place of a blank
  replace h := congrArg (' ' :: ·) (List.cons.inj h).2
  simp only [← List.cons_append, hblank] at h
  obtain ⟨hname, h⟩ := reveals_textLine (by decide) "name" (hbehind _ _) (hbehind _ _) h
  obtain ⟨hstate, h⟩ := reveals_state 2 "state" trivial trivial h
  simp only [id_eq] at hname hstate
  cases showError with
  | false => exact ⟨by simp [Offender.toValue, hname, hstate], h⟩
  | true =>
      obtain ⟨hdiagnostic, h⟩ := reveals_diagnostic trivial trivial h
      exact ⟨by simp [Offender.toValue, hname, hstate, hdiagnostic], h⟩

/-! ## Reports -/

theorem reveals_names (key : String) : Reveals (yamlList key yamlName) (List.map id) AtKey :=
  reveals_list reveals_name (fun _ => ⟨_, rfl⟩) key

theorem reveals_offenders (showError : Bool) (key : String) :
    Reveals (yamlList key (yamlOffender showError)) (List.map (Offender.toValue showError)) AtKey :=
  reveals_list (reveals_offender showError) (fun _ => ⟨_, rfl⟩) key

theorem reveals_edition (key : String) :
    Reveals (fun edition : Int => yamlWordLine 0 key (toString edition)) id fun _ => True :=
  reveals_wordLine (not_mem_toString (by decide)) (fun _ _ => eq_of_toString_eq) 0 key

/-- Two reports with the same YAML file have the same contents, as far as these are shown, and so
the same JSON file. -/
theorem contents_of_yaml_eq {first second : Report} {showError : Bool}
    (h : first.render .yaml showError = second.render .yaml showError) :
    first.toValue showError = second.toValue showError ∧
      first.render .json showError = second.render .json showError := by
  have hcontents : first.toValue showError = second.toValue showError := by
    replace h := congrArg String.toList h
    simp only [render, yaml, String.toList_ofList, List.append_assoc] at h
    obtain ⟨hedition, h⟩ := reveals_edition "es_version" trivial trivial h
    obtain ⟨hcompatible, h⟩ := reveals_names "compatible"
      (atKey_yamlList rfl (by decide) _ _) (atKey_yamlList rfl (by decide) _ _) h
    obtain ⟨hnonSource, h⟩ := reveals_names "non_source"
      (atKey_yamlList rfl (by decide) _ _) (atKey_yamlList rfl (by decide) _ _) h
    obtain ⟨hincompatible, h⟩ := reveals_offenders showError "incompatible"
      (atKey_yamlList rfl (by decide) _ _) (atKey_yamlList rfl (by decide) _ _) h
    obtain ⟨hunreadable, -⟩ := reveals_names "unreadable"
      ⟨'p', _, rfl, by decide⟩ ⟨'p', _, rfl, by decide⟩ h
    simp only [id_eq, List.map_id] at hedition hcompatible hnonSource hunreadable
    have hpassed : first.passed = second.passed := by
      have hsame := congrArg List.isEmpty hincompatible
      rwa [List.isEmpty_map, List.isEmpty_map] at hsame
    simp only [toValue, hedition, hcompatible, hnonSource, hincompatible, hunreadable, hpassed]
  exact ⟨hcontents, congrArg Value.toFile hcontents⟩

/-- A report whose names are written in every form and folded, with a reason. -/
def foldedReport (reason : Option Diagnostic) : Report where
  edition := 5
  compatible := ["a", "yes", "it's\nthere", "tab\there"]
  nonSource := []
  incompatible := [⟨String.ofList (List.replicate 90 'a') ++ " b", .incompatible, reason⟩,
    ⟨String.ofList (List.replicate 90 'a') ++ "\t b", .incompatible, none⟩]
  unreadable := ["- a"]

theorem foldedReport_contents :
    let explained := foldedReport (some ⟨"Unexpected token", some 1, none⟩)
    let plain := foldedReport none
    explained ≠ plain ∧ explained.render .yaml false = plain.render .yaml false ∧
      explained.toValue false = plain.toValue false ∧
      explained.render .json false = plain.render .json false := by
  intro explained plain
  have hyaml : explained.render .yaml false = plain.render .yaml false := rfl
  have hne : explained ≠ plain := fun h => by
    have hreasons := congrArg (fun report => report.incompatible.map Offender.diagnostic) h
    exact absurd (List.cons.inj hreasons).1 (by decide)
  exact ⟨hne, hyaml, contents_of_yaml_eq hyaml⟩

end EditionSurvey.Report
