/-
  Proofs/Unstyled.lean --- reports for other programs hold no escapes.

  What a report takes from packages is text of any kind.  In JSON and in YAML it stands in quotes,
  or it is such that it needs none, and an escape in it is written by its number or its letter.
  So such a report is echoed as it is: no sequence in it is taken for one that styles it
  (`unstyled_json`, `unstyled_yaml`).

  In Markdown names stand as they are.  If one of them has a sequence that styles a text, the
  report has it too, and it is not echoed as it is (`styled_markdown`).
-/
import EditionSurvey.Proofs.Grouping
import EditionSurvey.Report.Format
import EditionSurvey.Text.Styles

set_option autoImplicit false

namespace EditionSurvey

open Text (escape)

/-- A text holds no escape. -/
def Unstyled (cs : List Char) : Prop := escape ∉ cs

instance (cs : List Char) : Decidable (Unstyled cs) := inferInstanceAs (Decidable (_ ∉ _))

namespace Unstyled

variable {c : Char} {cs others : List Char}

theorem nil : Unstyled [] := List.not_mem_nil

theorem cons (hc : escape ≠ c) (hcs : Unstyled cs) : Unstyled (c :: cs) :=
  List.not_mem_cons_of_ne_of_not_mem hc hcs

theorem ne (h : Unstyled (c :: cs)) : escape ≠ c := List.ne_of_not_mem_cons h

theorem tail (h : Unstyled (c :: cs)) : Unstyled cs := List.not_mem_of_not_mem_cons h

theorem append (hcs : Unstyled cs) (hothers : Unstyled others) : Unstyled (cs ++ others) :=
  fun hmem => (List.mem_append.mp hmem).elim hcs hothers

theorem replicate (hc : escape ≠ c) (n : Nat) : Unstyled (List.replicate n c) :=
  fun hmem => hc (List.eq_of_mem_replicate hmem)

theorem take (h : Unstyled cs) (n : Nat) : Unstyled (cs.take n) :=
  fun hmem => h (List.mem_of_mem_take hmem)

theorem drop (h : Unstyled cs) (n : Nat) : Unstyled (cs.drop n) :=
  fun hmem => h (List.mem_of_mem_drop hmem)

theorem flatMap {α : Type} {write : α → List Char} (h : ∀ a, Unstyled (write a))
    (items : List α) : Unstyled (items.flatMap write) := fun hmem =>
  let ⟨a, _, ha⟩ := List.mem_flatMap.mp hmem
  h a ha

theorem toList_append {s t : String} (hs : Unstyled s.toList) (ht : Unstyled t.toList) :
    Unstyled (s ++ t).toList := by
  rw [String.toList_append]
  exact hs.append ht

theorem toList_ofList (hcs : Unstyled cs) : Unstyled (String.ofList cs).toList := by
  rwa [String.toList_ofList]

end Unstyled

/-! ## Numbers -/

theorem exists_digitChar_of_mem_toDigits {base n : Nat} {c : Char} (hbase : 1 < base)
    (hc : c ∈ Nat.toDigits base n) : ∃ digit < base, c = Nat.digitChar digit := by
  induction n using Nat.strongRecOn with
  | ind n ih =>
      rw [Nat.toDigits_eq_if hbase] at hc
      split at hc
      · next hlt => exact ⟨n, hlt, List.mem_singleton.mp hc⟩
      · obtain hc | hc := List.mem_append.mp hc
        · exact ih (n / base) (Nat.div_lt_self (by omega) hbase) hc
        · exact ⟨n % base, Nat.mod_lt n (by omega), List.mem_singleton.mp hc⟩

theorem unstyled_hexDigits (n : Nat) :
    Unstyled (Nat.toDigits 16 n) ∧ Unstyled ((Nat.toDigits 16 n).map Char.toUpper) := by
  have hdigits : ∀ digit < 16, escape ≠ Nat.digitChar digit ∧
      (Nat.digitChar digit).toUpper ≠ escape := by decide
  constructor
  · intro hmem
    obtain ⟨digit, hlt, hdigit⟩ := exists_digitChar_of_mem_toDigits (by decide) hmem
    exact (hdigits digit hlt).1 hdigit
  · intro hmem
    obtain ⟨c, hc, hupper⟩ := List.mem_map.mp hmem
    obtain ⟨digit, hlt, rfl⟩ := exists_digitChar_of_mem_toDigits (by decide) hc
    exact (hdigits digit hlt).2 hupper

theorem unstyled_hexText (width n : Nat) : Unstyled (hexText width n) :=
  (Unstyled.replicate (by decide) _).append (unstyled_hexDigits n).1

theorem unstyled_digits (n : Nat) : Unstyled (Nat.toDigits 10 n) := fun hmem =>
  absurd (Nat.isDigit_of_mem_toDigits (by decide) (by decide) hmem) (by decide)

/-- A whole number is written with digits, and perhaps with a sign. -/
theorem not_mem_toString {c : Char} (hc : c.isDigit = false ∧ c ≠ '-') (n : Int) :
    c ∉ (toString n).toList := by
  have hdigits : ∀ k : Nat, c ∉ (toString k).toList := by
    intro k hmem
    rw [Nat.toString_eq_ofList_toDigits, String.toList_ofList] at hmem
    have hdigit := Nat.isDigit_of_mem_toDigits (by decide) (by decide) hmem
    exact absurd hdigit (by simp [hc.1])
  cases n with
  | ofNat k => exact hdigits k
  | negSucc k =>
      have htext : toString (Int.negSucc k) = "-" ++ toString (k + 1) := rfl
      rw [htext, String.toList_append]
      intro hmem
      obtain hmem | hmem := List.mem_append.mp hmem
      · exact hc.2 (List.mem_singleton.mp hmem)
      · exact hdigits (k + 1) hmem

theorem unstyled_toString (n : Int) : Unstyled (toString n).toList := not_mem_toString (by decide) n

theorem unstyled_toString_nat (n : Nat) : Unstyled (toString n).toList := unstyled_toString n

namespace Decimal

theorem unstyled_exponentText (n : Int) : Unstyled (exponentText n).toList := by
  have hdigits := unstyled_toString_nat n.natAbs
  refine .toList_append (by split <;> decide) ?_
  split
  · exact .toList_append (by decide) hdigits
  · exact hdigits

theorem unstyled_digitsText {digits : List Char} (h : Unstyled digits) (point : Int) :
    Unstyled (digitsText digits point).toList := by
  unfold digitsText
  split
  · refine .toList_append (Unstyled.toList_ofList ((h.take 1).append ?_)) (unstyled_exponentText _)
    split
    · exact .nil
    · exact .cons (by decide) (h.drop 1)
  · split
    · exact .toList_append (by decide)
        (Unstyled.toList_ofList ((Unstyled.replicate (by decide) _).append h))
    · exact Unstyled.toList_ofList ((h.take _).append (.cons (by decide) (h.drop _)))

/-- A number is written with digits, a sign, a point and an exponent. -/
theorem unstyled_text (n : Decimal) : Unstyled n.text.toList := by
  unfold text
  split
  · exact unstyled_toString _
  · have hdigits : Unstyled (withoutFinalZeros (Nat.toDigits 10 n.mantissa.natAbs)).1 := by
      intro hmem
      have hkept := (List.dropWhile_sublist _).subset (List.mem_reverse.mp hmem)
      exact unstyled_digits _ (List.mem_reverse.mp hkept)
    exact .toList_append (by split <;> decide) (unstyled_digitsText hdigits _)

end Decimal

/-! ## JSON -/

theorem unstyled_printedChar (c : Char) : Unstyled (printedChar c) := by
  unfold printedChar
  repeat' split
  all_goals first | decide | skip
  · exact .cons (by decide) (.cons (by decide) (unstyled_hexText 4 _))
  · next hvisible =>
      refine .cons ?_ .nil
      rintro rfl
      exact hvisible (by decide)

theorem unstyled_printedText (s : String) : Unstyled (printedText s) :=
  .cons (by decide) ((Unstyled.flatMap unstyled_printedChar _).append (by decide))

theorem unstyled_newLine (depth : Nat) : Unstyled (newLine depth) :=
  .cons (by decide) (.replicate (by decide) _)

theorem unstyled_printed_notFinite (depth : Nat) (name : String) :
    Unstyled ((Value.notFinite name).printed depth) := by
  generalize hvalue : Value.notFinite name = value
  fun_cases Value.printed depth value <;> first | decide | cases hvalue

mutual

/-- A value is written without escapes: they occur in texts only, and there they are escaped. -/
theorem unstyled_printed (depth : Nat) : (value : Value) → Unstyled (value.printed depth)
  | .null => (by decide : Unstyled "null".toList)
  | .bool true => (by decide : Unstyled "true".toList)
  | .bool false => (by decide : Unstyled "false".toList)
  | .number n => n.unstyled_text
  | .notFinite name => unstyled_printed_notFinite depth name
  | .string s => unstyled_printedText s
  | .list [] => (by decide : Unstyled ['[', ']'])
  | .list (item :: rest) => by
      have hitems := ((unstyled_newLine (depth + 1)).append
        (unstyled_printed (depth + 1) item)).append (unstyled_printedItems (depth + 1) rest)
      exact .cons (by decide) ((hitems.append (unstyled_newLine depth)).append (by decide))
  | .object [] => (by decide : Unstyled ['{', '}'])
  | .object ((name, value) :: rest) => by
      have hname := ((unstyled_newLine (depth + 1)).append (unstyled_printedText name)).append
        (by decide : Unstyled [':', ' '])
      have hmembers := (hname.append (unstyled_printed (depth + 1) value)).append
        (unstyled_printedMembers (depth + 1) rest)
      exact .cons (by decide) ((hmembers.append (unstyled_newLine depth)).append (by decide))

theorem unstyled_printedItems (depth : Nat) :
    (items : List Value) → Unstyled (printedItems depth items)
  | [] => .nil
  | item :: rest =>
      .cons (by decide) (((unstyled_newLine depth).append (unstyled_printed depth item)).append
        (unstyled_printedItems depth rest))

theorem unstyled_printedMembers (depth : Nat) :
    (members : List (String × Value)) → Unstyled (printedMembers depth members)
  | [] => .nil
  | (name, value) :: rest => by
      have hname := ((unstyled_newLine depth).append (unstyled_printedText name)).append
        (by decide : Unstyled [':', ' '])
      exact .cons (by decide) ((hname.append (unstyled_printed depth value)).append
        (unstyled_printedMembers depth rest))

end

/-! ## YAML -/

namespace Yaml

theorem unstyled_foldLine (indent : Nat) : Unstyled (foldLine indent) :=
  .cons (by decide) (.replicate (by decide) _)

theorem unstyled_writePlain {cs : List Char} (hcs : Unstyled cs) (indent column : Nat)
    (behindSpace : Bool) : Unstyled (writePlain indent column behindSpace cs) := by
  fun_induction writePlain indent column behindSpace cs with
  | case1 => exact .nil
  | case2 _ _ _ _ _ ih => exact (unstyled_foldLine indent).append (ih hcs.tail)
  | case3 _ _ _ _ _ ih => exact .cons hcs.ne (ih hcs.tail)

theorem unstyled_writeSingle {cs : List Char} (hcs : Unstyled cs) (indent column : Nat)
    (before : Before) : Unstyled (writeSingle indent column before cs) := by
  have hopening : ∀ opens : Bool, Unstyled (if opens = true then ['\n'] else []) := by decide
  fun_induction writeSingle indent column before cs with
  | case1 => exact .nil
  | case2 _ _ _ _ _ ih => exact (unstyled_foldLine indent).append (ih hcs.tail)
  | case3 _ _ _ _ _ _ _ _ ih =>
      exact (hopening _).append (.cons hcs.ne (ih hcs.tail))
  | case4 _ _ _ _ _ _ _ _ ih =>
      exact (hopening _).append
        (.cons hcs.ne ((Unstyled.replicate (by decide) _).append (ih hcs.tail)))
  | case5 _ _ _ _ _ ih => exact .cons hcs.ne (.cons hcs.ne (ih hcs.tail))
  | case6 _ _ _ _ _ _ _ ih => exact .cons hcs.ne (ih hcs.tail)

/-- An escape is written by its letter. -/
theorem unstyled_escapeOf (c : Char) : Unstyled (escapeOf c) := by
  unfold escapeOf
  split
  · next letter hletter =>
      have hletters : ∀ pair ∈ escapeLetters, escape ≠ pair.2 := by decide
      obtain ⟨before, after, hsplit, _⟩ := List.lookup_eq_some_iff.mp hletter
      have hmem : (c, letter) ∈ escapeLetters := by
        rw [hsplit]
        exact List.mem_append_right before List.mem_cons_self
      exact .cons (by decide) (.cons (hletters _ hmem) .nil)
  · have hhex : ∀ width, Unstyled (capitalHex width c.toNat) := fun width => by
      rw [capitalHex, hexText, List.map_append, List.map_replicate]
      exact (Unstyled.replicate (by decide) _).append (unstyled_hexDigits _).2
    dsimp only
    split
    · exact .cons (by decide) (.cons (by decide) (hhex 2))
    · split
      · exact .cons (by decide) (.cons (by decide) (hhex 4))
      · exact .cons (by decide) (.cons (by decide) (hhex 8))

theorem unstyled_foldDouble (indent : Nat) (rest : List Char) :
    Unstyled (foldDouble indent rest) := by
  refine .cons (by decide) ((unstyled_foldLine indent).append ?_)
  split <;> decide

theorem unstyled_writeDouble (cs : List Char) (indent column : Nat) (before : Flow) :
    Unstyled (writeDouble indent column before cs) := by
  have hopen : ∀ c, isOpen c = true → escape ≠ c := by
    rintro _ hopen rfl
    exact absurd hopen (by decide)
  fun_induction writeDouble indent column before cs with
  | case1 => exact .nil
  | case2 _ _ _ _ _ hc _ ih => exact (unstyled_foldDouble _ _).append (.cons (hopen _ hc) ih)
  | case3 _ _ _ _ _ hc _ ih => exact .cons (hopen _ hc) ih
  | case4 _ _ _ _ _ _ _ _ _ ih =>
      exact ((unstyled_escapeOf _).append (unstyled_foldDouble _ _)).append ih
  | case5 _ _ _ _ _ _ _ _ _ ih => exact (unstyled_escapeOf _).append ih

/-- A text in a YAML file holds no escape in any of its three forms. -/
theorem unstyled_writeText (indent column : Nat) (cs : List Char) :
    Unstyled (writeText indent column cs) := by
  have hquiet : formOf cs ≠ .double → Unstyled cs := by
    intro hform hmem
    have hspecial : cs.any isSpecial = true := List.any_eq_true.mpr ⟨escape, hmem, by decide⟩
    exact hform (by simp [formOf, hspecial])
  unfold writeText
  split
  · next hform => exact .cons (by decide) (unstyled_writePlain (hquiet (by simp [hform])) _ _ _)
  · next hform =>
      exact .cons (by decide) (.cons (by decide)
        ((unstyled_writeSingle (hquiet (by simp [hform])) _ _ _).append (by decide)))
  · exact .cons (by decide) (.cons (by decide) ((unstyled_writeDouble _ _ _ _).append (by decide)))

end Yaml

/-! ## Reports -/

namespace Report

/-- A report in JSON holds no escape. -/
theorem unstyled_json (report : Report) (showError : Bool) :
    Unstyled (report.json showError).toList :=
  Unstyled.toList_ofList (unstyled_printed 0 _)

theorem unstyled_yamlKey (indent : Nat) {key : String} (hkey : Unstyled key.toList) :
    Unstyled (yamlKey indent key) :=
  ((Unstyled.replicate (by decide) _).append hkey).append (by decide)

theorem unstyled_yamlWordLine (indent : Nat) {key word : String} (hkey : Unstyled key.toList)
    (hword : Unstyled word.toList) : Unstyled (yamlWordLine indent key word) :=
  (unstyled_yamlKey indent hkey).append (.cons (by decide) (hword.append (by decide)))

theorem unstyled_yamlTextLine (indent : Nat) {key : String} (hkey : Unstyled key.toList)
    (text : String) : Unstyled (yamlTextLine indent key text) :=
  ((unstyled_yamlKey indent hkey).append (Yaml.unstyled_writeText _ _ _)).append (by decide)

theorem unstyled_yamlName (name : String) : Unstyled (yamlName name) :=
  .cons (by decide) ((Yaml.unstyled_writeText _ _ _).append (by decide))

theorem unstyled_yamlList {α : Type} {key : String} (hkey : Unstyled key.toList)
    {item : α → List Char} (hitem : ∀ a, Unstyled (item a)) (items : List α) :
    Unstyled (yamlList key item items) := by
  unfold yamlList
  split
  · exact unstyled_yamlWordLine 0 hkey (by decide)
  · exact (unstyled_yamlKey 0 hkey).append (.cons (by decide) (.flatMap hitem items))

theorem unstyled_yamlNumber (n : Option Int) : Unstyled (yamlNumber n).toList := by
  cases n with
  | none => decide
  | some n => exact unstyled_toString n

theorem unstyled_yamlDiagnostic (diagnostic : Option Diagnostic) :
    Unstyled (yamlDiagnostic diagnostic) := by
  cases diagnostic with
  | none => decide
  | some d =>
      have hhead := (unstyled_yamlKey 2 (by decide : Unstyled "diagnostic".toList)).append
        (by decide : Unstyled ['\n'])
      exact ((hhead.append (unstyled_yamlTextLine 4 (by decide) _)).append
        (unstyled_yamlWordLine 4 (by decide) (unstyled_yamlNumber _))).append
        (unstyled_yamlWordLine 4 (by decide) (unstyled_yamlNumber _))

theorem unstyled_yamlOffender (showError : Bool) (offender : Offender) :
    Unstyled (yamlOffender showError offender) := by
  have hname := (unstyled_yamlTextLine 2 (by decide : Unstyled "name".toList) offender.name).drop 1
  have htext : Unstyled offender.state.text.toList := by cases offender.state <;> decide
  have hstate := unstyled_yamlWordLine 2 (by decide : Unstyled "state".toList) htext
  unfold yamlOffender
  split
  · exact .cons (by decide) ((hname.append hstate).append (unstyled_yamlDiagnostic _))
  · exact .cons (by decide) ((hname.append hstate).append .nil)

/-- A report in YAML holds no escape. -/
theorem unstyled_yaml (report : Report) (showError : Bool) :
    Unstyled (report.yaml showError).toList := by
  have hnames : ∀ key : String, Unstyled key.toList → ∀ names,
      Unstyled (yamlList key yamlName names) := fun _ hkey names =>
    unstyled_yamlList hkey unstyled_yamlName names
  have hedition := unstyled_yamlWordLine 0 (by decide : Unstyled "es_version".toList)
    (unstyled_toString report.edition)
  have hoffenders := unstyled_yamlList (by decide : Unstyled "incompatible".toList)
    (unstyled_yamlOffender showError) report.incompatible
  have hpassed : Unstyled (yamlBool report.passed).toList := by
    cases report.passed <;> decide
  have hlists := (((hedition.append (hnames "compatible" (by decide) report.compatible)).append
    (hnames "non_source" (by decide) report.nonSource)).append hoffenders).append
    (hnames "unreadable" (by decide) report.unreadable)
  exact Unstyled.toList_ofList (hlists.append (unstyled_yamlWordLine 0 (by decide) hpassed))

end Report

/-! ## Texts with sequences -/

open Text (lengthBehindBracket? lengthBehindEscape? dropStyles)

theorem lengthBehindBracket?_append {cs : List Char} {n : Nat} (h : lengthBehindBracket? cs = some n)
    (more : List Char) : lengthBehindBracket? (cs ++ more) = some n := by
  induction cs generalizing n with
  | nil => cases h
  | cons c rest ih =>
      unfold lengthBehindBracket? at h
      rw [List.cons_append, lengthBehindBracket?]
      split at h
      · next hmark =>
          obtain ⟨m, hm, rfl⟩ := Option.map_eq_some_iff.mp h
          rw [if_pos hmark, ih hm, Option.map_some]
      · next hmark => rw [if_neg hmark, h]

theorem lengthBehindEscape?_append {cs : List Char} {n : Nat} (h : lengthBehindEscape? cs = some n)
    (more : List Char) : lengthBehindEscape? (cs ++ more) = some n := by
  unfold lengthBehindEscape? at h
  split at h
  · next rest =>
      obtain ⟨m, hm, rfl⟩ := Option.map_eq_some_iff.mp h
      rw [List.cons_append, lengthBehindEscape?, lengthBehindBracket?_append hm, Option.map_some]
  · cases h

/-- A text has a sequence that styles what is behind it. -/
def Styled (cs : List Char) : Prop :=
  ∃ before behind n, cs = before ++ escape :: behind ∧ lengthBehindEscape? behind = some n

theorem Styled.of_isInfix {cs others : List Char} (h : Styled cs) (hwithin : cs <:+: others) :
    Styled others := by
  obtain ⟨before, behind, n, rfl, hn⟩ := h
  obtain ⟨first, last, rfl⟩ := hwithin
  exact ⟨first ++ before, behind ++ last, n, by simp, lengthBehindEscape?_append hn last⟩

theorem length_dropStyles_le (skipped : Nat) (cs : List Char) :
    (dropStyles skipped cs).length ≤ cs.length := by
  fun_induction dropStyles skipped cs with
  | case1 => exact Nat.le_refl _
  | case2 | case3 => exact Nat.le_succ_of_le ‹_›
  | case4 => exact Nat.succ_le_succ ‹_›

/-- Something is dropped from a text with a sequence, wherever it is dropped from. -/
theorem length_dropStyles_lt {behind : List Char} {n : Nat} (h : lengthBehindEscape? behind = some n)
    (before : List Char) (skipped : Nat) :
    (dropStyles skipped (before ++ escape :: behind)).length <
      (before ++ escape :: behind).length := by
  induction before generalizing skipped with
  | nil =>
      cases skipped with
      | zero =>
          rw [List.nil_append, dropStyles, if_pos rfl, h]
          exact Nat.lt_succ_of_le (length_dropStyles_le n behind)
      | succ skipped => exact Nat.lt_succ_of_le (length_dropStyles_le skipped behind)
  | cons c before ih =>
      cases skipped with
      | zero =>
          rw [List.cons_append, dropStyles]
          split
          · exact Nat.lt_succ_of_lt (ih _)
          · exact Nat.succ_lt_succ (ih 0)
      | succ skipped => exact Nat.lt_succ_of_lt (ih skipped)

/-- A text with a sequence is not echoed as it is. -/
theorem Styled.withoutStyles_ne {text : String} (h : Styled text.toList) :
    Text.withoutStyles text ≠ text := by
  intro hsame
  obtain ⟨before, behind, n, htext, hn⟩ := h
  have hshorter := length_dropStyles_lt hn before 0
  rw [← htext] at hshorter
  have hlist := congrArg String.toList hsame
  rw [Text.withoutStyles, String.toList_ofList] at hlist
  rw [hlist] at hshorter
  exact Nat.lt_irrefl _ hshorter

/-! ## Markdown -/

theorem infix_append_append (before text behind : String) :
    text.toList <:+: (before ++ text ++ behind).toList := by
  rw [String.toList_append, String.toList_append]
  exact List.infix_append _ _ _

theorem infix_intercalate {line : String} {lines : List String} (h : line ∈ lines) (sep : String) :
    line.toList <:+: (sep.intercalate lines).toList := by
  rw [String.toList_intercalate]
  have hmem : line.toList ∈ lines.map String.toList := List.mem_map_of_mem h
  generalize lines.map String.toList = texts at hmem
  induction texts with
  | nil => cases hmem
  | cons text texts ih =>
      cases texts with
      | nil =>
          obtain rfl := List.mem_singleton.mp hmem
          exact ⟨[], [], by simp [List.intercalate_singleton]⟩
      | cons next texts =>
          rw [List.intercalate_cons_cons]
          obtain hfirst | hrest := List.mem_cons.mp hmem
          · rw [hfirst, List.append_assoc]
            exact (List.prefix_append _ _).isInfix
          · exact (ih hrest).trans (List.suffix_append _ _).isInfix

namespace Report

variable {name : String}

theorem infix_markdownSection {names : List String} (h : name ∈ names) (title : String) :
    name.toList <:+: (markdownSection title names).toList := by
  have hline : s!"- `{name}`" ∈ names.map fun name => s!"- `{name}`" := List.mem_map_of_mem h
  have hlines := (infix_append_append "- `" name "`").trans (infix_intercalate hline "\n")
  exact hlines.trans (infix_append_append _ _ _)

theorem exists_markdownSection? {names : List String} (h : name ∈ names) (title : String) :
    ∃ part ∈ markdownSection? title names, name.toList <:+: part.toList := by
  have hsome : names.isEmpty = false := by simpa using List.ne_nil_of_mem h
  refine ⟨_, ?_, infix_markdownSection h title⟩
  simp [markdownSection?, hsome]

theorem infix_markdownRow (offender : Offender) :
    offender.name.toList <:+: (markdownRow offender).toList := by
  have hrow : markdownRow offender = "| `" ++ offender.name ++ "` | " ++
      (problemCell offender.diagnostic ++ " | " ++ locationCell offender.diagnostic ++ " |") := by
    simp only [markdownRow, String.append_assoc]
    rfl
  rw [hrow, String.toList_append]
  exact (infix_append_append _ _ _).trans (List.prefix_append _ _).isInfix

theorem exists_markdownOffenders {offenders : List Offender} (h : name ∈ offenders.map Offender.name)
    (showError : Bool) :
    ∃ part ∈ markdownOffenders offenders showError, name.toList <:+: part.toList := by
  obtain ⟨offender, hoffender, rfl⟩ := List.mem_map.mp h
  have hsome : offenders.isEmpty = false := by simpa using List.ne_nil_of_mem hoffender
  cases showError with
  | false =>
      refine ⟨_, ?_, infix_markdownSection h "Incompatible Packages"⟩
      simp [markdownOffenders, hsome]
  | true =>
      have hrow : markdownRow offender ∈ offenders.map markdownRow := List.mem_map_of_mem hoffender
      refine ⟨_, ?_, infix_markdownRow offender⟩
      rw [markdownOffenders, if_neg (by simp [hsome]), if_pos rfl]
      exact List.mem_append_left _ (List.mem_append_right _ hrow)

/-- A name in a report stands in the Markdown document as it is. -/
theorem infix_markdown {report : Report} {state : PackageState} (h : name ∈ report.listed state)
    (showError : Bool) : name.toList <:+: (report.markdown showError).toList := by
  have hsection : ∀ {part : String}, name.toList <:+: part.toList →
      ∀ {parts : List String}, part ∈ parts → name.toList <:+: ("\n".intercalate parts).toList :=
    fun hpart _ hmem => hpart.trans (infix_intercalate hmem "\n")
  unfold markdown
  cases state with
  | compatible =>
      replace h : name ∈ report.compatible := h
      obtain ⟨part, hmem, hpart⟩ := exists_markdownSection? h "Compatible Packages"
      exact hsection hpart (by simp [hmem])
  | nonSource =>
      replace h : name ∈ report.nonSource := h
      obtain ⟨part, hmem, hpart⟩ := exists_markdownSection? h "Non-script Packages"
      exact hsection hpart (by simp [hmem])
  | incompatible =>
      obtain ⟨part, hmem, hpart⟩ := exists_markdownOffenders h showError
      exact hsection hpart (by simp [hmem])
  | unreadable =>
      replace h : name ∈ report.unreadable := h
      obtain ⟨part, hmem, hpart⟩ := exists_markdownSection? h "Unreadable Packages"
      exact hsection hpart (by simp [hmem])

/-- A report in Markdown has the sequences that the names in it have. -/
theorem styled_markdown {report : Report} {state : PackageState} (h : name ∈ report.listed state)
    (hname : Styled name.toList) (showError : Bool) : Styled (report.markdown showError).toList :=
  hname.of_isInfix (infix_markdown h showError)

end Report

end EditionSurvey
