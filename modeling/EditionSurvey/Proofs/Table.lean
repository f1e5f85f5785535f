/-
  Proofs/Table.lean --- the table of a Markdown document.

  A document with reasons has one table, with a row for each package that does not conform.  The
  cells of a row lie between its bars, and names and messages stand in them as they are, so a bar
  in one of them parts a cell in two: a row has as many cells more than the head as there are bars
  in its name and its message (`cellsOf_markdownRow`).  A message on a construct that is too new
  has no bars; one on a fault has the bars of the text that it quotes (`bars_message`).
-/
import EditionSurvey.Proofs.Listings
import EditionSurvey.Proofs.Examination

set_option autoImplicit false

namespace EditionSurvey

/-! ## Bars -/

/-- A text cut at its bars.  A backslash keeps the character behind it, be it a bar. -/
def cutAtBars : List Char → List (List Char)
  | [] => [[]]
  | '|' :: rest => [] :: cutAtBars rest
  | '\\' :: c :: rest => (cutAtBars rest).modifyHead (['\\', c] ++ ·)
  | c :: rest => (cutAtBars rest).modifyHead (c :: ·)

/-- The number of bars in a text, without those that a backslash keeps. -/
def bars (text : String) : Nat := (cutAtBars text.toList).length - 1

theorem cutAtBars_ne_nil (cs : List Char) : cutAtBars cs ≠ [] := by
  fun_induction cutAtBars cs with
  | case1 => simp
  | case2 => simp
  | case3 c rest ih => simpa using ih
  | case4 c rest _ _ ih => simpa using ih

theorem length_cutAtBars (text : String) : (cutAtBars text.toList).length = bars text + 1 := by
  have hpos := List.length_pos_iff.mpr (cutAtBars_ne_nil text.toList)
  unfold bars
  omega

theorem modifyHead_append {α : Type} {xs : List α} (hne : xs ≠ []) (f : α → α) (ys : List α) :
    (xs ++ ys).modifyHead f = xs.modifyHead f ++ ys := by
  cases xs with
  | nil => exact absurd rfl hne
  | cons x xs => rfl

theorem cutAtBars_cons {c : Char} (hc : c ≠ '|' ∧ c ≠ '\\') (rest : List Char) :
    cutAtBars (c :: rest) = (cutAtBars rest).modifyHead (c :: ·) := by
  rw [cutAtBars]
  · exact hc.1
  · exact fun _ _ h _ => hc.2 h

/-- At a bar that no backslash keeps, a text is cut. -/
theorem cutAtBars_append {cs : List Char} (hlast : '\\' ∉ cs.getLast?) (others : List Char) :
    cutAtBars (cs ++ '|' :: others) = cutAtBars cs ++ cutAtBars others := by
  have hrest : ∀ start {rest : List Char}, '\\' ∉ (start ++ rest).getLast? → '\\' ∉ rest.getLast? :=
    fun _ _ hlast h => hlast (List.mem_getLast?_append_of_mem_getLast? h)
  fun_induction cutAtBars cs with
  | case1 => rfl
  | case2 rest ih =>
      rw [List.cons_append, cutAtBars, ih (hrest ['|'] hlast), List.cons_append]
  | case3 c rest ih =>
      rw [List.cons_append, List.cons_append, cutAtBars, ih (hrest ['\\', c] hlast),
        modifyHead_append (cutAtBars_ne_nil rest)]
  | case4 c rest hbar hkeeps ih =>
      have hc : c ≠ '\\' := by
        rintro rfl
        cases rest with
        | nil => exact hlast rfl
        | cons d rest => exact hkeeps d rest rfl rfl
      rw [List.cons_append, cutAtBars_cons ⟨hbar, hc⟩, ih (hrest [c] hlast),
        modifyHead_append (cutAtBars_ne_nil rest)]

/-- The pieces of a text are the text, with the bars between them. -/
theorem intercalate_cutAtBars (cs : List Char) : ['|'].intercalate (cutAtBars cs) = cs := by
  have hpush : ∀ (start : List Char) {pieces : List (List Char)}, pieces ≠ [] →
      ['|'].intercalate (pieces.modifyHead (start ++ ·)) = start ++ ['|'].intercalate pieces := by
    intro start pieces hne
    cases pieces with
    | nil => exact absurd rfl hne
    | cons piece rest => cases rest <;> simp [List.intercalate, List.append_assoc]
  fun_induction cutAtBars cs with
  | case1 => rfl
  | case2 rest ih =>
      cases hcut : cutAtBars rest with
      | nil => exact absurd hcut (cutAtBars_ne_nil rest)
      | cons piece pieces =>
          rw [hcut] at ih
          simpa [List.intercalate] using ih
  | case3 c rest ih => rw [hpush ['\\', c] (cutAtBars_ne_nil rest), ih]; rfl
  | case4 c rest _ _ ih =>
      have hstep := hpush [c] (cutAtBars_ne_nil rest)
      rw [ih] at hstep
      exact hstep

theorem cutAtBars_eq_singleton {text : String} (h : bars text = 0) :
    cutAtBars text.toList = [text.toList] := by
  have hlength := length_cutAtBars text
  rw [h] at hlength
  obtain ⟨piece, hpiece⟩ := List.length_eq_one_iff.mp hlength
  have htext := intercalate_cutAtBars text.toList
  rw [hpiece] at htext
  simp [List.intercalate] at htext
  rw [hpiece, htext]

/-- Neither bars nor backslashes are among the characters. -/
def NoBars (cs : List Char) : Prop := ∀ c ∈ cs, c ≠ '|' ∧ c ≠ '\\'

instance (cs : List Char) : Decidable (NoBars cs) :=
  List.decidableBAll (fun c => c ≠ '|' ∧ c ≠ '\\') cs

/-- A text with neither bars nor backslashes. -/
def Barless (text : String) : Prop := NoBars text.toList

instance (text : String) : Decidable (Barless text) := inferInstanceAs (Decidable (NoBars _))

theorem barless_ofList {cs : List Char} (h : NoBars cs) : Barless (String.ofList cs) := by
  unfold Barless
  rwa [String.toList_ofList]

theorem Barless.append {s t : String} (hs : Barless s) (ht : Barless t) : Barless (s ++ t) := by
  unfold Barless NoBars
  rw [String.toList_append]
  exact List.forall_mem_append.mpr ⟨hs, ht⟩

theorem barless_toString (n : Int) : Barless (toString n) := by
  rintro c hc
  refine ⟨?_, ?_⟩ <;> rintro rfl
  · exact not_mem_toString (by decide) n hc
  · exact not_mem_toString (by decide) n hc

theorem cutAtBars_barless {cs : List Char} (h : NoBars cs) (others : List Char) :
    cutAtBars (cs ++ others) = (cutAtBars others).modifyHead (cs ++ ·) := by
  induction cs with
  | nil => cases hcut : cutAtBars others <;> simp [hcut]
  | cons c cs ih =>
      obtain ⟨hc, hcs⟩ := List.forall_mem_cons.mp h
      rw [List.cons_append, cutAtBars_cons hc, ih hcs, List.modifyHead_modifyHead]
      rfl

theorem length_cutAtBars_append (cs : List Char) {others : List Char} (h : NoBars others) :
    (cutAtBars (cs ++ others)).length = (cutAtBars cs).length := by
  have hothers : ∀ {ds : List Char}, NoBars ds → (cutAtBars ds).length = 1 := by
    intro ds hds
    have hcut := cutAtBars_barless hds []
    rw [List.append_nil] at hcut
    rw [hcut, List.length_modifyHead]
    rfl
  fun_induction cutAtBars cs with
  | case1 => exact hothers h
  | case2 rest ih => simp [cutAtBars, ih]
  | case3 c rest ih => simp [cutAtBars, ih]
  | case4 c rest hbar hkeeps ih =>
      by_cases hc : c = '\\'
      · -- a backslash at the end of the text keeps what follows the text
        subst hc
        cases rest with
        | cons d rest => exact absurd rfl (hkeeps d rest rfl)
        | nil =>
            cases others with
            | nil => rfl
            | cons d others =>
                have hrest := hothers (List.forall_mem_cons.mp h).2
                simpa [cutAtBars] using hrest
      · rw [List.cons_append, cutAtBars_cons ⟨hbar, hc⟩, List.length_modifyHead, ih,
          List.length_modifyHead]

/-- A text has its bars, whatever stands around it without bars. -/
theorem bars_between {s t : String} (hs : Barless s) (ht : Barless t)
    (text : String) : bars (s ++ text ++ t) = bars text := by
  rw [bars, String.toList_append, length_cutAtBars_append _ ht, String.toList_append,
    cutAtBars_barless hs, List.length_modifyHead, bars]

theorem bars_behind {s : String} (hs : Barless s) (text : String) : bars (s ++ text) = bars text := by
  have hbars := bars_between hs (t := "") (by decide) text
  rwa [String.append_empty] at hbars

theorem Barless.bars_eq {text : String} (h : Barless text) : bars text = 0 := by
  have hbars := bars_behind h ""
  rwa [String.append_empty] at hbars

/-! ## Messages -/

namespace Script

/-- The text that a fault quotes. -/
def Fault.quoted : Fault → String
  | .unexpectedToken text => text
  | .unexpectedQuasi raw => raw
  | .missingInitializer kind => kind
  | .duplicateBinding name => name
  | .loopInitializer loop => loop
  | .labelRedeclared name => name
  | .unknownLabel name => name
  | _ => ""

/-- The wording of a fault has no bars of its own. -/
theorem Fault.bars_message (fault : Fault) : bars fault.message = bars fault.quoted := by
  cases fault with
  | unexpectedToken text => exact bars_behind (by decide) text
  | unexpectedQuasi raw => exact bars_behind (by decide) raw
  | missingInitializer kind => exact bars_between (by decide) (by decide) kind
  | duplicateBinding name => exact bars_behind (by decide) name
  | loopInitializer loop => exact bars_between (s := "") (by decide) (by decide) loop
  | labelRedeclared name => exact bars_between (by decide) (by decide) name
  | unknownLabel name => exact bars_between (by decide) (by decide) name
  | _ => exact Barless.bars_eq (barless_ofList (by decide))

theorem SyntaxError.bars_message (error : SyntaxError) :
    bars error.message = bars error.fault.quoted := by
  have htext : error.message = "Line " ++ (toString error.line ++ ": ") ++ error.fault.message := by
    simp [SyntaxError.message, ToString.toString, String.append_assoc]
  have hstart : Barless ("Line " ++ (toString error.line ++ ": ")) :=
    .append (by decide) (.append (barless_toString _) (by decide))
  rw [htext, bars_behind hstart, error.fault.bars_message]

theorem kind_of_mem_features {source : Array Char} {node : Node} {kind : String}
    (h : .blockDeclaration kind ∈ features source node) : kind = "let" ∨ kind = "const" := by
  unfold features at h
  cases hform : node.form with
  | «variables» written =>
      simp only [hform, given, List.mem_map, List.mem_filter, List.mem_singleton] at h
      obtain ⟨_, ⟨rfl, hwritten⟩, hfeature⟩ := h
      obtain rfl := Feature.blockDeclaration.inj hfeature
      simpa using hwritten
  | pattern flags =>
      simp only [hform] at h
      split_ifs at h <;> simp at h
  | classLike declared => cases declared <;> simp [hform] at h
  | _ => simp [hform, given] at h

theorem flag_of_mem_features {source : Array Char} {node : Node} {flag : Char}
    (h : .patternFlag flag ∈ features source node) : flag = 'u' ∨ flag = 'y' := by
  unfold features at h
  cases hform : node.form with
  | pattern flags =>
      simp only [hform] at h
      split_ifs at h
      · exact .inl (Feature.patternFlag.inj (List.mem_singleton.mp h))
      · exact .inr (Feature.patternFlag.inj (List.mem_singleton.mp h))
      · exact absurd h List.not_mem_nil
  | classLike declared => cases declared <;> simp [hform] at h
  | _ => simp [hform, given] at h

/-- The name of a construct that a node depends on has no bars. -/
theorem barless_description {source : Array Char} {node : Node} {feature : Feature}
    (h : feature ∈ features source node) : Barless feature.description := by
  cases feature with
  | blockDeclaration kind => obtain rfl | rfl := kind_of_mem_features h <;> decide
  | patternFlag flag => obtain rfl | rfl := flag_of_mem_features h <;> decide
  | _ => exact barless_ofList (by decide)

/-- The bars of a message are those of the text that it quotes, and only a fault quotes a text. -/
theorem bars_message {script : String} {edition : Int} {diagnostic : Diagnostic}
    (h : validate script edition = .error (.incompatible diagnostic)) :
    bars diagnostic.message = match parse (commentInterpreterLine script.toList) with
      | .error (.syntaxError error) => bars error.fault.quoted
      | _ => 0 := by
  obtain ⟨error, hparse, rfl⟩ | ⟨tree, node, feature, hparse, -, hfeature, -, rfl⟩ :=
    incompatible_cases h
  · rw [hparse]
    exact error.bars_message
  · rw [hparse]
    have hmessage : (node.objection feature).message =
        feature.description ++ (" requires " ++ label feature.edition) := by
      simp [Node.objection, ToString.toString, String.append_assoc]
    have hlabel : Barless (" requires " ++ label feature.edition) :=
      .append (by decide) (.append (s := "ES") (by decide) (barless_toString _))
    rw [hmessage]
    exact ((barless_description hfeature).append hlabel).bars_eq

end Script

/-! ## Rows -/

namespace Report

/-- The head of the table. -/
def tableHead : String := "| Package | Problem | Location |"

/-- The lines of the table. -/
def tableOf (offenders : List Offender) : List String :=
  if offenders.isEmpty then [] else [tableHead, "|---|---|---|"] ++ offenders.map markdownRow

/-- The lines of a document that begin with a bar. -/
def tableLines (text : String) : List String :=
  (linesOf text).filter fun line => (behind? "|" line).isSome

theorem mem_linesOf_of_mem_tableLines {line text : String} (h : line ∈ tableLines text) :
    line ∈ linesOf text := List.mem_of_mem_filter h

/-- The cells of a row: what lies between its bars. -/
def cellsOf (row : String) : List (List Char) := (cutAtBars row.toList).tail.dropLast

/-- The text of a cell, as it stands in a row. -/
def cell (text : String) : List Char := ' ' :: text.toList ++ [' ']

/-- A place is written with digits, signs and a colon. -/
theorem not_mem_locationCell {c : Char} (hc : (c.isDigit = false ∧ c ≠ '-') ∧ c ≠ ':')
    (diagnostic : Option Diagnostic) : c ∉ (locationCell diagnostic).toList := by
  have hnone : c ∉ "-".toList := by simpa using hc.1.2
  unfold locationCell
  split
  · exact hnone
  · split
    · exact hnone
    · exact not_mem_toString hc.1 _
    · next line column _ _ =>
        have htext : s!"{line}:{column}" = toString line ++ ":" ++ toString column := by
          simp [ToString.toString]
        rw [htext, String.toList_append, String.toList_append]
        simpa [hc.2] using ⟨not_mem_toString hc.1 line, not_mem_toString hc.1 column⟩

theorem barless_locationCell (diagnostic : Option Diagnostic) :
    Barless (locationCell diagnostic) := by
  intro c hc
  constructor <;> rintro rfl <;> exact not_mem_locationCell (by decide) diagnostic hc

theorem cellsOf_bars {first second third : String} :
    cellsOf ("| " ++ first ++ " | " ++ second ++ " | " ++ third ++ " |") =
      cutAtBars (cell first) ++ cutAtBars (cell second) ++ cutAtBars (cell third) := by
  have hcell : ∀ text : String, '\\' ∉ (cell text).getLast? := fun text => by
    rw [cell, List.getLast?_concat]
    simp
  have hrow : ("| " ++ first ++ " | " ++ second ++ " | " ++ third ++ " |").toList =
      [] ++ '|' :: (cell first ++ '|' :: (cell second ++ '|' :: (cell third ++ '|' :: []))) := by
    simp [cell, String.toList_append]
  rw [cellsOf, hrow, cutAtBars_append (by simp), cutAtBars_append (hcell _),
    cutAtBars_append (hcell _), cutAtBars_append (hcell _)]
  simp [cutAtBars]

/-- A row has the cells that its name and its message are cut into, and the place. -/
theorem cellsOf_markdownRow (offender : Offender) :
    cellsOf (markdownRow offender) =
      cutAtBars (cell ("\x60" ++ offender.name ++ "\x60")) ++
        cutAtBars (cell (problemCell offender.diagnostic)) ++
          [cell (locationCell offender.diagnostic)] := by
  have hrow : markdownRow offender = "| " ++ ("\x60" ++ offender.name ++ "\x60") ++ " | " ++
      problemCell offender.diagnostic ++ " | " ++ locationCell offender.diagnostic ++ " |" := by
    apply String.toList_inj.mp
    simp [markdownRow, ToString.toString, String.toList_append]
  have hplace : cutAtBars (cell (locationCell offender.diagnostic)) =
      [cell (locationCell offender.diagnostic)] := by
    have hplain := barless_locationCell offender.diagnostic
    have hspace : NoBars [' '] := by decide
    have hcell : NoBars (cell (locationCell offender.diagnostic)) :=
      List.forall_mem_append.mpr ⟨List.forall_mem_cons.mpr ⟨by decide, hplain⟩, hspace⟩
    simpa [cutAtBars] using cutAtBars_barless hcell []
  rw [hrow, cellsOf_bars, hplace]

theorem length_cutAtBars_cell (text : String) : (cutAtBars (cell text)).length = bars text + 1 := by
  have hcell : cell text = (" " ++ text ++ " ").toList := by simp [cell, String.toList_append]
  rw [hcell, length_cutAtBars, bars_between (by decide) (by decide)]

/-- Each bar in the name or the message of a package makes its row longer by one cell. -/
theorem length_cellsOf_markdownRow (offender : Offender) :
    (cellsOf (markdownRow offender)).length =
      (cellsOf tableHead).length + bars offender.name + bars (problemCell offender.diagnostic) := by
  have hhead : (cellsOf tableHead).length = 3 := by decide
  have hname : bars ("\x60" ++ offender.name ++ "\x60") = bars offender.name :=
    bars_between (by decide) (by decide) _
  rw [cellsOf_markdownRow, List.length_append, List.length_append, length_cutAtBars_cell,
    length_cutAtBars_cell, List.length_singleton, hname, hhead]
  omega

/-! ## Documents -/

variable {report : Report}

theorem isLine_markdownRow {offender : Offender} (hname : IsLine offender.name)
    (hmessage : IsLine (problemCell offender.diagnostic)) : IsLine (markdownRow offender) := by
  have hplace : IsLine (locationCell offender.diagnostic) := not_mem_locationCell (by decide) _
  exact .append (.append (.append (.append (.append (.append (by decide) hname) (by decide))
    hmessage) (by decide)) hplace) (by decide)

/-- The lines of the section on packages that do not conform. -/
def offenderLines (offenders : List Offender) : List String :=
  if offenders.isEmpty then ["No incompatible packages.", ""]
  else ["## Incompatible Packages", ""] ++ tableOf offenders ++ [""]

theorem AreLines.of_isLine {lines : List String} (h : ∀ line ∈ lines, IsLine line) :
    AreLines lines lines := by
  induction lines with
  | nil => exact .nil
  | cons line rest ih =>
      obtain ⟨hline, hrest⟩ := List.forall_mem_cons.mp h
      have hsingle : AreLines ["\n".intercalate [line]] [line] :=
        .single (by simp) (by simpa using hline)
      rw [String.intercalate_singleton] at hsingle
      exact hsingle.append (ih hrest)

theorem isLine_tableOf {offenders : List Offender}
    (hrows : ∀ offender ∈ offenders, IsLine (markdownRow offender)) :
    ∀ line ∈ tableOf offenders, IsLine line := by
  unfold tableOf
  split
  · simp
  · simp only [List.forall_mem_append, List.forall_mem_cons, List.forall_mem_map]
    exact ⟨⟨by decide, by decide, by simp⟩, hrows⟩

theorem areLines_markdownOffenders {offenders : List Offender}
    (hrows : ∀ offender ∈ offenders, IsLine (markdownRow offender)) :
    AreLines (markdownOffenders offenders true) (offenderLines offenders) := by
  have htable := AreLines.of_isLine (isLine_tableOf hrows)
  unfold markdownOffenders offenderLines
  split
  · exact areLines_noOffenders
  · next hsome =>
      have htitle : AreLines ["## Incompatible Packages\n"] ["## Incompatible Packages", ""] := by
        have htext : "## Incompatible Packages\n" =
            "\n".intercalate ["## Incompatible Packages", ""] := rfl
        rw [htext]
        exact .single (by simp) (by simp only [List.forall_mem_cons]; decide)
      have hend : AreLines [""] [""] := .of_isLine (by decide)
      have hchunks : ["## Incompatible Packages\n", "| Package | Problem | Location |",
          "|---|---|---|"] ++ offenders.map markdownRow = ["## Incompatible Packages\n"] ++
            tableOf offenders := by
        rw [tableOf, if_neg hsome]
        rfl
      rw [if_pos rfl, hchunks]
      exact (htitle.append htable).append hend

/-- Lines that begin with anything but a bar. -/
def NoTableLines (lines : List String) : Prop := ∀ line ∈ lines, behind? "|" line = none

theorem NoTableLines.filter_eq_nil {lines : List String} (h : NoTableLines lines) :
    (lines.filter fun line => (behind? "|" line).isSome) = [] :=
  List.filter_eq_nil_iff.mpr fun line hline => by simp [h line hline]

theorem noTableLines_title (edition : Int) : NoTableLines (titleLines edition) := by
  unfold NoTableLines titleLines
  simp only [List.forall_mem_cons]
  exact ⟨behind?_eq_none (by decide) _, by decide, by simp⟩

theorem noTableLines_summary (report : Report) : NoTableLines report.summaryLines := by
  unfold NoTableLines summaryLines
  simp only [List.forall_mem_append, List.forall_mem_cons]
  exact ⟨⟨behind?_eq_none (by decide) _, behind?_eq_none (by decide) _,
    behind?_eq_none (by decide) _, behind?_eq_none (by decide) _, behind?_eq_none (by decide) _,
    by simp⟩, by decide, by simp⟩

theorem noTableLines_section? (title : String) (names : List String) :
    NoTableLines (sectionLines? title names) := by
  unfold sectionLines?
  split
  · exact fun line hline => absurd hline List.not_mem_nil
  · have hitem : ∀ name, behind? "|" (itemLine name) = none := fun name => by
      have hline : itemLine name = "- \x60" ++ (name ++ "\x60") := String.append_assoc
      rw [hline]
      exact behind?_eq_none (by decide) _
    unfold NoTableLines sectionLines
    simp only [List.forall_mem_append, List.forall_mem_cons, List.forall_mem_map]
    exact ⟨⟨⟨behind?_eq_none (by decide) _, by decide, by simp⟩, fun name _ => hitem name⟩,
      by decide, by simp⟩

theorem filter_offenderLines (offenders : List Offender) :
    ((offenderLines offenders).filter fun line => (behind? "|" line).isSome) =
      tableOf offenders := by
  have hrow : ∀ offender, (behind? "|" (markdownRow offender)).isSome = true := fun offender => by
    simp [behind?, markdownRow, ToString.toString, String.toList_append, List.isPrefixOf?]
  have hrows : ∀ line ∈ offenders.map markdownRow, (behind? "|" line).isSome = true := by
    simpa using fun offender _ => hrow offender
  have htitle : ["## Incompatible Packages", ""].filter (fun line => (behind? "|" line).isSome) = [] := by
    decide
  have hhead : [tableHead, "|---|---|---|"].filter (fun line => (behind? "|" line).isSome) =
      [tableHead, "|---|---|---|"] := by decide
  have hend : [""].filter (fun line => (behind? "|" line).isSome) = [] := by decide
  unfold offenderLines tableOf
  split
  · decide
  · rw [List.filter_append, List.filter_append, List.filter_append, htitle, hhead, hend,
      List.filter_eq_self.mpr hrows, List.nil_append, List.append_nil]

/-- The only table of a document is the one on packages that do not conform. -/
theorem tableLines_markdown (hnames : report.NamesAreLines)
    (hmessages : ∀ offender ∈ report.incompatible, IsLine (problemCell offender.diagnostic)) :
    tableLines (report.markdown true) = tableOf report.incompatible := by
  have hrows : ∀ offender ∈ report.incompatible, IsLine (markdownRow offender) :=
    fun offender hoffender => isLine_markdownRow
      (hnames.listed .incompatible _ (List.mem_map_of_mem hoffender)) (hmessages offender hoffender)
  have hhead := (areLines_title report.edition).append (areLines_summary report)
  have hbody := ((hhead.append
    (areLines_markdownSection? "Compatible Packages" (by decide) (hnames.listed .compatible))).append
    (areLines_markdownSection? "Non-script Packages" (by decide) (hnames.listed .nonSource))).append
    (areLines_markdownOffenders hrows)
  have hall := hbody.append
    (areLines_markdownSection? "Unreadable Packages" (by decide) (hnames.listed .unreadable))
  have hlines : linesOf (report.markdown true) = _ := hall.linesOf_eq (by simp)
  rw [tableLines, hlines]
  simp only [List.filter_append, (noTableLines_title _).filter_eq_nil,
    (noTableLines_summary _).filter_eq_nil, (noTableLines_section? _ _).filter_eq_nil,
    filter_offenderLines, List.nil_append, List.append_nil]

/-- A row has the three cells of the head exactly if neither the name nor the message has bars. -/
theorem cellsOf_markdownRow_eq_iff (offender : Offender) :
    cellsOf (markdownRow offender) = [cell ("\x60" ++ offender.name ++ "\x60"),
        cell (problemCell offender.diagnostic), cell (locationCell offender.diagnostic)] ↔
      bars offender.name = 0 ∧ bars (problemCell offender.diagnostic) = 0 := by
  have hlength := length_cellsOf_markdownRow offender
  have hhead : (cellsOf tableHead).length = 3 := by decide
  constructor
  · intro hcells
    rw [hcells, hhead, List.length_cons, List.length_cons, List.length_singleton] at hlength
    omega
  · rintro ⟨hname, hproblem⟩
    have hcut : ∀ {text : String}, bars text = 0 → cutAtBars (cell text) = [cell text] := by
      intro text hbars
      have hcell : cell text = (" " ++ text ++ " ").toList := by simp [cell, String.toList_append]
      rw [hcell]
      exact cutAtBars_eq_singleton ((bars_between (by decide) (by decide) text).trans hbars)
    rw [cellsOf_markdownRow, hcut hproblem,
      hcut ((bars_between (by decide) (by decide) offender.name).trans hname)]
    rfl

/-- If names and messages are lines, the table of a document has one row for each package that does
not conform, in order, and no other lines.  Names and messages are not escaped: the row has the
three cells of the head exactly if there are no bars in them, and otherwise it is cut further at each
one.  A message that a script is refused with has the bars of the token or the name that it quotes. -/
theorem markdown_table (hnames : report.NamesAreLines)
    (hmessages : ∀ offender ∈ report.incompatible, ∀ diagnostic ∈ offender.diagnostic,
      IsLine diagnostic.message) :
    tableLines (report.markdown true) = tableOf report.incompatible ∧
      ∀ offender ∈ report.incompatible,
        let problem := problemCell offender.diagnostic
        cellsOf (markdownRow offender) =
            cutAtBars (cell ("\x60" ++ offender.name ++ "\x60")) ++ cutAtBars (cell problem) ++
              [cell (locationCell offender.diagnostic)] ∧
          (cellsOf (markdownRow offender) = [cell ("\x60" ++ offender.name ++ "\x60"), cell problem,
              cell (locationCell offender.diagnostic)] ↔ bars offender.name = 0 ∧ bars problem = 0) ∧
          ∀ script edition diagnostic, offender.diagnostic = some diagnostic →
            Script.validate script edition = .error (.incompatible diagnostic) →
              bars problem =
                match Script.parse (Script.commentInterpreterLine script.toList) with
                | .error (.syntaxError error) => bars error.fault.quoted
                | _ => 0 := by
  have hproblems : ∀ offender ∈ report.incompatible, IsLine (problemCell offender.diagnostic) := by
    intro offender hoffender
    cases hdiagnostic : offender.diagnostic with
    | none => exact (by decide : IsLine "-")
    | some diagnostic => exact hmessages offender hoffender diagnostic hdiagnostic
  refine ⟨tableLines_markdown hnames hproblems, fun offender _ => ⟨cellsOf_markdownRow offender,
    cellsOf_markdownRow_eq_iff offender, fun script edition diagnostic hdiagnostic hrefused => ?_⟩⟩
  rw [hdiagnostic]
  exact Script.bars_message hrefused

/-- A package with the reason that a script with two bars is refused for, and one with a name that
has a bar. -/
def barredReport : Report where
  edition := 5
  compatible := []
  nonSource := []
  incompatible := [⟨"a", .incompatible, some ⟨"Line 1: Unexpected token ||", some 1, some 1⟩⟩,
    ⟨"b|c", .incompatible, none⟩, ⟨"d\\|e", .incompatible, none⟩]
  unreadable := []

/-- There is a row for each package. -/
theorem barredReport_table :
    barredReport.NamesAreLines ∧
      (∀ offender ∈ barredReport.incompatible, ∀ diagnostic ∈ offender.diagnostic,
        IsLine diagnostic.message) ∧
      tableLines (barredReport.markdown true) = tableOf barredReport.incompatible := by
  have hnames : barredReport.NamesAreLines := by decide
  have hmessages : ∀ offender ∈ barredReport.incompatible, ∀ diagnostic ∈ offender.diagnostic,
      IsLine diagnostic.message := by decide
  exact ⟨hnames, hmessages, (markdown_table hnames hmessages).1⟩

/-- A script with two bars is refused with a message that quotes them, so its row has two cells more
than the head. -/
theorem barredReport_row :
    let reason : Diagnostic := ⟨"Line 1: Unexpected token ||", some 1, some 1⟩
    let offender : Offender := ⟨"a", .incompatible, some reason⟩
    Script.validate "||" 5 = .error (.incompatible reason) ∧ barredReport.NamesAreLines ∧
      offender ∈ barredReport.incompatible ∧ IsLine reason.message ∧
      markdownRow offender ∈ linesOf (barredReport.markdown true) ∧
      (cellsOf tableHead).length = 3 ∧ (cellsOf (markdownRow offender)).length = 5 := by
  intro reason offender
  have hnames : barredReport.NamesAreLines := by decide
  have hproblems : ∀ offender ∈ barredReport.incompatible, IsLine (problemCell offender.diagnostic) := by
    decide
  have hmem : offender ∈ barredReport.incompatible := List.mem_cons_self
  have hrow : markdownRow offender ∈ tableLines (barredReport.markdown true) := by
    rw [tableLines_markdown hnames hproblems]
    exact List.mem_cons_of_mem _ (List.mem_cons_of_mem _ (List.mem_map_of_mem hmem))
  have hrefused : Script.validate "||" 5 = .error (.incompatible reason) := by decide +kernel
  have hcells : (cellsOf (markdownRow offender)).length = 5 := by decide +kernel
  exact ⟨hrefused, hnames, hmem, by decide, mem_linesOf_of_mem_tableLines hrow, by decide, hcells⟩

end Report

end EditionSurvey
