/-
  Proofs/Folding.lean --- texts in YAML are read back.

  A text is written in one of three forms, and long lines are folded at places that depend on how
  far they have got.  A reader does not know these places: it goes through what is written part by
  part (`readParts`), and a fold is a part like any other.  For each form there is a function that
  tells the part at hand, what it stands for and how many characters it takes.  In a text as it is,
  a fold stands for a blank.  In single quotes it does so too, and a quote is written twice; of
  several line breaks the first one is left out if it is a line feed.  In double quotes there are
  escapes, and a fold stands for nothing.

  What is written in a form is read back in that form (`readPlain_writePlain`,
  `readSingle_writeSingle`, `readDouble_writeDouble`), and the form is known from the first mark
  (`readText_writeText`).
-/
import EditionSurvey.Proofs.Encoding
import EditionSurvey.Value.Reader
import EditionSurvey.Yaml.Scalar
import Mathlib.Data.List.TakeDrop

set_option autoImplicit false

namespace EditionSurvey.Yaml

/-! ## Reading part by part -/

/-- A part of what is written. -/
structure Part (σ : Type) where
  /-- the characters that it stands for -/
  text : List Char
  /-- the number of characters that it is written with -/
  size : Nat
  /-- what the reader keeps in mind behind it -/
  next : σ

/-- Read a text part by part up to its end, and what is left behind the character at its end. -/
def readParts {σ : Type} (part? : σ → List Char → Option (Part σ)) :
    (skip : Nat) → σ → List Char → List Char × List Char
  | _, _, [] => ([], [])
  | skip + 1, s, _ :: rest => readParts part? skip s rest
  | 0, s, c :: rest =>
      match part? s (c :: rest) with
      | none => ([], rest)
      | some part =>
          let read := readParts part? (part.size - 1) part.next rest
          (part.text ++ read.1, read.2)

section

variable {σ : Type} {part? : σ → List Char → Option (Part σ)} {s : σ} {more : List Char}

theorem readParts_skip (skipped more : List Char) :
    readParts part? skipped.length s (skipped ++ more) = readParts part? 0 s more := by
  induction skipped with
  | nil => rfl
  | cons c skipped ih => exact ih

/-- A part is read, and then what follows it. -/
theorem readParts_part (written text : List Char) (next : σ) (hne : written ≠ [])
    (hpart : part? s (written ++ more) = some ⟨text, written.length, next⟩)
    {others left : List Char} (hmore : readParts part? 0 next more = (others, left)) :
    readParts part? 0 s (written ++ more) = (text ++ others, left) := by
  obtain ⟨c, rest, rfl⟩ := List.exists_cons_of_ne_nil hne
  rw [List.cons_append] at hpart ⊢
  rw [readParts, hpart]
  simp only [List.length_cons, Nat.add_sub_cancel, readParts_skip, hmore]

theorem readParts_end {c : Char} (h : part? s (c :: more) = none) :
    readParts part? 0 s (c :: more) = ([], more) := by
  rw [readParts, h]

end

/-! ## Texts as they are -/

/-- The part at hand of a text that is written as it is.  It ends with a line if the next one is not
indented. -/
def plainPart? (indent : Nat) : Unit → List Char → Option (Part Unit)
  | _, [] => none
  | _, c :: rest =>
      if c = '\n' then
        if (List.replicate indent ' ').isPrefixOf rest then some ⟨[' '], indent + 1, ()⟩ else none
      else some ⟨[c], 1, ()⟩

/-- Read a text that is written as it is. -/
def readPlain (indent : Nat) (cs : List Char) : List Char × List Char :=
  readParts (plainPart? indent) 0 () cs

/-- What follows is not indented so far. -/
def Outdented (indent : Nat) (more : List Char) : Prop := ¬ List.replicate indent ' ' <+: more

theorem outdented_cons {c : Char} (hc : c ≠ ' ') (indent : Nat) (rest : List Char) :
    Outdented (indent + 1) (c :: rest) := fun hprefix =>
  hc (List.cons_prefix_cons.mp hprefix).1.symm

/-- A text that is written as it is is read back, if it has no line feed. -/
theorem readPlain_writePlain {indent : Nat} {cs more : List Char} (hline : '\n' ∉ cs)
    (hmore : Outdented indent more) (column : Nat) (behindSpace : Bool) :
    readPlain indent (writePlain indent column behindSpace cs ++ '\n' :: more) = (cs, more) := by
  fun_induction writePlain indent column behindSpace cs with
  | case1 =>
      apply readParts_end
      have hprefix : (List.replicate indent ' ').isPrefixOf more = false :=
        Bool.eq_false_iff.mpr fun h => hmore (List.isPrefixOf_iff_prefix.mp h)
      simp [plainPart?, hprefix]
  | case2 column behindSpace c rest hfold ih =>
      obtain rfl : c = ' ' := by
        simp only [Bool.and_eq_true, decide_eq_true_eq] at hfold
        exact hfold.1.1.1
      rw [List.append_assoc]
      refine readParts_part (foldLine indent) [' '] () (by simp [foldLine]) ?_
        (ih (List.not_mem_of_not_mem_cons hline))
      have hprefix : (List.replicate indent ' ').isPrefixOf (List.replicate indent ' ' ++
          (writePlain indent indent true rest ++ '\n' :: more)) = true :=
        List.isPrefixOf_iff_prefix.mpr (List.prefix_append _ _)
      simp [plainPart?, foldLine, hprefix]
  | case3 column behindSpace c rest _ ih =>
      have hc : c ≠ '\n' := (List.ne_of_not_mem_cons hline).symm
      refine readParts_part [c] [c] () (by simp) ?_ (ih (List.not_mem_of_not_mem_cons hline))
      simp [plainPart?, hc]

/-! ## Texts in single quotes -/

/-- The part at hand of a text in single quotes.  The first of several line breaks is left out if it
is a line feed, and a line feed alone is a fold; behind the last line break there is indentation. -/
def singlePart? (indent : Nat) : (behindBreak : Bool) → List Char → Option (Part Bool)
  | _, [] => none
  | true, c :: _ => if isBreak c then some ⟨[c], 1, true⟩ else some ⟨[], indent, false⟩
  | false, c :: rest =>
      if c = '\'' then if rest.head? = some '\'' then some ⟨['\''], 2, false⟩ else none
      else if c = '\n' then
        if rest.head?.any isBreak then some ⟨[], 1, true⟩ else some ⟨[' '], indent + 1, false⟩
      else some ⟨[c], 1, isBreak c⟩

@[simp] theorem isBreak_blank : isBreak ' ' = false := rfl

@[simp] theorem isBreak_feed : isBreak '\n' = true := rfl

@[simp] theorem isBreak_quote : isBreak '\'' = false := rfl

/-- Read a text in single quotes from behind its opening quote. -/
def readSingle (indent : Nat) (behindBreak : Bool) (cs : List Char) : List Char × List Char :=
  readParts (singlePart? indent) 0 behindBreak cs

/-- The characters at hand go on with line breaks. -/
def goesOn (before : Before) (cs : List Char) : Bool :=
  decide (before = .lineBreak) && cs.head?.any isBreak

section

variable {indent : Nat} {before : Before} {c : Char} {rest written more : List Char}

/-- Behind the last line break there is indentation. -/
theorem readSingle_indentation (hindent : 0 < indent) (written : List Char) :
    readSingle indent true (List.replicate indent ' ' ++ written) =
      readSingle indent false written := by
  obtain ⟨n, rfl⟩ : ∃ n, indent = n + 1 := ⟨indent - 1, by omega⟩
  refine readParts_part (List.replicate (n + 1) ' ') [] false (by simp) ?_ rfl
  simp [singlePart?, List.replicate_succ]

/-- A line break is read, with the line feed in front of it if it is the first one. -/
theorem readSingle_break (hbreak : isBreak c = true)
    (hwritten : readSingle indent true written = (rest, more)) :
    readSingle indent (goesOn before (c :: rest))
        ((if c = '\n' && before ≠ .lineBreak then ['\n'] else []) ++ c :: written) =
      (c :: rest, more) := by
  have hbehind : readSingle indent true (c :: written) = (c :: rest, more) := by
    refine readParts_part [c] [c] true (by simp) ?_ hwritten
    simp [singlePart?, hbreak]
  by_cases hbefore : before = .lineBreak
  · simpa [goesOn, hbefore, hbreak] using hbehind
  · have hstate : goesOn before (c :: rest) = false := by simp [goesOn, hbefore]
    rw [hstate]
    by_cases hfeed : c = '\n'
    · subst hfeed
      rw [if_pos (by simp [hbefore])]
      refine readParts_part ['\n'] [] true (by simp) ?_ hbehind
      simp [singlePart?]
    · have hquote : c ≠ '\'' := by
        rintro rfl
        exact absurd hbreak (by decide)
      rw [if_neg (by simp [hfeed])]
      refine readParts_part [c] [c] true (by simp) ?_ hwritten
      simp [singlePart?, hfeed, hquote, hbreak]

end

/-- A text in single quotes is read back up to its closing quote. -/
theorem readSingle_writeSingle {indent : Nat} (hindent : 0 < indent) {more : List Char}
    (hmore : more.head? ≠ some '\'') (cs : List Char) (column : Nat) (before : Before) :
    readSingle indent (goesOn before cs) (writeSingle indent column before cs ++ '\'' :: more) =
      (cs, more) := by
  -- by the cases of the writer; inside a run of line breaks the reader has to know that it is there
  fun_induction writeSingle indent column before cs with
  | case1 column before =>
      apply readParts_end
      simp [goesOn, singlePart?, hmore]
  | case2 column before c rest hfold ih =>
      obtain rfl : c = ' ' := by
        simp only [Bool.and_eq_true, decide_eq_true_eq] at hfold
        exact hfold.1.1.1.1.1
      have hstate : goesOn before (' ' :: rest) = false := by simp [goesOn]
      rw [hstate, List.append_assoc]
      obtain ⟨n, rfl⟩ : ∃ n, indent = n + 1 := ⟨indent - 1, by omega⟩
      refine readParts_part (foldLine (n + 1)) [' '] false (by simp [foldLine]) ?_ ih
      simp [singlePart?, foldLine, List.replicate_succ]
  | case3 column before c rest _ hbreak opening hnext ih =>
      rw [List.append_assoc]
      apply readSingle_break hbreak
      simpa [goesOn, hnext] using ih
  | case4 column before c rest _ hbreak opening hnext ih =>
      rw [List.append_assoc, List.cons_append, List.append_assoc]
      apply readSingle_break hbreak
      rw [readSingle_indentation hindent]
      simpa [goesOn, hnext] using ih
  | case5 column before rest _ _ ih =>
      have hstate : goesOn before ('\'' :: rest) = false := by simp [goesOn]
      rw [hstate]
      refine readParts_part ['\'', '\''] ['\''] false (by simp) ?_ ih
      simp [singlePart?]
  | case6 column before c rest _ hbreak hquote ih =>
      have hnone : isBreak c = false := by simpa using hbreak
      have hfeed : c ≠ '\n' := by
        rintro rfl
        exact absurd hbreak (by decide)
      have hstate : goesOn before (c :: rest) = false := by simp [goesOn, hnone]
      have hnext : goesOn (.of c) rest = false := by
        by_cases hspace : c = ' ' <;> simp [goesOn, Before.of, hspace, hnone]
      rw [hstate]
      rw [hnext] at ih
      refine readParts_part [c] [c] false (by simp) ?_ ih
      simp [singlePart?, hquote, hfeed, hnone]

/-! ## Numbers in hexadecimal -/

/-- The number that hexadecimal digits write. -/
def hexValue (digits : List Char) : Nat :=
  digits.foldl (fun n c => n * 16 + (Reader.hexDigit? c).getD 0) 0

theorem hexValue_append (digits : List Char) (c : Char) :
    hexValue (digits ++ [c]) = hexValue digits * 16 + (Reader.hexDigit? c).getD 0 := by
  simp [hexValue]

theorem hexDigit?_capital : ∀ d < 16, Reader.hexDigit? (Nat.digitChar d).toUpper = some d := by
  decide

theorem hexValue_capitalDigits (n : Nat) :
    hexValue ((Nat.toDigits 16 n).map Char.toUpper) = n := by
  induction n using Nat.strongRecOn with
  | ind n ih =>
      rw [Nat.toDigits_eq_if (by decide)]
      split
      · next hlt => simp [hexValue, hexDigit?_capital n hlt]
      · next hge =>
          rw [List.map_append, List.map_singleton, hexValue_append, ih (n / 16) (by omega),
            hexDigit?_capital _ (by omega)]
          simp only [Option.getD_some]
          omega

theorem hexValue_capitalHex (width n : Nat) : hexValue (capitalHex width n) = n := by
  have hzeros : ∀ count (digits : List Char),
      hexValue (List.replicate count '0' ++ digits) = hexValue digits := by
    intro count digits
    induction count with
    | zero => rfl
    | succ count ih => exact ih
  rw [capitalHex, hexText, List.map_append, List.map_replicate]
  exact (hzeros _ _).trans (hexValue_capitalDigits n)

theorem length_capitalHex {width n : Nat} (hn : (Nat.toDigits 16 n).length ≤ width) :
    (capitalHex width n).length = width := by
  simp only [capitalHex, hexText, List.length_map, List.length_append, List.length_replicate]
  omega

/-! ## Texts in double quotes -/

/-- A character that is written by its number, in so many digits behind two marks. -/
def numberedPart (width : Nat) (digits : List Char) : Part Unit :=
  ⟨[Char.ofNat (hexValue (digits.take width))], width + 2, ()⟩

/-- The part at hand of a text in double quotes.  A backslash at the end of a line folds it, and one
in front of a blank marks the blank. -/
def doublePart? (indent : Nat) : Unit → List Char → Option (Part Unit)
  | _, '\\' :: 'x' :: digits => some (numberedPart 2 digits)
  | _, '\\' :: 'u' :: digits => some (numberedPart 4 digits)
  | _, '\\' :: 'U' :: digits => some (numberedPart 8 digits)
  | _, '\\' :: '\n' :: _ => some ⟨[], indent + 2, ()⟩
  | _, '\\' :: ' ' :: _ => some ⟨[' '], 2, ()⟩
  | _, '\\' :: letter :: _ =>
      (escapeLetters.find? fun entry => entry.2 = letter).map fun entry => ⟨[entry.1], 2, ()⟩
  | _, c :: _ => if c = '"' then none else some ⟨[c], 1, ()⟩
  | _, [] => none

/-- Read a text in double quotes from behind its opening quote. -/
def readDouble (indent : Nat) (cs : List Char) : List Char × List Char :=
  readParts (doublePart? indent) 0 () cs

section

variable {indent : Nat} {c : Char} {rest written more : List Char}

theorem escapeOf_ne_nil (c : Char) : escapeOf c ≠ [] := by
  unfold escapeOf
  dsimp only
  repeat' split
  all_goals simp

/-- The digits of an escape by number are read as the character. -/
theorem numberedPart_capitalHex {width : Nat} (hc : (Nat.toDigits 16 c.toNat).length ≤ width)
    (more : List Char) :
    numberedPart width (capitalHex width c.toNat ++ more) =
      ⟨[c], ('\\' :: 'x' :: capitalHex width c.toNat).length, ()⟩ := by
  have hlength := length_capitalHex hc
  have hdigits : (capitalHex width c.toNat ++ more).take width = capitalHex width c.toNat := by
    simp [hlength]
  rw [numberedPart, hdigits, hexValue_capitalHex, Char.ofNat_toNat, List.length_cons,
    List.length_cons, hlength]

/-- The letters of escapes are told apart. -/
theorem doublePart?_letter (more : List Char) : ∀ entry ∈ escapeLetters,
    doublePart? indent () ('\\' :: entry.2 :: more) = some ⟨[entry.1], 2, ()⟩ := by
  simp only [escapeLetters, List.forall_mem_cons]
  repeat' constructor
  simp

theorem doublePart?_escapeOf (c : Char) (more : List Char) :
    doublePart? indent () (escapeOf c ++ more) = some ⟨[c], (escapeOf c).length, ()⟩ := by
  unfold escapeOf
  split
  · next letter hletter =>
      exact doublePart?_letter more _ (mem_of_lookup hletter)
  · have hvalid := Text.toNat_valid c
    have hdigits := fun (width : Nat) (hpos : 0 < width) =>
      (Nat.length_toDigits_le_iff (b := 16) (n := c.toNat) (by decide) hpos).mpr
    dsimp only
    split
    · exact congrArg some (numberedPart_capitalHex (hdigits 2 (by decide) (by omega)) more)
    · split
      · exact congrArg some (numberedPart_capitalHex (hdigits 4 (by decide) (by omega)) more)
      · exact congrArg some (numberedPart_capitalHex (hdigits 8 (by decide) (by omega)) more)

/-- A character that is written as it is, is read as itself. -/
theorem readDouble_open (hopen : isOpen c = true)
    (hwritten : readDouble indent written = (rest, more)) :
    readDouble indent (c :: written) = (c :: rest, more) := by
  have hne : c ≠ '"' ∧ c ≠ '\\' := by
    constructor <;> rintro rfl <;> exact absurd hopen (by decide)
  refine readParts_part [c] [c] () (by simp) ?_ hwritten
  simp [doublePart?, hne]

theorem readDouble_escapeOf (c : Char) (hwritten : readDouble indent written = (rest, more)) :
    readDouble indent (escapeOf c ++ written) = (c :: rest, more) :=
  readParts_part (escapeOf c) [c] () (escapeOf_ne_nil c) (doublePart?_escapeOf c written) hwritten

/-- A fold stands for nothing, also if it has a mark for the blank behind it. -/
theorem readDouble_foldDouble
    (hblank : rest.head? = some ' ' → ∃ others, written = ' ' :: others) :
    readDouble indent (foldDouble indent rest ++ written) = readDouble indent written := by
  have hfold : ∀ behind, readDouble indent ('\\' :: (foldLine indent ++ behind)) =
      readDouble indent behind := fun behind =>
    readParts_part ('\\' :: foldLine indent) [] () (by simp)
      (by simp [doublePart?, foldLine]) rfl
  unfold foldDouble
  rw [List.cons_append, List.append_assoc, hfold]
  split
  · next hspace =>
      obtain ⟨others, rfl⟩ := hblank hspace
      have hmarked : readDouble indent ('\\' :: ' ' :: others) =
          (' ' :: (readDouble indent others).1, (readDouble indent others).2) :=
        readParts_part ['\\', ' '] [' '] () (by simp) rfl rfl
      have hplain : readDouble indent (' ' :: others) =
          (' ' :: (readDouble indent others).1, (readDouble indent others).2) :=
        readDouble_open (by decide) rfl
      exact hmarked.trans hplain.symm
  · rfl

end

theorem columnBehindFold_le (indent : Nat) (rest : List Char) :
    columnBehindFold indent rest ≤ indent + 1 := by
  unfold columnBehindFold
  split <;> omega

/-- At the start of a line a blank is written as it is. -/
theorem writeDouble_blank {indent column : Nat} (hcolumn : column ≤ lineWidth) (before : Flow)
    (rest : List Char) :
    writeDouble indent column before (' ' :: rest) =
      ' ' :: writeDouble indent (column + 1) .open rest := by
  rw [writeDouble]
  simp [show isOpen ' ' = true from rfl, Nat.not_lt.mpr hcolumn]

/-- A text in double quotes is read back up to its closing quote. -/
theorem readDouble_writeDouble {indent : Nat} (hindent : indent < lineWidth) (more cs : List Char)
    (column : Nat) (before : Flow) :
    readDouble indent (writeDouble indent column before cs ++ '"' :: more) = (cs, more) := by
  fun_induction writeDouble indent column before cs with
  | case1 => exact readParts_end rfl
  | case2 column before c rest _ hopen _ ih =>
      rw [List.append_assoc, List.cons_append, readDouble_foldDouble]
      · exact readDouble_open hopen ih
      · intro hspace
        obtain rfl : c = ' ' := Option.some.inj hspace
        exact ⟨_, rfl⟩
  | case3 column before c rest _ hopen _ ih => exact readDouble_open hopen ih
  | case4 column before c rest _ _ _ _ _ ih =>
      rw [List.append_assoc, List.append_assoc]
      apply readDouble_escapeOf c
      rw [readDouble_foldDouble]
      · exact ih
      · -- the blank is marked, so it must not be folded once more
        intro hspace
        obtain ⟨others, rfl⟩ : ∃ others, rest = ' ' :: others := by
          cases rest with
          | nil => cases hspace
          | cons first others => exact ⟨others, by rw [Option.some.inj hspace]⟩
        have hcolumn := columnBehindFold_le indent (' ' :: others)
        rw [writeDouble_blank (by omega)]
        exact ⟨_, rfl⟩
  | case5 column before c rest _ _ _ _ _ ih =>
      rw [List.append_assoc]
      exact readDouble_escapeOf c ih

/-! ## Texts in any form -/

/-- Read a text in the form that its first mark tells, and what is left behind the end of its
line. -/
def readText (indent : Nat) : List Char → List Char × List Char
  | ' ' :: '\'' :: rest =>
      let read := readSingle indent false rest
      (read.1, read.2.drop 1)
  | ' ' :: '"' :: rest =>
      let read := readDouble indent rest
      (read.1, read.2.drop 1)
  | _ :: rest => readPlain indent rest
  | [] => ([], [])

/-- A text that is written as it is starts with no blank and no quote, and it is one line. -/
theorem exists_of_formOf_eq_plain {cs : List Char} (h : formOf cs = .plain) :
    ∃ c rest, cs = c :: rest ∧ (c ≠ ' ' ∧ c ≠ '\'' ∧ c ≠ '"') ∧ '\n' ∉ cs := by
  unfold formOf at h
  split at h
  · cases h
  · split at h
    · cases h
    · next hplain =>
        simp only [Bool.or_eq_true, not_or, Bool.not_eq_true] at hplain
        obtain ⟨⟨⟨hambiguous, hgap⟩, hbreak⟩, hmark⟩ := hplain
        cases cs with
        | nil => exact absurd hambiguous (by decide)
        | cons c rest =>
            have hc : isSpace c = false ∧ isOpeningMark c = false := by
              simp only [hasOuterGap, hasMark, opensWithMark, List.head?_cons, Option.any_some,
                Bool.or_eq_false_iff] at hgap hmark
              exact ⟨hgap.1.1, hmark.1.2.1⟩
            refine ⟨c, rest, rfl, ⟨?_, ?_, ?_⟩, fun hmem => ?_⟩
            · rintro rfl
              exact absurd hc.1 (by decide)
            · rintro rfl
              exact absurd hc.2 (by decide)
            · rintro rfl
              exact absurd hc.2 (by decide)
            · exact absurd (List.any_eq_false.mp hbreak '\n' hmem) (by decide)

/-- A text is read back from what is written, whatever the line has got to, if the next line is not
indented as far. -/
theorem readText_writeText {indent : Nat} (hpos : 0 < indent) (hindent : indent < lineWidth)
    {more : List Char} (hmore : Outdented indent more) (column : Nat) (cs : List Char) :
    readText indent (writeText indent column cs ++ '\n' :: more) = (cs, more) := by
  unfold writeText
  split
  · next hplain =>
      obtain ⟨c, rest, rfl, ⟨hspace, hsingle, hdouble⟩, hline⟩ := exists_of_formOf_eq_plain hplain
      have hread := readPlain_writePlain hline hmore (column + 1) false
      have hstart : writePlain indent (column + 1) false (c :: rest) =
          c :: writePlain indent (column + 2) false rest := by
        rw [writePlain]
        simp [hspace]
      rw [hstart, List.cons_append] at hread
      rw [hstart, List.cons_append, List.cons_append, readText]
      · exact hread
      · exact fun _ _ heq => hsingle (List.cons.inj heq).1
      · exact fun _ _ heq => hdouble (List.cons.inj heq).1
  · have hend : ('\n' :: more).head? ≠ some '\'' := by simp
    have hread := readSingle_writeSingle hpos hend cs (column + 2) .start
    rw [List.cons_append, List.cons_append, List.append_assoc, List.singleton_append, readText]
    exact congrArg (fun read => (read.1, read.2.drop 1)) hread
  · have hread := readDouble_writeDouble hindent ('\n' :: more) cs (column + 2) .start
    rw [List.cons_append, List.cons_append, List.append_assoc, List.singleton_append, readText]
    exact congrArg (fun read => (read.1, read.2.drop 1)) hread

example : readText 2 " 'it''s\n\n  so\n  far'\nnext".toList =
    ("it's\nso far".toList, "next".toList) := by decide +kernel

end EditionSurvey.Yaml
