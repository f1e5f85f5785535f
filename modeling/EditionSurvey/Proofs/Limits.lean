/-
  Proofs/Limits.lean --- when a data file is given up.

  The reader says of most texts that they hold a value or what is wrong with them.  Two limits
  keep it from doing so: a whole number may not have too many digits, and lists and objects may
  not nest too deep.  A file that is given up has such a number, or a bracket that opens where as
  many others are open as may be (`exceeds_of_readFile`).

  What the reader has passed when it gives up is known: values and separators, which leave the
  depth as it was, and the brackets of the lists and objects that it is in.  So the induction on
  its steps speaks of the characters that are left, and what is found in them is carried back over
  what was passed (`Exceeds.behind`).
-/
import EditionSurvey.Proofs.Standing

set_option autoImplicit false

namespace EditionSurvey.Reader

/-- Nothing stands before, or something that a value may follow. -/
def PrecedesValue (before : List Char) : Prop :=
  ∀ c ∈ before.getLast?, isBlank c = true ∨ isOpening c = true ∨ c = ',' ∨ c = ':'

/-- The characters hold a whole number with these digits, outside the texts: it stands where a
value may stand, with a sign or without one, and neither more digits nor a fraction nor an
exponent follows. -/
def HoldsNumber (digits cs : List Char) : Prop :=
  ∃ before sign after depth, cs = before ++ (sign ++ (digits ++ after)) ∧
    standing before = .outside depth ∧ PrecedesValue before ∧ (sign = [] ∨ sign = ['-']) ∧
    readWhole? (digits ++ after) = some (digits, after) ∧ (readFraction after).1 = [] ∧
    readExponent? after = none

/-- A list or an object opens in the characters where so many others are open. -/
def OpensAt (depth : Int) (cs : List Char) : Prop :=
  ∃ before c after, cs = before ++ c :: after ∧ isOpening c = true ∧
    standing before = .outside depth

/-- Why the reader gives characters up, with so many levels left. -/
inductive Exceeds (levels : Nat) (cs : List Char) : ReadingFault → Prop where
  /-- it does not: something is wrong with them -/
  | malformed (malformation : Malformation) (left : Nat) :
      Exceeds levels cs (.malformed malformation left)
  /-- they hold a whole number with too many digits -/
  | digits {digits : List Char} (holds : HoldsNumber digits cs)
      (long : digitLimit < digits.length) : Exceeds levels cs (.numberTooLong digits.length)
  /-- a bracket opens in them when no level is left -/
  | nesting (deep : OpensAt levels cs) : Exceeds levels cs .nestsTooDeep

section

variable {levels depth : Nat} {cs rest text blanks : List Char} {fault : ReadingFault}

theorem exceeds_of_refuse {α : Type} {malformation : Malformation} {left : List Char}
    (h : (refuse malformation left : Except ReadingFault α) = .error fault) :
    Exceeds levels cs fault := by
  obtain rfl := Except.error.inj h
  exact .malformed _ _

/-! ## What was passed -/

theorem PrecedesValue.append {before : List Char} (h : PrecedesValue text)
    (hbefore : PrecedesValue before) : PrecedesValue (text ++ before) := by
  intro c hc
  rw [List.getLast?_append, Option.mem_def, Option.or_eq_some_iff] at hc
  exact hc.elim (hbefore c) fun hc => h c hc.2

/-- Blanks precede a value, alone and behind what does. -/
theorem precedesValue_of_blank (h : AllBlank blanks) : PrecedesValue blanks :=
  fun c hc => .inl (h c (List.mem_of_mem_getLast? hc))

theorem precedesValue_behind (text : List Char) {c : Char} (hc : isOpening c = true ∨ c = ',' ∨ c = ':')
    (h : AllBlank blanks) : PrecedesValue (text ++ c :: blanks) := by
  have hone : PrecedesValue (text ++ [c]) := by
    intro d hd
    obtain rfl : c = d := by simpa using hd
    exact .inr hc
  simpa using hone.append (precedesValue_of_blank h)

/-- What the reader has passed on its way to a value: so many more levels are used up. -/
structure Passed (depth : Nat) (text : List Char) : Prop where
  /-- it is outside the texts, so many levels deeper -/
  standing_eq : standing text = .outside depth
  /-- a value may follow -/
  precedes : PrecedesValue text

theorem passed_blanks (h : AllBlank blanks) : Passed 0 blanks :=
  ⟨standing_of_blank h, precedesValue_of_blank h⟩

theorem passed_opening {c : Char} (hc : isOpening c = true) (h : AllBlank blanks) :
    Passed 1 (c :: blanks) :=
  ⟨standing_opening hc (standing_of_blank h), precedesValue_behind [] (.inl hc) h⟩

/-- A value is passed with the blanks around the separator behind it. -/
theorem passed_separator {c : Char} {before : List Char} (hc : c = ',' ∨ c = ':')
    (htext : standing text = .outside 0) (hbefore : AllBlank before) (h : AllBlank blanks) :
    Passed 0 (text ++ (before ++ c :: blanks)) := by
  have hplain : IsPlain c := by
    obtain rfl | rfl := hc <;> decide
  refine ⟨?_, ?_⟩
  · exact standing_append_outside htext (standing_append_outside (standing_of_blank hbefore)
      (standing_separator c hplain (standing_of_blank h)))
  · rw [← List.append_assoc]
    exact precedesValue_behind _ (.inr hc) h

theorem Passed.append {more : Nat} (h : Passed depth text) (hrest : Passed more rest) :
    Passed (depth + more) (text ++ rest) :=
  ⟨standing_append_outside h.standing_eq hrest.standing_eq, h.precedes.append hrest.precedes⟩

/-- What is exceeded by the rest is exceeded by all, with the levels of what was passed. -/
theorem Exceeds.behind (h : Exceeds levels rest fault) (hpassed : Passed depth text) :
    Exceeds (depth + levels) (text ++ rest) fault := by
  cases h with
  | malformed => exact .malformed _ _
  | digits holds long =>
      obtain ⟨before, sign, after, inner, rfl, hbefore, hprecedes, hnumber⟩ := holds
      refine .digits ⟨text ++ before, sign, after, depth + inner, (List.append_assoc ..).symm, ?_,
        hpassed.precedes.append hprecedes, hnumber⟩ long
      exact standing_append_outside hpassed.standing_eq hbefore
  | nesting deep =>
      obtain ⟨before, c, after, rfl, hc, hbefore⟩ := deep
      refine .nesting ⟨text ++ before, c, after, (List.append_assoc ..).symm, hc, ?_⟩
      exact standing_append_outside hpassed.standing_eq hbefore

theorem Exceeds.behind_separator {c : Char} {left behind : List Char}
    (h : Exceeds levels (skipBlanks behind) fault) (hc : c = ',' ∨ c = ':')
    (htext : standing text = .outside 0) (hleft : skipBlanks left = c :: behind) :
    Exceeds levels (text ++ left) fault := by
  obtain ⟨before, hbefore, hsplit⟩ := exists_blanks left
  obtain ⟨blanks, hblanks, hbehind⟩ := exists_blanks behind
  have hall := h.behind (passed_separator hc htext hbefore hblanks)
  rw [hsplit, hleft, hbehind]
  simpa using hall

theorem Exceeds.behind_opening {c : Char} (h : Exceeds levels (skipBlanks rest) fault)
    (hc : isOpening c = true) : Exceeds (levels + 1) (c :: rest) fault := by
  obtain ⟨blanks, hblanks, hrest⟩ := exists_blanks rest
  have hall := h.behind (passed_opening hc hblanks)
  rw [hrest, Nat.add_comm]
  simpa using hall

/-! ## Texts and numbers -/

theorem exceeds_of_readLowUnit? (h : readLowUnit? cs = .error fault) :
    Exceeds levels rest fault := by
  unfold readLowUnit? at h
  split at h
  · split at h
    · exact exceeds_of_refuse h
    · cases h
  · cases h

theorem exceeds_of_readUnit (h : readUnit cs = .error fault) : Exceeds levels rest fault := by
  unfold readUnit at h
  split at h
  · split at h
    · exact exceeds_of_refuse h
    · split at h
      · split at h
        · next hlow =>
            obtain rfl := Except.error.inj h
            exact exceeds_of_readLowUnit? hlow
        · cases h
        · cases h
      · cases h
  · exact exceeds_of_refuse h

/-- A text is never given up. -/
theorem exceeds_of_readText {opening done : List Char} {fuel : Nat}
    (h : readText opening fuel done cs = .error fault) : Exceeds levels rest fault := by
  fun_induction readText opening fuel done cs with
  | case1 | case2 | case4 | case7 | case9 => exact exceeds_of_refuse h
  | case3 => cases h
  | case5 _ _ _ _ hunit =>
      obtain rfl := Except.error.inj h
      exact exceeds_of_readUnit hunit
  | case6 _ _ _ _ _ _ ih | case8 _ _ _ _ _ _ _ ih | case10 _ _ _ _ _ _ _ _ _ ih => exact ih h

/-- A number is given up for its own digits. -/
theorem exceeds_of_readUnsigned (sign : List Char) {start : List Char} {negative : Bool}
    (hsign : sign = [] ∨ sign = ['-']) (h : readUnsigned start negative cs = .error fault) :
    Exceeds levels (sign ++ cs) fault := by
  unfold readUnsigned at h
  split at h
  · exact exceeds_of_refuse h
  · next whole behind hwhole =>
      obtain ⟨rfl, _⟩ := eq_append_of_readWhole? hwhole
      simp only at h
      split at h
      · next hlong =>
          obtain rfl := Except.error.inj h
          simp only [Bool.and_eq_true, decide_eq_true_eq, List.isEmpty_iff,
            Option.isNone_iff_eq_none] at hlong
          obtain ⟨⟨hfraction, hexponent⟩, hlong⟩ := hlong
          have hbehind : (readFraction behind).2 = behind := by
            revert hfraction
            unfold readFraction
            split
            · split
              · exact fun _ => rfl
              · next hne _ => exact fun hnil => absurd hnil hne
            · exact fun _ => rfl
          rw [hbehind] at hexponent
          exact .digits ⟨[], sign, behind, 0, rfl, rfl, by simp [PrecedesValue], hsign, hwhole,
            hfraction, hexponent⟩ hlong
      · split at h <;> cases h

theorem exceeds_of_readAtom (h : readAtom cs = .error fault) : Exceeds levels cs fault := by
  unfold readAtom at h
  split at h
  · cases h
  · unfold readNumber at h
    split at h
    · exact exceeds_of_readUnsigned ['-'] (.inr rfl) h
    · exact exceeds_of_readUnsigned [] (.inl rfl) h

end

/-! ## Values -/

/-- What is given up with so many steps exceeds a limit. -/
structure GivesUpRightly (fuel : Nat) : Prop where
  /-- a value -/
  value : ∀ {levels : Nat} {cs : List Char} {fault : ReadingFault},
    readValue fuel levels cs = .error fault → Exceeds levels cs fault
  /-- the items of a list -/
  items : ∀ {levels : Nat} {done : List Value} {cs : List Char} {fault : ReadingFault},
    readItems fuel levels done cs = .error fault → Exceeds levels cs fault
  /-- the members of an object -/
  members : ∀ {levels : Nat} {done : List (String × Value)} {cs : List Char}
    {fault : ReadingFault},
    readMembers fuel levels done cs = .error fault → Exceeds levels cs fault

section

variable {fuel levels : Nat} {cs : List Char} {fault : ReadingFault}

/-- A bracket opens right here, and no level is left. -/
theorem exceeds_of_no_level {c : Char} {rest : List Char} (hc : isOpening c = true) :
    Exceeds 0 (c :: rest) .nestsTooDeep :=
  .nesting ⟨[], c, rest, rfl, hc, rfl⟩

theorem GivesUpRightly.readValue_succ (ih : GivesUpRightly fuel)
    (h : readValue (fuel + 1) levels cs = .error fault) : Exceeds levels cs fault := by
  unfold readValue at h
  split at h
  · split at h
    · cases h
    · next htext =>
        obtain rfl := Except.error.inj h
        exact exceeds_of_readText htext
  · split at h
    · obtain rfl := Except.error.inj h
      exact exceeds_of_no_level rfl
    · split at h
      · cases h
      · exact (ih.items h).behind_opening rfl
  · split at h
    · obtain rfl := Except.error.inj h
      exact exceeds_of_no_level rfl
    · split at h
      · cases h
      · exact (ih.members h).behind_opening rfl
  · exact exceeds_of_readAtom h

theorem GivesUpRightly.readItems_succ (ih : GivesUpRightly fuel) {done : List Value}
    (h : readItems (fuel + 1) levels done cs = .error fault) : Exceeds levels cs fault := by
  rw [readItems] at h
  split at h
  · next hvalue =>
      obtain rfl := Except.error.inj h
      exact ih.value hvalue
  · next left hvalue =>
      obtain ⟨_, text, rfl, hwritten⟩ := (wasWritten fuel).value hvalue
      split at h
      · cases h
      · next hskip => exact (ih.items h).behind_separator (.inl rfl) hwritten.standing_eq hskip
      · exact exceeds_of_refuse h

theorem GivesUpRightly.readMembers_succ (ih : GivesUpRightly fuel)
    {done : List (String × Value)}
    (h : readMembers (fuel + 1) levels done cs = .error fault) : Exceeds levels cs fault := by
  unfold readMembers at h
  split at h
  · next rest =>
      split at h
      · next htext =>
          obtain rfl := Except.error.inj h
          exact exceeds_of_readText htext
      · next name behindName htext =>
          obtain ⟨body, rfl, hname⟩ := exists_writesText_of_readText htext
          split at h
          · next behindColon hcolon =>
              have hmember : ∀ {levels : Nat} {fault : ReadingFault},
                  Exceeds levels (skipBlanks behindColon) fault →
                    Exceeds levels ('"' :: (body ++ behindName)) fault := fun hrest =>
                hrest.behind_separator (.inr rfl) hname.standing_eq hcolon
              split at h
              · next hvalue =>
                  obtain rfl := Except.error.inj h
                  exact hmember (ih.value hvalue)
              · next left hvalue =>
                  obtain ⟨_, text, hleft, hwritten⟩ := (wasWritten fuel).value hvalue
                  simp only at h
                  split at h
                  · cases h
                  · next hskip =>
                      refine hmember ?_
                      rw [hleft]
                      exact (ih.members h).behind_separator (.inl rfl) hwritten.standing_eq hskip
                  · exact exceeds_of_refuse h
          · exact exceeds_of_refuse h
  · exact exceeds_of_refuse h

/-- The reader gives nothing up that exceeds no limit, however many steps it is given. -/
theorem givesUpRightly (fuel : Nat) : GivesUpRightly fuel := by
  induction fuel with
  | zero =>
      refine ⟨fun h => ?_, fun h => ?_, fun h => ?_⟩
      · exact exceeds_of_refuse (readValue.eq_1 .. ▸ h)
      · exact exceeds_of_refuse (readItems.eq_1 .. ▸ h)
      · exact exceeds_of_refuse (readMembers.eq_1 .. ▸ h)
  | succ fuel ih => exact ⟨ih.readValue_succ, ih.readItems_succ, ih.readMembers_succ⟩

/-- A file that is given up exceeds a limit. -/
theorem exceeds_of_readFile (h : readFile cs = .error fault) : Exceeds nestingLimit cs fault := by
  unfold readFile at h
  split at h
  · exact exceeds_of_refuse h
  · split at h
    · next hvalue =>
        obtain rfl := Except.error.inj h
        obtain ⟨blanks, hblanks, hcs⟩ := exists_blanks cs
        have hall := ((givesUpRightly _).value hvalue).behind (passed_blanks hblanks)
        rwa [← hcs, Nat.zero_add] at hall
    · split at h
      · cases h
      · exact exceeds_of_refuse h

end

end EditionSurvey.Reader
