/-
  Proofs/Standing.lean --- where a character of a data file stands.

  A bracket opens or closes something only outside the texts of a file.  `standing` follows the
  characters one by one and knows no more than whether they have led into a text, and how many
  more brackets have opened than closed.  Whatever is written as a value leads back to where it
  began (`Writes.standing_eq`), so behind the parts that a reader has passed the depth is the
  number of lists and objects that it has entered.
-/
import EditionSurvey.Proofs.Readable

set_option autoImplicit false

namespace EditionSurvey.Reader

/-- A bracket that opens a list or an object. -/
def isOpening (c : Char) : Bool := c = '[' || c = '\x7b'

/-- A bracket that closes a list or an object. -/
def isClosing (c : Char) : Bool := c = ']' || c = '\x7d'

/-- Where characters of a data file lead to; the depth is how many more brackets have opened than
closed. -/
inductive Standing where
  /-- outside the texts -/
  | outside (depth : Int)
  /-- into a text -/
  | quoted (depth : Int)
  /-- behind a backslash in a text -/
  | escaped (depth : Int)
  deriving DecidableEq, Repr

namespace Standing

/-- Where one more character leads to. -/
def step : Standing → Char → Standing
  | .outside depth, c =>
      if c = '"' then .quoted depth
      else if isOpening c then .outside (depth + 1)
      else if isClosing c then .outside (depth - 1)
      else .outside depth
  | .quoted depth, c =>
      if c = '"' then .outside depth else if c = '\\' then .escaped depth else .quoted depth
  | .escaped depth, _ => .quoted depth

/-- The same place, so many levels deeper. -/
def deeper (more : Int) : Standing → Standing
  | .outside depth => .outside (more + depth)
  | .quoted depth => .quoted (more + depth)
  | .escaped depth => .escaped (more + depth)

/-- How many more brackets have opened than closed. -/
def depth : Standing → Int
  | .outside depth => depth
  | .quoted depth => depth
  | .escaped depth => depth

theorem step_deeper (more : Int) (s : Standing) (c : Char) :
    (s.deeper more).step c = (s.step c).deeper more := by
  cases s with
  | outside depth =>
      rw [deeper, step, step]
      split_ifs
      · rfl
      · exact congrArg outside (Int.add_assoc _ _ _)
      · exact congrArg outside (Int.add_sub_assoc _ _ _)
      · rfl
  | quoted depth =>
      rw [deeper, step, step]
      split_ifs <;> rfl
  | escaped depth => rfl

theorem foldl_deeper (more : Int) (s : Standing) (cs : List Char) :
    cs.foldl step (s.deeper more) = (cs.foldl step s).deeper more := by
  induction cs generalizing s with
  | nil => rfl
  | cons c cs ih => rw [List.foldl_cons, List.foldl_cons, step_deeper, ih]

theorem depth_foldl_le (s : Standing) (cs : List Char) :
    (cs.foldl step s).depth ≤ s.depth + cs.length := by
  induction cs generalizing s with
  | nil => simp
  | cons c cs ih =>
      have hstep : (s.step c).depth ≤ s.depth + 1 := by
        cases s with
        | outside d => rw [step]; split_ifs <;> simp only [depth] <;> omega
        | quoted d => rw [step]; split_ifs <;> simp only [depth] <;> omega
        | escaped d => simp only [step, depth]; omega
      have hrest := ih (s.step c)
      rw [List.foldl_cons, List.length_cons]
      push_cast
      omega

end Standing

/-- Where characters lead to from the beginning of a file. -/
def standing (cs : List Char) : Standing := cs.foldl Standing.step (.outside 0)

section

variable {cs more text : List Char} {depth next : Int}

/-- Behind characters that lead so deep, others lead so much deeper. -/
theorem standing_append (h : standing cs = .outside depth) (more : List Char) :
    standing (cs ++ more) = (standing more).deeper depth := by
  rw [standing, List.foldl_append, ← standing, h, standing, ← Standing.foldl_deeper]
  simp [Standing.deeper]

theorem standing_append_outside (h : standing cs = .outside depth)
    (hmore : standing more = .outside next) :
    standing (cs ++ more) = .outside (depth + next) := by
  rw [standing_append h, hmore]
  rfl

/-- No character leads deeper than by one level. -/
theorem depth_le_length (h : standing cs = .outside depth) : depth ≤ cs.length := by
  have hle := Standing.depth_foldl_le (.outside 0) cs
  rw [← standing, h] at hle
  simpa [Standing.depth] using hle

/-- A character that is neither a quote nor a bracket. -/
def IsPlain (c : Char) : Prop := c ≠ '"' ∧ isOpening c = false ∧ isClosing c = false

instance (c : Char) : Decidable (IsPlain c) := inferInstanceAs (Decidable (_ ∧ _ ∧ _))

theorem standing_of_plain (h : ∀ c ∈ cs, IsPlain c) : standing cs = .outside 0 := by
  induction cs with
  | nil => rfl
  | cons c cs ih =>
      obtain ⟨⟨hquote, hopening, hclosing⟩, hcs⟩ := List.forall_mem_cons.mp h
      have hc : standing [c] = .outside 0 := by
        simp [standing, Standing.step, hquote, hopening, hclosing]
      exact standing_append_outside hc (ih hcs)

theorem isPlain_of_isBlank {c : Char} (h : isBlank c = true) : IsPlain c := by
  simp only [isBlank, Bool.or_eq_true, decide_eq_true_eq] at h
  rcases h with ((rfl | rfl) | rfl) | rfl <;> decide

theorem standing_of_blank (h : AllBlank cs) : standing cs = .outside 0 :=
  standing_of_plain fun c hc => isPlain_of_isBlank (h c hc)

/-! ## Texts -/

/-- A hexadecimal digit neither ends a text nor starts an escape. -/
theorem step_of_hexDigit? {c : Char} {n : Nat} (h : hexDigit? c = some n) :
    (Standing.quoted depth).step c = .quoted depth := by
  have hquote : c ≠ '"' := by
    rintro rfl
    revert h
    decide +revert
  have hbackslash : c ≠ '\\' := by
    rintro rfl
    revert h
    decide +revert
  rw [Standing.step, if_neg hquote, if_neg hbackslash]

theorem foldl_of_hexNumber? {a b c d : Char} {n : Nat} (h : hexNumber? a b c d = some n)
    (rest : List Char) : (a :: b :: c :: d :: rest).foldl Standing.step (.quoted depth) =
      rest.foldl Standing.step (.quoted depth) := by
  unfold hexNumber? at h
  simp only [Option.bind_eq_bind, Option.bind_eq_some_iff] at h
  obtain ⟨na, ha, nb, hb, nc, hc, nd, hd, _⟩ := h
  simp only [List.foldl_cons, step_of_hexDigit? ha, step_of_hexDigit? hb, step_of_hexDigit? hc,
    step_of_hexDigit? hd]

/-- An escape by number stays in its text. -/
theorem foldl_of_readUnit {c : Char} {left : List Char} (h : readUnit cs = .ok (c, left)) :
    cs.foldl Standing.step (.quoted depth) = left.foldl Standing.step (.quoted depth) := by
  obtain ⟨a, b, d, e, next, rest, rfl⟩ := exists_of_readUnit h
  unfold readUnit at h
  simp only at h
  split at h
  · cases h
  · next n hnumber =>
      rw [foldl_of_hexNumber? hnumber]
      split at h
      · split at h
        · cases h
        · next low behind hlow =>
            obtain ⟨_, rfl⟩ := Prod.mk.inj (Except.ok.inj h)
            obtain ⟨_, _, _, _, _, _, heq, rfl, hsecond, _⟩ := exists_of_readLowUnit? hlow
            rw [heq]
            exact foldl_of_hexNumber? hsecond _
        · obtain ⟨_, rfl⟩ := Prod.mk.inj (Except.ok.inj h)
          rfl
      · obtain ⟨_, rfl⟩ := Prod.mk.inj (Except.ok.inj h)
        rfl

/-- Behind a text that was read, its quote has closed. -/
theorem foldl_of_readText {opening done left : List Char} {fuel : Nat} {s : String}
    (h : readText opening fuel done cs = .ok (s, left)) :
    cs.foldl Standing.step (.quoted depth) = left.foldl Standing.step (.outside depth) := by
  fun_induction readText opening fuel done cs with
  | case1 | case2 | case4 | case5 | case7 | case9 => cases h
  | case3 =>
      obtain ⟨_, rfl⟩ := Prod.mk.inj (Except.ok.inj h)
      rfl
  | case6 fuel done rest c behind hunit ih =>
      exact (foldl_of_readUnit hunit).trans (ih h)
  | case8 fuel done c rest hu e hescaped ih => exact ih h
  | case10 fuel done c rest hquote hend _ hescape hcontrol ih =>
      have hbackslash := ne_backslash hend hescape
      have hstep : (Standing.quoted depth).step c = .quoted depth := by
        rw [Standing.step, if_neg hquote, if_neg hbackslash]
      rw [List.foldl_cons, hstep]
      exact ih h

theorem WritesText.standing_eq {s : String} (h : WritesText s cs) : standing cs = .outside 0 := by
  obtain ⟨body, rfl, hread⟩ := h
  exact foldl_of_readText hread

/-! ## Words and numbers -/

theorem isPlain_of_isDigit {c : Char} (h : c.isDigit = true) : IsPlain c := by
  refine ⟨?_, Bool.eq_false_iff.mpr fun hopening => ?_, Bool.eq_false_iff.mpr fun hclosing => ?_⟩
  · rintro rfl
    exact absurd h (by decide)
  · simp only [isOpening, Bool.or_eq_true, decide_eq_true_eq] at hopening
    rcases hopening with rfl | rfl <;> exact absurd h (by decide)
  · simp only [isClosing, Bool.or_eq_true, decide_eq_true_eq] at hclosing
    rcases hclosing with rfl | rfl <;> exact absurd h (by decide)

/-- What is left comes behind plain characters. -/
def PlainlyTo (cs left : List Char) : Prop := ∃ used, cs = used ++ left ∧ ∀ c ∈ used, IsPlain c

theorem PlainlyTo.refl (cs : List Char) : PlainlyTo cs cs := ⟨[], rfl, by simp⟩

theorem PlainlyTo.trans {behind left : List Char} (h : PlainlyTo cs behind)
    (hbehind : PlainlyTo behind left) : PlainlyTo cs left := by
  obtain ⟨used, rfl, hused⟩ := h
  obtain ⟨others, rfl, hothers⟩ := hbehind
  refine ⟨used ++ others, (List.append_assoc ..).symm, fun c hc => ?_⟩
  exact (List.mem_append.mp hc).elim (hused c) (hothers c)

theorem PlainlyTo.cons {c : Char} {left : List Char} (h : PlainlyTo cs left) (hc : IsPlain c) :
    PlainlyTo (c :: cs) left :=
  .trans ⟨[c], rfl, by simpa using hc⟩ h

theorem plainlyTo_of_span {digits left : List Char} (h : cs.span Char.isDigit = (digits, left)) :
    PlainlyTo cs left := by
  obtain ⟨hcs, hdigits⟩ := eq_append_of_span h
  exact ⟨digits, hcs, fun c hc => isPlain_of_isDigit (hdigits c hc)⟩

theorem digits_of_readWhole? {whole left : List Char} (h : readWhole? cs = some (whole, left)) :
    ∀ c ∈ whole, c.isDigit = true := by
  unfold readWhole? at h
  split at h
  · obtain ⟨rfl, _⟩ := Prod.mk.inj (Option.some.inj h)
    simp
  · split at h
    · exact (eq_append_of_span (Option.some.inj h)).2
    · cases h
  · cases h

theorem plainlyTo_of_readWhole? {whole left : List Char} (h : readWhole? cs = some (whole, left)) :
    PlainlyTo cs left :=
  ⟨whole, (eq_append_of_readWhole? h).1, fun c hc => isPlain_of_isDigit (digits_of_readWhole? h c hc)⟩

theorem plainlyTo_readFraction (cs : List Char) : PlainlyTo cs (readFraction cs).2 := by
  unfold readFraction
  split
  · split
    · exact .refl _
    · next hspan => exact (plainlyTo_of_span hspan).cons (by decide)
  · exact .refl _

theorem plainlyTo_of_readExponentDigits? {n : Int} {left : List Char}
    (h : readExponentDigits? cs = some (n, left)) : PlainlyTo cs left := by
  match cs with
  | [] => cases h
  | c :: rest =>
      by_cases hsign : c = '-' ∨ c = '+'
      · obtain rfl | rfl := hsign
        all_goals
          simp only [readExponentDigits?] at h
          split at h
          · cases h
          · next hspan =>
              obtain ⟨_, rfl⟩ := Prod.mk.inj (Option.some.inj h)
              exact (plainlyTo_of_span hspan).cons (by decide)
      · rw [readExponentDigits?_of_ne (by simpa using hsign)] at h
        split at h
        · cases h
        · next hspan =>
            obtain ⟨_, rfl⟩ := Prod.mk.inj (Option.some.inj h)
            exact plainlyTo_of_span hspan

theorem plainlyTo_of_readExponent? {n : Int} {left : List Char}
    (h : readExponent? cs = some (n, left)) : PlainlyTo cs left := by
  unfold readExponent? at h
  split at h
  · exact (plainlyTo_of_readExponentDigits? h).cons (by decide)
  · exact (plainlyTo_of_readExponentDigits? h).cons (by decide)
  · cases h

theorem plainlyTo_of_readUnsigned {start left : List Char} {negative : Bool} {v : Value}
    (h : readUnsigned start negative cs = .ok (v, left)) : PlainlyTo cs left := by
  unfold readUnsigned at h
  split at h
  · cases h
  · next whole behind hwhole =>
      have hbehind := (plainlyTo_of_readWhole? hwhole).trans (plainlyTo_readFraction behind)
      simp only at h
      split at h
      · cases h
      · split at h
        · next hexponent =>
            obtain ⟨_, rfl⟩ := Prod.mk.inj (Except.ok.inj h)
            exact hbehind.trans (plainlyTo_of_readExponent? hexponent)
        · obtain ⟨_, rfl⟩ := Prod.mk.inj (Except.ok.inj h)
          exact hbehind

/-- Words and numbers are written without quotes and brackets. -/
theorem plainlyTo_of_readAtom {v : Value} {left : List Char} (h : readAtom cs = .ok (v, left)) :
    PlainlyTo cs left := by
  rcases readAtom_cases h with ⟨entry, hentry, rfl, rfl⟩ | ⟨hread, c, rest, hdigit, rfl | rfl⟩
  · have hwords : ∀ entry ∈ words, ∀ c ∈ entry.1.toList, IsPlain c := by
      simp [words, IsPlain, isOpening, isClosing]
    exact ⟨_, rfl, hwords entry hentry⟩
  · have hminus : c ≠ '-' := by
      rintro rfl
      exact absurd hdigit (by decide)
    rw [readNumber_of_ne hminus] at hread
    exact plainlyTo_of_readUnsigned hread
  · exact (plainlyTo_of_readUnsigned hread).cons (by decide)

theorem standing_of_readAtom {v : Value} (h : readAtom cs = .ok (v, [])) :
    standing cs = .outside 0 := by
  obtain ⟨used, rfl, hused⟩ := plainlyTo_of_readAtom h
  exact standing_of_plain (by simpa using hused)

/-! ## Lists and objects -/

theorem Padded.standing_eq {core : List Char} (h : Padded core cs)
    (hcore : standing core = .outside 0) : standing cs = .outside 0 := by
  obtain ⟨before, behind, hbefore, hbehind, rfl⟩ := h
  exact standing_append_outside (standing_of_blank hbefore)
    (standing_append_outside hcore (standing_of_blank hbehind))

theorem standing_opening {c : Char} (hc : isOpening c = true) (h : standing cs = .outside depth) :
    standing (c :: cs) = .outside (1 + depth) := by
  have hone : standing [c] = .outside 1 := by
    simp only [isOpening, Bool.or_eq_true, decide_eq_true_eq] at hc
    obtain rfl | rfl := hc <;> rfl
  exact standing_append_outside hone h

theorem standing_closing {c : Char} (hc : isClosing c = true) (h : standing cs = .outside depth) :
    standing (cs ++ [c]) = .outside (depth - 1) := by
  have hone : standing [c] = .outside (-1) := by
    simp only [isClosing, Bool.or_eq_true, decide_eq_true_eq] at hc
    obtain rfl | rfl := hc <;> rfl
  exact standing_append_outside h hone

/-- A separator leads nowhere. -/
theorem standing_separator (c : Char) (hc : IsPlain c) (h : standing cs = .outside depth) :
    standing (c :: cs) = .outside depth := by
  have hone : standing [c] = .outside 0 := standing_of_plain (by simpa using hc)
  have hboth := standing_append_outside hone h
  rwa [Int.zero_add] at hboth

end

mutual

/-- What is written as a value leads back to where it began. -/
theorem Writes.standing_eq {v : Value} {cs : List Char} (h : Writes v cs) :
    standing cs = .outside 0 := by
  cases h with
  | atom read => exact standing_of_readAtom read
  | text written => exact written.standing_eq
  | emptyList blank => exact standing_opening rfl (standing_closing rfl (standing_of_blank blank))
  | list written => exact standing_opening rfl written.standing_eq
  | emptyObject blank => exact standing_opening rfl (standing_closing rfl (standing_of_blank blank))
  | object written => exact standing_opening rfl written.standing_eq

/-- Items lead out of their list. -/
theorem WritesItems.standing_eq {items : List Value} {cs : List Char} (h : WritesItems items cs) :
    standing cs = .outside (-1) := by
  cases h with
  | last value padded => exact standing_closing rfl (padded.standing_eq value.standing_eq)
  | more value padded rest =>
      exact standing_append_outside (padded.standing_eq value.standing_eq)
        (standing_separator ',' (by decide) rest.standing_eq)

/-- Members lead out of their object. -/
theorem WritesMembers.standing_eq {members : List (String × Value)} {cs : List Char}
    (h : WritesMembers members cs) : standing cs = .outside (-1) := by
  cases h with
  | last text named value padded =>
      exact standing_append_outside (named.standing_eq text.standing_eq)
        (standing_separator ':' (by decide) (standing_closing rfl
          (padded.standing_eq value.standing_eq)))
  | more text named value padded rest =>
      have hbehind := standing_append_outside (padded.standing_eq value.standing_eq)
        (standing_separator ',' (by decide) rest.standing_eq)
      exact standing_append_outside (named.standing_eq text.standing_eq)
        (standing_separator ':' (by decide) hbehind)

end

end EditionSurvey.Reader
