/-
  Proofs/Readable.lean --- every data file that can be read is written.

  `Proofs/Writing.lean` says that a file which is written is read back.  Here is the other half:
  the reader accepts nothing else (`exists_writesFile_of_readFile`).  What a reading function
  took from the characters that were left is a part of a file on its own: read alone, it yields
  the same and leaves nothing.
-/
import EditionSurvey.Proofs.Writing

set_option autoImplicit false

namespace EditionSurvey

namespace Reader

/-! ## Texts -/

section

variable {opening done cs left body more : List Char} {fuel : Nat} {s : String} {c : Char}

/-- What is no second unit is none when less follows. -/
theorem readLowUnit?_of_append (h : readLowUnit? (body ++ more) = .ok none) :
    readLowUnit? body = .ok none := by
  by_cases hescape : ∃ a b c d next rest, body = '\\' :: 'u' :: a :: b :: c :: d :: next :: rest
  · obtain ⟨a, b, c, d, next, rest, rfl⟩ := hescape
    simp only [List.cons_append, readLowUnit?] at h ⊢
    cases hnumber : hexNumber? a b c d with
    | none => simp [hnumber, refuse] at h
    | some n =>
        have hlow : ¬isLowUnit n = true := by simpa [hnumber] using h
        simp [hlow]
  · unfold readLowUnit?
    split
    · exact absurd ⟨_, _, _, _, _, _, rfl⟩ hescape
    · rfl

/-- The characters of an escape by number.  They are read in the same way when less follows, but
not when nothing does: an escape has to have something behind it. -/
theorem exists_unit_of_readUnit (h : readUnit cs = .ok (c, left)) :
    ∃ used, cs = used ++ left ∧
      ∀ body more, left = body ++ more → body ≠ [] → readUnit (used ++ body) = .ok (c, body) := by
  obtain ⟨a, b, d, e, next, rest, rfl⟩ := exists_of_readUnit h
  simp only [readUnit] at h
  cases hnumber : hexNumber? a b d e with
  | none => simp [hnumber, refuse] at h
  | some n =>
      simp only [hnumber] at h
      by_cases hhigh : isHighUnit n = true
      · simp only [hhigh, if_true] at h
        cases hlow : readLowUnit? (next :: rest) with
        | error fault => simp [hlow] at h
        | ok found =>
            rw [hlow] at h
            cases found with
            | none =>
                obtain ⟨rfl, rfl⟩ := Prod.mk.inj (Except.ok.inj h)
                refine ⟨[a, b, d, e], rfl, fun body more hleft hne => ?_⟩
                obtain ⟨first, body, rfl⟩ := List.exists_cons_of_ne_nil hne
                have hnone : readLowUnit? (first :: body) = .ok none :=
                  readLowUnit?_of_append (hleft ▸ hlow)
                simp [readUnit, hnumber, hhigh, hnone]
            | some unit =>
                obtain ⟨low, behind⟩ := unit
                obtain ⟨rfl, rfl⟩ := Prod.mk.inj (Except.ok.inj h)
                obtain ⟨a', b', d', e', first, tail, hcs, rfl, hsecond, hunit⟩ :=
                  exists_of_readLowUnit? hlow
                obtain ⟨rfl, rfl⟩ := List.cons.inj hcs
                refine ⟨[a, b, d, e, '\\', 'u', a', b', d', e'], rfl, fun body more _ hne => ?_⟩
                obtain ⟨first, body, rfl⟩ := List.exists_cons_of_ne_nil hne
                simp [readUnit, readLowUnit?, hnumber, hhigh, hsecond, hunit]
      · simp only [hhigh] at h
        obtain ⟨rfl, rfl⟩ := Prod.mk.inj (Except.ok.inj h)
        refine ⟨[a, b, d, e], rfl, fun body more _ hne => ?_⟩
        obtain ⟨first, body, rfl⟩ := List.exists_cons_of_ne_nil hne
        simp [readUnit, hnumber, hhigh]

/-- The characters of a text, which are read alone in the same way. -/
theorem exists_body_of_readText (h : readText opening fuel done cs = .ok (s, left)) :
    ∃ body, cs = body ++ left ∧ body ≠ [] ∧
      ∀ other steps, body.length < steps → readText other steps done body = .ok (s, []) := by
  fun_induction readText opening fuel done cs with
  | case1 | case2 | case4 | case5 | case7 | case9 => cases h
  | case3 =>
      obtain ⟨rfl, rfl⟩ := Prod.mk.inj (Except.ok.inj h)
      refine ⟨['"'], rfl, by simp, fun other steps hsteps => ?_⟩
      obtain ⟨steps, rfl⟩ := Nat.exists_eq_add_of_lt hsteps
      rfl
  | case6 fuel done rest c behind hunit ih =>
      obtain ⟨body, rfl, hne, hbody⟩ := ih h
      obtain ⟨used, rfl, hused⟩ := exists_unit_of_readUnit hunit
      refine ⟨'\\' :: 'u' :: (used ++ body), by simp, by simp, fun other steps hsteps => ?_⟩
      cases steps with
      | zero => exact absurd hsteps (Nat.not_lt_zero _)
      | succ steps =>
          simp only [List.length_cons, List.length_append] at hsteps
          simp only [readText, hused body left rfl hne]
          exact hbody other steps (by omega)
  | case8 fuel done c rest hu e hescaped ih =>
      obtain ⟨body, rfl, _, hbody⟩ := ih h
      refine ⟨'\\' :: c :: body, by simp, by simp, fun other steps hsteps => ?_⟩
      cases steps with
      | zero => exact absurd hsteps (Nat.not_lt_zero _)
      | succ steps =>
          simp only [List.length_cons] at hsteps
          simp only [readText, hescaped]
          exact hbody other steps (by omega)
  | case10 fuel done c rest hquote hend _ hescape hcontrol ih =>
      obtain ⟨body, rfl, hne, hbody⟩ := ih h
      refine ⟨c :: body, by simp, by simp, fun other steps hsteps => ?_⟩
      have hbackslash : c ≠ '\\' := by
        rintro rfl
        obtain ⟨first, body, rfl⟩ := List.exists_cons_of_ne_nil hne
        exact hescape first (body ++ left) rfl rfl
      cases steps with
      | zero => exact absurd hsteps (Nat.not_lt_zero _)
      | succ steps =>
          simp [readText, hbackslash, hcontrol, hbody other steps (Nat.lt_of_succ_lt_succ hsteps)]

theorem exists_writesText_of_readText (h : readText opening fuel [] cs = .ok (s, left)) :
    ∃ body, cs = body ++ left ∧ WritesText s ('"' :: body) := by
  obtain ⟨body, hcs, _, hbody⟩ := exists_body_of_readText h
  exact ⟨body, hcs, body, rfl, hbody _ _ (Nat.lt_succ_self _)⟩

end

/-! ## Words and numbers -/

section

variable {cs left more : List Char} {v : Value}

/-- Nothing follows, or something that neither a whole number nor a fraction starts or goes on
with. -/
def PastDigits (cs : List Char) : Prop := ∀ c ∈ cs.head?, c.isDigit = false ∧ c ≠ '.'

theorem span_isDigit_append {digits : List Char} (hdigits : ∀ c ∈ digits, c.isDigit = true)
    (hmore : ∀ c ∈ more.head?, c.isDigit = false) :
    (digits ++ more).span Char.isDigit = (digits, more) := by
  simp only [List.span_eq_takeWhile_dropWhile]
  rw [List.takeWhile_append_of_pos hdigits, List.dropWhile_append_of_pos hdigits]
  cases more with
  | nil => simp
  | cons c more => simp [hmore c rfl]

theorem span_isDigit_self {digits : List Char} (hdigits : ∀ c ∈ digits, c.isDigit = true) :
    digits.span Char.isDigit = (digits, []) := by
  have happend : (digits ++ []).span Char.isDigit = (digits, []) :=
    span_isDigit_append hdigits (by simp)
  rwa [List.append_nil] at happend

theorem eq_append_of_span {digits : List Char} (h : cs.span Char.isDigit = (digits, left)) :
    cs = digits ++ left ∧ ∀ c ∈ digits, c.isDigit = true := by
  rw [List.span_eq_takeWhile_dropWhile] at h
  obtain ⟨rfl, rfl⟩ := Prod.mk.inj h
  exact ⟨(List.takeWhile_append_dropWhile ..).symm, List.all_eq_true.mp List.all_takeWhile⟩

/-- The whole part of a number is read from its digits alone. -/
theorem eq_append_of_readWhole? {whole : List Char} (h : readWhole? cs = some (whole, left)) :
    cs = whole ++ left ∧ ∀ more : List Char, (∀ c ∈ more.head?, c.isDigit = false) →
      readWhole? (whole ++ more) = some (whole, more) := by
  match cs with
  | [] => simp [readWhole?] at h
  | c :: rest =>
      by_cases hzero : c = '0'
      · subst hzero
        obtain ⟨rfl, rfl⟩ := Prod.mk.inj (Option.some.inj h)
        exact ⟨rfl, fun more _ => rfl⟩
      · rw [readWhole?_of_ne hzero] at h
        split at h
        · next hdigit =>
            have hspan := Option.some.inj h
            obtain ⟨hcs, hdigits⟩ := eq_append_of_span hspan
            refine ⟨hcs, fun more hmore => ?_⟩
            have hfirst : whole = c :: rest.takeWhile Char.isDigit := by
              simpa [hdigit] using (congrArg Prod.fst hspan).symm
            rw [hfirst, List.cons_append, readWhole?_of_ne hzero, if_pos hdigit, ← List.cons_append,
              ← hfirst, span_isDigit_append hdigits hmore]
        · cases h

/-- The characters of a fraction: none, or a point with digits. -/
theorem exists_of_readFraction {digits : List Char} (h : readFraction cs = (digits, left)) :
    ∃ text, cs = text ++ left ∧ (∀ c ∈ text.head?, c = '.') ∧ ∀ more, PastDigits more →
      readFraction (text ++ more) = (digits, more) := by
  have hnothing : ∀ more, PastDigits more → readFraction more = ([], more) := by
    intro more hmore
    cases more with
    | nil => rfl
    | cons c more => exact readFraction_of_ne (hmore c rfl).2
  unfold readFraction at h
  split at h
  · next rest =>
      split at h
      · obtain ⟨rfl, rfl⟩ := Prod.mk.inj h
        exact ⟨[], rfl, by simp, hnothing⟩
      · next found behind hne hspan =>
          obtain ⟨rfl, rfl⟩ := Prod.mk.inj h
          obtain ⟨rfl, hdigits⟩ := eq_append_of_span hspan
          refine ⟨'.' :: found, rfl, by simp, fun more hmore => ?_⟩
          have hspan := span_isDigit_append hdigits fun c hc => (hmore c hc).1
          obtain ⟨digit, digits, rfl⟩ := List.exists_cons_of_ne_nil hne
          simp only [List.cons_append, readFraction]
          rw [← List.cons_append, hspan]
  · obtain ⟨rfl, rfl⟩ := Prod.mk.inj h
    exact ⟨[], rfl, by simp, hnothing⟩

/-- The characters of an exponent behind its letter. -/
theorem exists_of_readExponentDigits? {n : Int} (h : readExponentDigits? cs = some (n, left)) :
    ∃ text, cs = text ++ left ∧ readExponentDigits? text = some (n, []) := by
  have hunsigned : ∀ cs : List Char, (∀ c ∈ cs.head?, c ≠ '-' ∧ c ≠ '+') →
      readExponentDigits? cs = some (n, left) →
        ∃ text, cs = text ++ left ∧ readExponentDigits? text = some (n, []) := by
    intro cs hcs h
    rw [readExponentDigits?_of_ne hcs] at h
    rcases hspan : cs.span Char.isDigit with ⟨_ | ⟨digit, digits⟩, behind⟩
    · simp [hspan, -List.span_eq_takeWhile_dropWhile] at h
    · rw [hspan] at h
      obtain ⟨rfl, rfl⟩ := Prod.mk.inj (Option.some.inj h)
      obtain ⟨rfl, hdigits⟩ := eq_append_of_span hspan
      exact ⟨digit :: digits, rfl, by
        rw [readExponentDigits?_of_ne (by simpa using hcs), span_isDigit_self hdigits]⟩
  match cs with
  | [] => exact hunsigned [] (by simp) h
  | c :: rest =>
      by_cases hsign : c = '-' ∨ c = '+'
      · rcases hspan : rest.span Char.isDigit with ⟨_ | ⟨digit, digits⟩, behind⟩
        · obtain rfl | rfl := hsign <;>
            simp [readExponentDigits?, hspan, -List.span_eq_takeWhile_dropWhile] at h
        · obtain ⟨rfl, hdigits⟩ := eq_append_of_span hspan
          obtain rfl | rfl := hsign
          all_goals
            simp only [readExponentDigits?, hspan] at h
            obtain ⟨rfl, rfl⟩ := Prod.mk.inj (Option.some.inj h)
            exact ⟨_ :: digit :: digits, rfl, by
              simp only [readExponentDigits?, span_isDigit_self hdigits]⟩
      · exact hunsigned (c :: rest) (by simpa using hsign) h

theorem exists_of_readExponent? {n : Int} (h : readExponent? cs = some (n, left)) :
    ∃ text, cs = text ++ left ∧ readExponent? text = some (n, []) ∧ PastDigits text := by
  unfold readExponent? at h
  split at h
  · obtain ⟨text, rfl, htext⟩ := exists_of_readExponentDigits? h
    exact ⟨'e' :: text, rfl, htext, by simp [PastDigits]⟩
  · obtain ⟨text, rfl, htext⟩ := exists_of_readExponentDigits? h
    exact ⟨'E' :: text, rfl, htext, by simp [PastDigits]⟩
  · cases h

/-- The characters of a number behind its sign: whole part, fraction and exponent. -/
theorem exists_of_readUnsigned {start : List Char} {negative : Bool}
    (h : readUnsigned start negative cs = .ok (v, left)) :
    ∃ text, cs = text ++ left ∧ ∀ other, readUnsigned other negative text = .ok (v, []) := by
  unfold readUnsigned at h
  cases hwhole : readWhole? cs with
  | none => simp [hwhole, refuse] at h
  | some found =>
      obtain ⟨whole, behind⟩ := found
      obtain ⟨rfl, hwholeAgain⟩ := eq_append_of_readWhole? hwhole
      rcases hfraction : readFraction behind with ⟨fraction, tail⟩
      obtain ⟨point, rfl, hpoint, hfractionAgain⟩ := exists_of_readFraction hfraction
      simp only [hwhole, hfraction] at h
      have hnoDigit : ∀ text, PastDigits text → ∀ c ∈ (point ++ text).head?, c.isDigit = false := by
        intro text htext c hc
        cases point with
        | nil => exact (htext c hc).1
        | cons first point =>
            obtain rfl : first = c := by simpa using hc
            obtain rfl := hpoint first rfl
            rfl
      cases hexponent : readExponent? tail with
      | none =>
          have hend : PastDigits [] := by simp [PastDigits]
          have hnone : readExponent? [] = none := rfl
          simp only [hexponent] at h
          split at h
          · cases h
          · next hlimit =>
              obtain ⟨rfl, rfl⟩ := Prod.mk.inj (Except.ok.inj h)
              refine ⟨whole ++ (point ++ []), by simp, fun other => ?_⟩
              simp only [readUnsigned, hwholeAgain _ (hnoDigit [] hend), hfractionAgain [] hend,
                hnone]
              rw [if_neg hlimit]
      | some read =>
          obtain ⟨exponent, behind⟩ := read
          obtain ⟨text, rfl, hexponentAgain, htext⟩ := exists_of_readExponent? hexponent
          simp only [hexponent, Option.isNone_some, Bool.and_false, Bool.false_and] at h
          obtain ⟨rfl, rfl⟩ := Prod.mk.inj (Except.ok.inj h)
          refine ⟨whole ++ (point ++ text), by simp, fun other => ?_⟩
          simp only [readUnsigned, hwholeAgain _ (hnoDigit text htext), hfractionAgain text htext,
            hexponentAgain, Option.isNone_some, Bool.and_false, Bool.false_and]
          rfl

/-- The characters of a word or a number, which are read alone in the same way. -/
theorem exists_of_readAtom (h : readAtom cs = .ok (v, left)) :
    ∃ text, cs = text ++ left ∧ readAtom text = .ok (v, []) := by
  rcases readAtom_cases h with ⟨entry, hentry, rfl, rfl⟩ | ⟨hread, c, rest, hdigit, rfl | rfl⟩
  · exact ⟨_, rfl, by simpa using readAtom_of_word hentry []⟩
  · have hminus : c ≠ '-' := by
      rintro rfl
      exact absurd hdigit (by decide)
    rw [readNumber_of_ne hminus] at hread
    obtain ⟨text, hcs, htext⟩ := exists_of_readUnsigned hread
    obtain ⟨first, text, rfl, _⟩ := exists_digit_of_readUnsigned (htext [])
    obtain ⟨rfl, rfl⟩ := List.cons.inj hcs
    refine ⟨c :: text, rfl, ?_⟩
    rw [(readAtom_of_digit hdigit).1, readNumber_of_ne hminus]
    exact htext _
  · obtain ⟨text, hcs, htext⟩ := exists_of_readUnsigned hread
    obtain ⟨first, text, rfl, hfirst⟩ := exists_digit_of_readUnsigned (htext [])
    refine ⟨'-' :: first :: text, by rw [hcs]; rfl, ?_⟩
    rw [(readAtom_of_digit hfirst).2]
    exact htext _

end

/-! ## Lists and objects -/

section

variable {fuel levels : Nat} {v w : Value} {cs core left more : List Char}

theorem exists_blanks (cs : List Char) : ∃ blanks, AllBlank blanks ∧ cs = blanks ++ skipBlanks cs :=
  ⟨cs.takeWhile isBlank, List.all_eq_true.mp List.all_takeWhile,
    (List.takeWhile_append_dropWhile ..).symm⟩

/-- More blanks may stand before what is padded. -/
theorem Padded.append_blanks (h : Padded core cs) {blanks : List Char} (hblanks : AllBlank blanks) :
    Padded core (blanks ++ cs) := by
  obtain ⟨before, behind, hbefore, hbehind, rfl⟩ := h
  refine ⟨blanks ++ before, behind, fun c hc => ?_, hbehind, by simp⟩
  exact (List.mem_append.mp hc).elim (hblanks c) (hbefore c)

/-- More blanks may stand before the items of a list. -/
theorem WritesItems.append_blanks {items : List Value} (h : WritesItems items cs)
    {blanks : List Char} (hblanks : AllBlank blanks) : WritesItems items (blanks ++ cs) := by
  cases h with
  | last value padded =>
      rw [← List.append_assoc]
      exact .last value (padded.append_blanks hblanks)
  | more value padded rest =>
      rw [← List.append_assoc]
      exact .more value (padded.append_blanks hblanks) rest

/-- More blanks may stand before the members of an object. -/
theorem WritesMembers.append_blanks {members : List (String × Value)} (h : WritesMembers members cs)
    {blanks : List Char} (hblanks : AllBlank blanks) : WritesMembers members (blanks ++ cs) := by
  cases h with
  | last text named value padded =>
      rw [← List.append_assoc]
      exact .last text (named.append_blanks hblanks) value padded
  | more text named value padded rest =>
      rw [← List.append_assoc]
      exact .more text (named.append_blanks hblanks) value padded rest

/-- What was read with so many steps was written. -/
structure WasWritten (fuel : Nat) : Prop where
  /-- a value -/
  value : ∀ {levels : Nat} {w : Value} {cs left : List Char},
    readValue fuel levels cs = .ok (w, left) →
      ∃ v text, cs = text ++ left ∧ Writes v text
  /-- the items of a list -/
  items : ∀ {levels : Nat} {done : List Value} {w : Value} {cs left : List Char},
    readItems fuel levels done cs = .ok (w, left) →
      ∃ items text, cs = text ++ left ∧ WritesItems items text
  /-- the members of an object -/
  members : ∀ {levels : Nat} {done : List (String × Value)} {w : Value} {cs left : List Char},
    readMembers fuel levels done cs = .ok (w, left) →
      ∃ members text, cs = text ++ left ∧ WritesMembers members text

theorem WasWritten.readValue_succ (ih : WasWritten fuel)
    (h : readValue (fuel + 1) levels cs = .ok (w, left)) :
    ∃ v text, cs = text ++ left ∧ Writes v text := by
  unfold readValue at h
  split at h
  · next rest =>
      cases htext : readText ('"' :: rest) (rest.length + 1) [] rest with
      | error fault => simp [htext] at h
      | ok read =>
          obtain ⟨s, behind⟩ := read
          obtain ⟨rfl, rfl⟩ : .string s = w ∧ behind = left := by simpa [htext] using h
          obtain ⟨body, hrest, hbody⟩ := exists_writesText_of_readText htext
          exact ⟨.string s, '"' :: body, by rw [hrest]; rfl, .text hbody⟩
  · next rest =>
      obtain ⟨blanks, hblanks, hrest⟩ := exists_blanks rest
      split at h
      · cases h
      · split at h
        · next behind hskip =>
            obtain ⟨rfl, rfl⟩ := Prod.mk.inj (Except.ok.inj h)
            exact ⟨.list [], '[' :: (blanks ++ [']']), by rw [hrest, hskip]; simp,
              .emptyList hblanks⟩
        · obtain ⟨items, text, hitems, hwritten⟩ := ih.items h
          exact ⟨.list items, '[' :: (blanks ++ text), by rw [hrest, hitems]; simp,
            .list (hwritten.append_blanks hblanks)⟩
  · next rest =>
      obtain ⟨blanks, hblanks, hrest⟩ := exists_blanks rest
      split at h
      · cases h
      · split at h
        · next behind hskip =>
            obtain ⟨rfl, rfl⟩ := Prod.mk.inj (Except.ok.inj h)
            exact ⟨.object [], '\x7b' :: (blanks ++ ['\x7d']), by rw [hrest, hskip]; simp,
              .emptyObject hblanks⟩
        · obtain ⟨members, text, hmembers, hwritten⟩ := ih.members h
          exact ⟨.object members, '\x7b' :: (blanks ++ text), by rw [hrest, hmembers]; simp,
            .object (hwritten.append_blanks hblanks)⟩
  · obtain ⟨text, hcs, htext⟩ := exists_of_readAtom h
    exact ⟨w, text, hcs, .atom htext⟩

theorem WasWritten.readItems_succ (ih : WasWritten fuel) {done : List Value}
    (h : readItems (fuel + 1) levels done cs = .ok (w, left)) :
    ∃ items text, cs = text ++ left ∧ WritesItems items text := by
  rw [readItems] at h
  split at h
  · cases h
  · next found behind hvalue =>
      obtain ⟨v, core, rfl, hcore⟩ := ih.value hvalue
      obtain ⟨blanks, hblanks, hbehind⟩ := exists_blanks behind
      have hpadded : Padded core (core ++ blanks) := ⟨[], blanks, by simp [AllBlank], hblanks, rfl⟩
      split at h
      · next rest hskip =>
          obtain ⟨rfl, rfl⟩ := Prod.mk.inj (Except.ok.inj h)
          exact ⟨[v], core ++ blanks ++ [']'], by rw [hbehind, hskip]; simp, .last hcore hpadded⟩
      · next rest hskip =>
          obtain ⟨before, hbefore, hrest⟩ := exists_blanks rest
          obtain ⟨items, text, hitems, hwritten⟩ := ih.items h
          exact ⟨v :: items, core ++ blanks ++ ',' :: (before ++ text),
            by rw [hbehind, hskip, hrest, hitems]; simp,
            .more hcore hpadded (hwritten.append_blanks hbefore)⟩
      · cases h

theorem WasWritten.readMembers_succ (ih : WasWritten fuel) {done : List (String × Value)}
    (h : readMembers (fuel + 1) levels done cs = .ok (w, left)) :
    ∃ members text, cs = text ++ left ∧ WritesMembers members text := by
  unfold readMembers at h
  split at h
  · next rest =>
      split at h
      · cases h
      · next name behindName htext =>
        obtain ⟨body, rfl, hbody⟩ := exists_writesText_of_readText htext
        obtain ⟨afterName, hafterName, hbehindName⟩ := exists_blanks behindName
        have hnamed : Padded ('"' :: body) ('"' :: body ++ afterName) :=
          ⟨[], afterName, by simp [AllBlank], hafterName, rfl⟩
        split at h
        · next behindColon hcolon =>
          obtain ⟨before, hbefore, hbehindColon⟩ := exists_blanks behindColon
          split at h
          · cases h
          · next found behind hvalue =>
            obtain ⟨v, core, hskipped, hcore⟩ := ih.value hvalue
            obtain ⟨blanks, hblanks, hbehind⟩ := exists_blanks behind
            have hpadded : Padded core (before ++ (core ++ blanks)) :=
              ⟨before, blanks, hbefore, hblanks, rfl⟩
            split at h
            · next rest hskip =>
                obtain ⟨rfl, rfl⟩ := Prod.mk.inj (Except.ok.inj h)
                exact ⟨[(name, v)], _, by
                  rw [hbehindName, hcolon, hbehindColon, hskipped, hbehind, hskip]; simp,
                  .last hbody hnamed hcore hpadded⟩
            · next rest hskip =>
                obtain ⟨more, hmore, hrest⟩ := exists_blanks rest
                obtain ⟨members, text, hmembers, hwritten⟩ := ih.members h
                exact ⟨(name, v) :: members, _, by
                  rw [hbehindName, hcolon, hbehindColon, hskipped, hbehind, hskip, hrest, hmembers]
                  simp, .more hbody hnamed hcore hpadded (hwritten.append_blanks hmore)⟩
            · cases h
        · cases h
  · cases h

/-- The reader takes nothing that is not written, however many steps it is given. -/
theorem wasWritten (fuel : Nat) : WasWritten fuel := by
  induction fuel with
  | zero =>
      refine ⟨fun h => ?_, fun h => ?_, fun h => ?_⟩
      · simp [readValue, refuse] at h
      · simp [readItems, refuse] at h
      · simp [readMembers, refuse] at h
  | succ fuel ih => exact ⟨ih.readValue_succ, ih.readItems_succ, ih.readMembers_succ⟩

/-- A file that can be read has a value written in it; it is the value that is read, unless one
of its objects has two members of one name. -/
theorem exists_writesFile_of_readFile (h : readFile cs = .ok w) :
    ∃ v, WritesFile v cs ∧ (v.Distinct → w = v) := by
  have hfile := h
  unfold readFile at h
  split at h
  · cases h
  · split at h
    · cases h
    · next found left hvalue =>
        obtain ⟨before, hbefore, hcs⟩ := exists_blanks cs
        obtain ⟨v, core, hskip, hcore⟩ := (wasWritten _).value hvalue
        obtain ⟨behind, hbehind, hleft⟩ := exists_blanks left
        split at h
        · next hnothing =>
            have hwritten : WritesFile v cs :=
              ⟨core, hcore, before, behind, hbefore, hbehind, by
                rw [hcs, hskip, hleft, hnothing, List.append_nil]⟩
            exact ⟨v, hwritten, fun hdistinct => readFile_of_writes hwritten hdistinct hfile⟩
        · cases h

end

end Reader

end EditionSurvey
